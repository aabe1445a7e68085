import Mathlib
import Toolsmith.Json.Scan

/-! # What a scan takes

A scan is run on the text of what it should find, followed by any rest that may stand there. The
loops are counted by fuel, which is more than the number of their steps on every text that was
written; a string comes back as it was, whatever its characters (`Scan.string_of_stringText`).
-/

namespace Toolsmith
namespace Json
namespace Scan

section Steps

variable {α β σ : Type} {rest after : List Char}

theorem get_bind (next : List Char → Scan α) : ((get : Scan (List Char)) >>= next) rest =
    next rest rest :=
  rfl

theorem set_bind (text : List Char) (next : PUnit → Scan α) :
    ((set text : Scan PUnit) >>= next) rest = next ⟨⟩ text :=
  rfl

theorem bind_of_ok {scan : Scan α} {value : α} (next : α → Scan β)
    (read : scan rest = .ok (value, after)) : (scan >>= next) rest = next value after := by
  change (scan rest >>= fun found => next found.1 found.2) = _
  rw [read]
  rfl

theorem bind_of_error {scan : Scan α} {stop : Stop} (next : α → Scan β)
    (failed : scan rest = .error stop) : (scan >>= next) rest = .error stop := by
  change (scan rest >>= fun found => next found.1 found.2) = _
  rw [failed]
  rfl

theorem map_of_ok {scan : Scan α} {value : α} (f : α → β) (read : scan rest = .ok (value, after)) :
    (f <$> scan) rest = .ok (f value, after) := by
  change (scan rest >>= fun found => pure (f found.1, found.2)) = _
  rw [read]
  rfl

theorem map_of_error {scan : Scan α} {stop : Stop} (f : α → β) (failed : scan rest = .error stop) :
    (f <$> scan) rest = .error stop := by
  change (scan rest >>= fun found => pure (f found.1, found.2)) = _
  rw [failed]
  rfl

/-- Blanks are passed over only where there are some. -/
theorem peek_of_head {c : Char} (visible : isSpace c = false) :
    peek (c :: rest) = .ok (some c, c :: rest) := by
  change Except.ok ((((c :: rest).dropWhile isSpace).head?), (c :: rest).dropWhile isSpace) = _
  rw [List.dropWhile_cons_of_neg (by simp [visible])]
  rfl

theorem peek_bind {c : Char} (next : Option Char → Scan α) (visible : isSpace c = false) :
    (peek >>= next) (c :: rest) = next (some c) (c :: rest) :=
  bind_of_ok next (peek_of_head visible)

variable {step : σ → Scan (σ ⊕ α)} {state later : σ} {fuel : Nat}

theorem loopWithin_of_more (read : step state rest = .ok (.inl later, after)) :
    loopWithin step (fuel + 1) state rest = loopWithin step fuel later after := by
  rw [loopWithin, bind_of_ok _ read]

theorem loopWithin_of_done {value : α} (read : step state rest = .ok (.inr value, after)) :
    loopWithin step (fuel + 1) state rest = .ok (value, after) := by
  rw [loopWithin, bind_of_ok _ read]
  rfl

theorem loopWithin_of_error {stop : Stop} (failed : step state rest = .error stop) :
    loopWithin step (fuel + 1) state rest = .error stop := by
  rw [loopWithin, bind_of_error _ failed]

theorem loopWithin_congr (same : step state rest = step later after) :
    loopWithin step (fuel + 1) state rest = loopWithin step (fuel + 1) later after := by
  cases read : step later after with
  | error stop => rw [loopWithin_of_error read, loopWithin_of_error (same.trans read)]
  | ok found =>
      obtain ⟨next | value, beyond⟩ := found
      · rw [loopWithin_of_more read, loopWithin_of_more (same.trans read)]
      · rw [loopWithin_of_done read, loopWithin_of_done (same.trans read)]

end Steps

section Strings

variable {c : Char} {rest : List Char}

theorem hexValue?_digitChar {n : Nat} (small : n < 16) : hexValue? (Nat.digitChar n) = some n := by
  interval_cases n <;> rfl

theorem hexEscape_of_small {n : Nat} (small : n < 256) :
    hexEscape ('0' :: '0' :: Nat.digitChar (n / 16) :: Nat.digitChar (n % 16) :: rest) =
      .ok (n, rest) := by
  have high := hexValue?_digitChar (show n / 16 < 16 by omega)
  have low := hexValue?_digitChar (show n % 16 < 16 by omega)
  have zero : hexValue? '0' = some 0 := rfl
  have long : ¬ byteCount ('0' :: '0' :: Nat.digitChar (n / 16) :: Nat.digitChar (n % 16) :: rest)
      < 4 := by
    have := Char.utf8Size_pos (Nat.digitChar (n / 16))
    have := Char.utf8Size_pos (Nat.digitChar (n % 16))
    have : '0'.utf8Size = 1 := rfl
    simp only [byteCount, List.foldr_cons]
    omega
  rw [hexEscape, get_bind, if_neg long]
  simp only [List.take_succ_cons, List.take_zero, List.mapM_cons, List.mapM_nil, zero, high, low]
  change Except.ok _ = _
  congr 2
  omega

theorem escape_code (control : c.toNat < 0x20) :
    escape ('u' :: '0' :: '0' :: Nat.digitChar (c.toNat / 16) :: Nat.digitChar (c.toNat % 16) ::
      rest) = .ok (c, rest) := by
  have read := @hexEscape_of_small rest _ (show c.toNat < 256 by omega)
  change codeEscape _ = _
  rw [codeEscape, bind_of_ok _ read, if_neg (by omega), if_neg (by omega), Char.ofNat_toNat]
  rfl

/-- A character of a string stands for itself, or is written as a backslash and what is read back
after it. -/
theorem escapeChar_cases (c : Char) :
    isPlain c = true ∧ escapeChar c = [c] ∨
      isPlain c = false ∧ ∃ code, escapeChar c = '\\' :: code ∧
        ∀ rest, escape (code ++ rest) = .ok (c, rest) := by
  by_cases letter : c ∈ ['"', '\\', '\n', '\r', '\t', '\x08', '\x0c']
  · right
    simp only [List.mem_cons, List.not_mem_nil, or_false] at letter
    rcases letter with rfl | rfl | rfl | rfl | rfl | rfl | rfl
    all_goals exact ⟨rfl, _, rfl, fun rest => rfl⟩
  · simp only [List.mem_cons, List.not_mem_nil, or_false, not_or] at letter
    obtain ⟨quote, slash, line, back, tab, bell, page⟩ := letter
    by_cases control : c.toNat < 0x20
    · right
      refine ⟨by simp [isPlain, control], 'u' :: '0' :: '0' :: Nat.digitChar (c.toNat / 16) ::
        [Nat.digitChar (c.toNat % 16)], ?_, fun rest => escape_code control⟩
      simp only [escapeChar, quote, slash, line, back, tab, bell, page, control, ↓reduceIte]
    · left
      refine ⟨by simp [isPlain, quote, slash]; omega, ?_⟩
      simp only [escapeChar, quote, slash, line, back, tab, bell, page, control, ↓reduceIte]

theorem stringStep_of_plain (found : List Char) (plain : isPlain c = true) :
    stringStep found (c :: rest) = stringStep (found ++ [c]) rest := by
  simp only [stringStep, get_bind, List.takeWhile_cons_of_pos plain,
    List.dropWhile_cons_of_pos plain, List.append_assoc, List.singleton_append]
  generalize rest.dropWhile isPlain = tail
  split <;> rfl

theorem stringStep_of_escape {code : List Char} (found : List Char)
    (read : escape (code ++ rest) = .ok (c, rest)) :
    stringStep found ('\\' :: (code ++ rest)) = .ok (.inl (found ++ [c]), rest) := by
  have marked : isPlain '\\' = false := rfl
  rw [stringStep, get_bind, List.takeWhile_cons_of_neg (by simp [marked]),
    List.dropWhile_cons_of_neg (by simp [marked]), List.append_nil]
  simp only [set_bind, bind_of_ok _ read]
  rfl

theorem stringStep_of_quote (found : List Char) :
    stringStep found ('"' :: rest) = .ok (.inr found, rest) := by
  have marked : isPlain '"' = false := rfl
  rw [stringStep, get_bind, List.takeWhile_cons_of_neg (by simp [marked]),
    List.dropWhile_cons_of_neg (by simp [marked]), List.append_nil]
  rfl

/-- The loop over the characters of a string, by induction on them: a plain one is taken in the
step of the next, and every other takes a step of its own. -/
theorem loopWithin_stringStep (chars found : List Char) {fuel : Nat}
    (enough : chars.length < fuel) :
    loopWithin stringStep fuel found (chars.flatMap escapeChar ++ '"' :: rest) =
      .ok (found ++ chars, rest) := by
  induction chars generalizing found fuel with
  | nil =>
      obtain ⟨fuel, rfl⟩ := Nat.exists_eq_add_of_lt enough
      rw [List.append_nil]
      exact loopWithin_of_done (stringStep_of_quote found)
  | cons c chars ih =>
      rw [List.length_cons] at enough
      obtain ⟨fuel, rfl⟩ := Nat.exists_eq_add_of_lt enough
      rw [List.flatMap_cons, List.append_assoc, List.append_cons found c chars]
      rcases escapeChar_cases c with ⟨plain, same⟩ | ⟨_, code, escaped, read⟩
      · rw [same, List.singleton_append, loopWithin_congr (stringStep_of_plain found plain)]
        exact ih _ (by omega)
      · rw [escaped, List.cons_append, loopWithin_of_more (stringStep_of_escape found (read _))]
        exact ih _ (by omega)

theorem length_le_flatMap_escapeChar (chars : List Char) :
    chars.length ≤ (chars.flatMap escapeChar).length := by
  induction chars with
  | nil => exact le_rfl
  | cons c chars ih =>
      have one : 1 ≤ (escapeChar c).length := by
        rcases escapeChar_cases c with ⟨_, same⟩ | ⟨_, code, escaped, _⟩
        · rw [same, List.length_singleton]
        · rw [escaped, List.length_cons]
          omega
      rw [List.flatMap_cons, List.length_append, List.length_cons]
      omega

/-- **Strings.** What is written after the opening quote is read back. -/
theorem string_of_stringText (text : String) :
    string (text.toList.flatMap escapeChar ++ '"' :: rest) = .ok (text, rest) := by
  have enough := length_le_flatMap_escapeChar text.toList
  have read : stringChars (text.toList.flatMap escapeChar ++ '"' :: rest) =
      .ok (text.toList, rest) := by
    apply loopWithin_stringStep
    rw [List.length_append]
    omega
  rw [string, map_of_ok _ read, String.ofList_toList]

end Strings

end Scan
end Json
end Toolsmith
