import Mathlib
import Toolsmith.Proofs.Json.Numeral
import Toolsmith.Proofs.Json.Structure

/-! # Skipping what could be read

A value that is only skipped is checked less than one that is read: numbers may be of any size,
surrogates need not come in pairs, and nesting has no limit. In the other direction nothing is lost:
whatever is read as a value is skipped up to the same place (`Scan.skipValue_of_value`). A list or
an object is skipped by rounds of one loop, with a stack of what is open, so the induction is over
what remains to be done once the value is behind (`Scan.Leaves`).
-/

namespace Toolsmith
namespace Json
namespace Scan

section Rounds

variable {α σ : Type} {step : σ → Scan (σ ⊕ α)} {state later : σ} {value : α}
  {rest middle after : List Char}

/-- The rounds from a state on end with a value, however much fuel there is beyond the text. -/
def Comes (step : σ → Scan (σ ⊕ α)) (state : σ) (rest : List Char) (value : α)
    (after : List Char) : Prop :=
  ∀ fuel, rest.length < fuel → loopWithin step fuel state rest = .ok (value, after)

theorem Comes.of_done (read : step state rest = .ok (.inr value, after)) :
    Comes step state rest value after := by
  intro fuel enough
  obtain ⟨fuel, rfl⟩ := Nat.exists_eq_add_of_lt enough
  exact loopWithin_of_done read

theorem Comes.of_more (read : step state rest = .ok (.inl later, middle))
    (shorter : middle.length < rest.length) (others : Comes step later middle value after) :
    Comes step state rest value after := by
  intro fuel enough
  obtain ⟨fuel, rfl⟩ := Nat.exists_eq_add_of_lt enough
  rw [loopWithin_of_more read]
  exact others _ (by omega)

theorem Comes.of_same (same : step state rest = step later middle)
    (shorter : middle.length ≤ rest.length) (others : Comes step later middle value after) :
    Comes step state rest value after := by
  intro fuel enough
  obtain ⟨fuel, rfl⟩ := Nat.exists_eq_add_of_lt enough
  rw [loopWithin_congr same]
  exact others _ (by omega)

theorem Comes.loop (rounds : Comes step state rest value after) :
    loop step state rest = .ok (value, after) :=
  rounds _ (Nat.lt_succ_self _)

end Rounds

section Numbers

variable {rest after : List Char}

theorem length_dropWhile_le (kind : Char → Bool) (text : List Char) :
    (text.dropWhile kind).length ≤ text.length :=
  (List.dropWhile_suffix kind).length_le

theorem digits_eq : digits rest = .ok (rest.takeWhile isDigit, rest.dropWhile isDigit) :=
  rfl

theorem stopUnless_ne {α : Type} {ended other : Fault} {found : α} :
    (stopUnless ended other : Scan α) rest ≠ .ok (found, after) := by
  unfold stopUnless
  split <;> nofun

theorem skipWhole_of_wholeDigits {found : List Char}
    (read : wholeDigits rest = .ok (found, after)) :
    skipWhole rest = .ok ((), after) ∧ after.length < rest.length := by
  unfold wholeDigits at read
  unfold skipWhole
  rw [get_bind] at read ⊢
  split at read
  · rename_i rest
    rw [set_bind] at read ⊢
    split at read
    · cases read
    · rename_i ended
      cases read
      simp only [ended]
      exact ⟨rfl, Nat.lt_succ_self _⟩
  · rename_i c tail zero
    split at read
    · rename_i digit
      cases read
      rw [if_pos digit]
      refine ⟨rfl, ?_⟩
      rw [List.dropWhile_cons_of_pos digit]
      exact Nat.lt_succ_of_le (length_dropWhile_le isDigit tail)
    · cases read
  · cases read

/-- A fraction that can be read is skipped to the same place. -/
theorem skipFraction_of_fractionDigits {found : Option (List Char)}
    (read : fractionDigits rest = .ok (found, after)) :
    skipFraction rest = .ok ((), after) ∧ after.length ≤ rest.length := by
  unfold fractionDigits at read
  unfold skipFraction
  rw [get_bind] at read ⊢
  split at read
  · rename_i rest
    have shorter := length_dropWhile_le isDigit rest
    rw [set_bind, bind_of_ok _ digits_eq] at read
    simp only [List.head?_cons, ↓reduceIte]
    rw [bind_of_ok _ (skip_cons '.'), bind_of_ok _ digits_eq]
    split at read
    · exact absurd read stopUnless_ne
    · rename_i some
      cases read
      rw [if_neg some]
      exact ⟨rfl, Nat.le_succ_of_le shorter⟩
  · rename_i other
    have absent : rest.head? ≠ some '.' := by
      intro seen
      obtain ⟨tail, rfl⟩ := List.head?_eq_some_iff.mp seen
      exact other tail rfl
    cases read
    rw [if_neg absent]
    exact ⟨rfl, le_rfl⟩

/-- Digits of which one must stand next are there when some are found. -/
theorem skipDigits_of_digits {α : Type} {f : List Char → α} {found : α}
    (read : (do
      if (← get).head?.any isDigit then return f (← digits)
      else stopUnless .valueEnded .invalidNumber : Scan α) rest = .ok (found, after)) :
    (do if (← digits).isEmpty then stopAt .invalidNumber : Scan Unit) rest = .ok ((), after) ∧
      after.length ≤ rest.length := by
  rw [get_bind] at read
  split at read
  · rename_i digit
    cases rest with
    | nil => cases digit
    | cons c tail =>
      have digit : isDigit c = true := digit
      cases read
      rw [bind_of_ok _ digits_eq, List.takeWhile_cons_of_pos digit]
      exact ⟨rfl, length_dropWhile_le isDigit _⟩
  · exact absurd read stopUnless_ne

theorem skipExponent_of_exponentDigits {found : Option (Bool × List Char)}
    (read : exponentDigits rest = .ok (found, after)) :
    skipExponent rest = .ok ((), after) ∧ after.length ≤ rest.length := by
  unfold exponentDigits at read
  unfold skipExponent
  rw [get_bind] at read ⊢
  cases rest with
  | nil =>
    cases read
    exact ⟨rfl, le_rfl⟩
  | cons mark tail =>
    simp only [List.head?_cons, Option.some.injEq] at read ⊢
    by_cases marked : mark = 'e' ∨ mark = 'E'
    · simp only [if_pos marked] at read ⊢
      rw [bind_of_ok _ (skip_cons mark), get_bind] at read ⊢
      split at read
      · rename_i signed
        obtain ⟨_, middle, skips, read⟩ := exists_of_bind read
        cases skips
        obtain ⟨skipped, shorter⟩ := skipDigits_of_digits read
        rw [if_pos signed]
        rw [List.length_drop] at shorter
        exact ⟨skipped, by rw [List.length_cons]; omega⟩
      · rename_i signed
        obtain ⟨skipped, shorter⟩ := skipDigits_of_digits read
        rw [if_neg signed]
        exact ⟨skipped, Nat.le_succ_of_le shorter⟩
    · rw [if_neg marked] at read ⊢
      cases read
      exact ⟨rfl, le_rfl⟩

/-- Making a number of its digits reads nothing further. -/
theorem float_state {negative : Bool} {whole fraction : List Char}
    {exponent : Option (Bool × List Char)} {found : Number}
    (read : float negative whole fraction exponent rest = .ok (found, after)) : after = rest := by
  unfold float at read
  generalize exponent.getD (false, []) = power at read
  obtain ⟨down, chars⟩ := power
  dsimp -zeta only at read
  extract_lets size power finish at read
  have kept (given : Unit) (read : finish given rest = .ok (found, after)) : after = rest := by
    simp only [finish] at read
    cases estimated : Binary64.estimate? negative ⟨(fitDecimal whole fraction).digits, power⟩ with
    | none =>
      rw [estimated] at read
      cases read
    | some value =>
      rw [estimated] at read
      cases read
      rfl
  split at read
  · generalize splitLimit [] chars = split at read
    cases split with
    | none => exact kept () read
    | some beyond => cases read
  · exact kept () read

/-- A number that can be read is skipped to the same place, and is not empty. -/
theorem skipNumber_of_number {negative : Bool} {found : Number}
    (read : number negative rest = .ok (found, after)) :
    skipNumber rest = .ok ((), after) ∧ after.length < rest.length := by
  obtain ⟨whole, past, wholes, read⟩ := exists_of_bind read
  obtain ⟨fraction, beyond, fractions, read⟩ := exists_of_bind read
  obtain ⟨exponent, last, exponents, read⟩ := exists_of_bind read
  obtain ⟨first, shorter⟩ := skipWhole_of_wholeDigits wholes
  obtain ⟨second, less⟩ := skipFraction_of_fractionDigits fractions
  obtain ⟨third, least⟩ := skipExponent_of_exponentDigits exponents
  have same : after = last := by
    extract_lets value at read
    split at read
    · split at read
      · split at read
        · cases read
          rfl
        · exact float_state read
      · split at read
        · cases read
          rfl
        · exact float_state read
    · exact float_state read
  subst same
  rw [skipNumber, bind_of_ok _ first, bind_of_ok _ second]
  exact ⟨third, by omega⟩

end Numbers

section Strings

variable {text rest after : List Char}

theorem hexEscape_state {code : Nat} (read : hexEscape rest = .ok (code, after)) :
    after.length ≤ rest.length := by
  unfold hexEscape at read
  rw [get_bind] at read
  split at read
  · cases read
  · split at read
    · cases read
      rw [List.length_drop]
      omega
    · cases read

theorem pairMark_state {mark : Char} (read : pairMark mark rest = .ok ((), after)) :
    rest = mark :: after := by
  unfold pairMark at read
  rw [get_bind] at read
  split at read
  · cases read
  · split at read
    · rename_i same
      cases read
      rw [same]
    · cases read

/-- An escape by a letter that can be read is skipped to the same place. -/
theorem skipEscape_of_letter {letter c : Char} (other : letter ≠ 'u')
    (read : escape (letter :: rest) = .ok (c, after)) :
    skipEscape (letter :: rest) = .ok ((), after) := by
  have dropped : (discard escape : Scan Unit) (letter :: rest) = .ok ((), after) :=
    map_of_ok _ read
  unfold skipEscape
  rw [get_bind]
  generalize whole : letter :: rest = text at dropped ⊢
  split
  · exact absurd (List.cons.inj whole).1 other
  · exact dropped

/-- An escape that is read is skipped at once, or is a pair of codes that are skipped one by one. -/
theorem skipEscape_of_escape {c : Char} (read : escape rest = .ok (c, after)) :
    (skipEscape rest = .ok ((), after) ∧ after.length < rest.length) ∨
      ∃ more, skipEscape rest = .ok ((), '\\' :: more) ∧ more.length < rest.length ∧
        skipEscape more = .ok ((), after) ∧ after.length < more.length := by
  have escaped := read
  unfold escape at read
  rw [get_bind] at read
  split at read
  · cases read
  · rename_i codes
    rw [set_bind] at read
    obtain ⟨first, middle, code, paired⟩ := exists_of_bind read
    have shorter := hexEscape_state code
    have skipped : skipEscape ('u' :: codes) = .ok ((), middle) := map_of_ok _ code
    split at paired
    · cases paired
    · split at paired
      · obtain ⟨_, marks, slash, paired⟩ := exists_of_bind paired
        obtain ⟨_, more, mark, paired⟩ := exists_of_bind paired
        obtain ⟨second, last, again, kept⟩ := exists_of_bind paired
        have shortest := hexEscape_state again
        rw [pairMark_state slash, pairMark_state mark] at skipped shorter
        rw [List.length_cons, List.length_cons] at shorter
        split at kept
        · have same : last = after := congrArg Prod.snd (Except.ok.inj kept)
          subst same
          refine .inr ⟨'u' :: more, skipped, ?_, map_of_ok _ again, Nat.lt_succ_of_le shortest⟩
          rw [List.length_cons, List.length_cons]
          omega
        · cases kept
      · cases paired
        exact .inl ⟨skipped, Nat.lt_succ_of_le shorter⟩
  · rename_i letter rest other
    refine .inl ⟨skipEscape_of_letter other escaped, ?_⟩
    generalize letterEscape? letter = meaning at read
    cases meaning with
    | none => cases read
    | some meant =>
      cases read
      exact Nat.lt_succ_self _

theorem skipStringStep_of_quote (front : text.dropWhile isPlain = '"' :: after) :
    skipStringStep () text = .ok (.inr (), after) := by
  rw [skipStringStep, get_bind, front]
  rfl

theorem skipStringStep_of_escape (front : text.dropWhile isPlain = '\\' :: rest)
    (skipped : skipEscape rest = .ok ((), after)) :
    skipStringStep () text = .ok (.inl (), after) := by
  rw [skipStringStep, get_bind, front]
  exact bind_of_ok (fun _ => (pure (.inl ()) : Scan (Unit ⊕ Unit))) skipped

/-- What the next round of a string finds: its end, or an escape. -/
theorem stringStep_cases {found : List Char} {next : List Char ⊕ List Char}
    (read : stringStep found text = .ok (next, after)) :
    (∃ chars, next = .inr chars ∧ text.dropWhile isPlain = '"' :: after) ∨
      ∃ chars rest c, next = .inl chars ∧ text.dropWhile isPlain = '\\' :: rest ∧
        escape rest = .ok (c, after) := by
  unfold stringStep at read
  rw [get_bind] at read
  generalize text.dropWhile isPlain = special at read ⊢
  split at read
  · cases read
  · cases read
    exact .inl ⟨_, rfl, rfl⟩
  · rename_i rest
    rw [set_bind] at read
    obtain ⟨c, middle, escaped, kept⟩ := exists_of_bind read
    cases kept
    exact .inr ⟨_, rest, c, rfl, rfl, escaped⟩
  · cases read

/-- The rounds of a string, by induction on those that read it. -/
theorem comes_of_string {fuel : Nat} {found chars : List Char}
    (read : loopWithin stringStep fuel found text = .ok (chars, after)) :
    Comes skipStringStep () text () after ∧ after.length < text.length := by
  induction fuel generalizing found text with
  | zero => cases read
  | succ fuel ih =>
    have long := length_dropWhile_le isPlain text
    obtain ⟨next, middle, step, read⟩ := exists_of_bind read
    rcases stringStep_cases step with ⟨_, rfl, front⟩ | ⟨_, rest, c, rfl, front, escaped⟩
    · cases read
      rw [front] at long
      exact ⟨.of_done (skipStringStep_of_quote front), long⟩
    · obtain ⟨others, shorter⟩ := ih read
      rw [front, List.length_cons] at long
      rcases skipEscape_of_escape escaped with ⟨single, less⟩ | ⟨more, first, less, second, least⟩
      · exact ⟨.of_more (skipStringStep_of_escape front single) (by omega) others, by omega⟩
      · have pair : Comes skipStringStep () ('\\' :: more) () after :=
          .of_more (skipStringStep_of_escape rfl second) (Nat.lt_succ_of_lt least) others
        refine ⟨.of_more (skipStringStep_of_escape front first) ?_ pair, by omega⟩
        rw [List.length_cons]
        omega

theorem skipString_of_string {value : String} (read : string rest = .ok (value, after)) :
    skipString rest = .ok ((), after) ∧ after.length < rest.length := by
  obtain ⟨chars, found, rfl⟩ := exists_of_map read
  obtain ⟨rounds, shorter⟩ := comes_of_string found
  exact ⟨rounds.loop, shorter⟩

end Strings

section Values

variable {frames : List Frame} {text rest tail middle after final : List Char} {depth : Nat}

/-- A value inside these frames is behind, and the rest of what they hold comes to an end. -/
def Leaves (frames : List Frame) (text final : List Char) : Prop :=
  match frames with
  | [] => text = final
  | _ :: _ => Comes skipStep (frames, .after) text () final

/-- A step behind a value comes to where the frames around it are left. -/
theorem comes_of_skipped {state : List Frame × SkipState}
    (read : skipStep state text = .ok (skipped frames, middle))
    (shorter : middle.length < text.length) (left : Leaves frames middle final) :
    Comes skipStep state text () final := by
  cases frames with
  | nil =>
    obtain rfl : middle = final := left
    exact .of_done read
  | cons frame frames => exact .of_more read shorter left

theorem skipStep_of_value {c : Char} (front : text.dropWhile isSpace = c :: tail) :
    skipStep (frames, .value) text = skipStart frames c (c :: tail) := by
  rw [skipStep, bind_of_ok _ (peek_eq text), front]
  rfl

theorem word_state {chars : List Char} (read : word chars rest = .ok ((), after)) :
    rest = chars ++ after := by
  induction chars generalizing rest with
  | nil =>
    cases read
    rfl
  | cons expected chars ih =>
    unfold word at read
    rw [get_bind] at read
    split at read
    · cases read
    · split at read
      · rename_i c rest same
        rw [set_bind] at read
        rw [ih read, same, List.cons_append]
      · cases read

/-- A value without parts. -/
theorem skipScalar_of_valueIn {c : Char} {json : Json}
    (stands : ValueIn depth (c :: tail) json after)
    (bracket : c ≠ '[') (brace : c ≠ '\x7b') :
    skipScalar c (c :: tail) = .ok ((), after) ∧ after.length < (c :: tail).length := by
  cases stands with
  | null reads =>
    refine ⟨reads, ?_⟩
    rw [word_state reads, List.length_append]
    exact Nat.lt_add_of_pos_left (by decide)
  | yes reads =>
    refine ⟨reads, ?_⟩
    rw [word_state reads, List.length_append]
    exact Nat.lt_add_of_pos_left (by decide)
  | no reads =>
    refine ⟨reads, ?_⟩
    rw [word_state reads, List.length_append]
    exact Nat.lt_add_of_pos_left (by decide)
  | string reads =>
    obtain ⟨skipped, shorter⟩ := skipString_of_string reads
    exact ⟨skipped, Nat.lt_succ_of_lt shorter⟩
  | list => contradiction
  | object => contradiction
  | negative reads =>
    obtain ⟨skipped, shorter⟩ := skipNumber_of_number reads
    exact ⟨skipped, Nat.lt_succ_of_lt shorter⟩
  | digits digit reads =>
    obtain ⟨skipped, shorter⟩ := skipNumber_of_number reads
    refine ⟨?_, shorter⟩
    unfold skipScalar
    split
    all_goals try contradiction
    rw [if_pos digit]
    exact skipped

/-- What is read as a value does not start with the end of a list. -/
theorem visible_of_value {json : Json} (read : value depth text = .ok (json, after)) :
    ∃ c tail, text.dropWhile isSpace = c :: tail ∧ c ≠ ']' := by
  have stands := valueIn_of_value read
  generalize text.dropWhile isSpace = visible at stands ⊢
  cases stands
  case digits digit _ =>
    exact ⟨_, _, rfl, ne_of_isDigit digit rfl⟩
  all_goals exact ⟨_, _, rfl, by decide⟩

section Progress

variable {first : Bool}

theorem length_lt_of_front {c : Char} (front : text.dropWhile isSpace = c :: rest) :
    rest.length < text.length := by
  have long := length_dropWhile_le isSpace text
  rw [front] at long
  exact long

theorem Separates.length_le (starts : Separates first text rest) : rest.length ≤ text.length := by
  cases starts with
  | first => exact length_dropWhile_le isSpace text
  | @comma _ blank found =>
    exact le_trans (length_dropWhile_le isSpace blank) (length_lt_of_front found).le

theorem length_lt_of_name {name : String} {quoted named : List Char}
    (starts : Separates first text ('"' :: quoted)) (names : string quoted = .ok (name, named))
    (points : named.dropWhile isSpace = ':' :: rest) : rest.length < text.length := by
  have opened := starts.length_le
  have closed := (skipString_of_string names).2
  have pointed := length_lt_of_front points
  rw [List.length_cons] at opened
  omega

/-- A reader takes at least one character. -/
def Takes (scan : Scan Json) : Prop :=
  ∀ {text after : List Char} {json : Json}, scan text = .ok (json, after) →
    after.length < text.length

variable {scan : Scan Json}

theorem ItemsIn.length_lt {items : List Json} (takes : Takes scan)
    (stand : ItemsIn scan first text items after) : after.length < text.length := by
  induction stand with
  | close ends => exact length_lt_of_front ends
  | item starts reads _ ih =>
    exact lt_of_lt_of_le (ih.trans (takes reads)) starts.length_le

theorem MembersIn.length_lt {members : List (String × Json)} (takes : Takes scan)
    (stand : MembersIn scan first text members after) : after.length < text.length := by
  induction stand with
  | close ends => exact length_lt_of_front ends
  | member starts names points reads _ ih =>
    exact (ih.trans (takes reads)).trans (length_lt_of_name starts names points)

/-- Reading a value takes at least one character. -/
theorem takes_value (depth : Nat) : Takes (value depth) := by
  induction depth using Nat.strong_induction_on with
  | _ depth inner =>
    intro text after json read
    have stands := valueIn_of_value read
    have long := length_dropWhile_le isSpace text
    generalize text.dropWhile isSpace = visible at stands long
    refine lt_of_lt_of_le ?_ long
    have whole := stands
    cases stands with
    | list stand => exact Nat.lt_succ_of_lt (stand.length_lt (inner _ (Nat.lt_succ_self _)))
    | object stand => exact Nat.lt_succ_of_lt (stand.length_lt (inner _ (Nat.lt_succ_self _)))
    | digits digit =>
      exact (skipScalar_of_valueIn whole (ne_of_isDigit digit rfl) (ne_of_isDigit digit rfl)).2
    | _ => exact (skipScalar_of_valueIn whole (by decide) (by decide)).2

end Progress

/-- Whatever a reader reads is skipped inside any frames. -/
def Skips (scan : Scan Json) : Prop :=
  ∀ {text middle : List Char} {json : Json}, scan text = .ok (json, middle) →
    ∀ {frames : List Frame} {final : List Char}, Leaves frames middle final →
      Comes skipStep (frames, .value) text () final

/-- Where the skipping of a list or an object stands, before its first part or after another. -/
def SkipState.inside (first : Bool) : SkipState := if first then .opened else .after

section Parts

variable {first : Bool}

theorem skipStep_of_bracket (front : text.dropWhile isSpace = ']' :: after) :
    skipStep (.list :: frames, SkipState.inside first) text = .ok (skipped frames, after) := by
  rw [skipStep, bind_of_ok _ (peek_eq text), front]
  cases first <;> rfl

theorem skipStep_of_brace (front : text.dropWhile isSpace = '\x7d' :: after) :
    skipStep (.object :: frames, SkipState.inside first) text = .ok (skipped frames, after) := by
  rw [skipStep, bind_of_ok _ (peek_eq text), front]
  cases first <;> rfl

theorem skipStep_of_first {c : Char} (front : text.dropWhile isSpace = c :: tail)
    (opens : c ≠ ']') :
    skipStep (.list :: frames, .opened) text = skipStart (.list :: frames) c (c :: tail) := by
  rw [skipStep, bind_of_ok _ (peek_eq text), front, List.head?_cons]
  simp only

theorem skipStep_of_comma (front : text.dropWhile isSpace = ',' :: rest) :
    skipStep (.list :: frames, .after) text = .ok (.inl (.list :: frames, .value), rest) := by
  rw [skipStep, bind_of_ok _ (peek_eq text), front]
  rfl

/-- The items of a list are skipped, and then what is around the list. -/
theorem comes_of_items {items : List Json} (skips : Skips (value depth))
    (stand : ItemsIn (value depth) first text items after) (left : Leaves frames after final) :
    Comes skipStep (.list :: frames, SkipState.inside first) text () final := by
  induction stand with
  | close ends => exact comes_of_skipped (skipStep_of_bracket ends) (length_lt_of_front ends) left
  | @item _ text start middle after json items starts reads _ ih =>
    -- Once this item is behind, the others follow inside the same list.
    have behind : Leaves (.list :: frames) middle final := ih left
    have others := skips reads behind
    cases starts with
    | first =>
      obtain ⟨c, tail, front, opens⟩ := visible_of_value reads
      refine .of_same ?_ (length_dropWhile_le isSpace text) others
      rw [skipStep_of_value front]
      rw [List.dropWhile_idempotent] at front
      exact skipStep_of_first front opens
    | @comma _ rest found =>
      obtain ⟨c, tail, front, _⟩ := visible_of_value reads
      refine .of_more (skipStep_of_comma found) (length_lt_of_front found)
        (.of_same ?_ (length_dropWhile_le isSpace rest) others)
      rw [skipStep_of_value front]
      rw [List.dropWhile_idempotent] at front
      exact skipStep_of_value front

/-- The name of a member and the colon behind it are skipped to where its value starts. -/
theorem skipName_of_string {name : String} {quoted named : List Char}
    (front : text.dropWhile isSpace = '"' :: quoted) (names : string quoted = .ok (name, named))
    (points : named.dropWhile isSpace = ':' :: rest) :
    skipName text = .ok ((), rest) := by
  have opened : skipName text = (skipString >>= fun _ => colon) quoted := by
    rw [skipName, bind_of_ok _ (peek_eq text), front]
    rfl
  rw [opened, bind_of_ok _ (skipString_of_string names).1]
  exact colon_eq_iff.mpr points

/-- The next member of an object up to its value. -/
theorem skipStep_of_name {name : String} {quoted named : List Char}
    (starts : Separates first text ('"' :: quoted)) (names : string quoted = .ok (name, named))
    (points : named.dropWhile isSpace = ':' :: rest) :
    skipStep (.object :: frames, SkipState.inside first) text =
      .ok (.inl (.object :: frames, .value), rest) := by
  have entered {text : List Char} (skipped : skipName text = .ok ((), rest)) :
      (do
        skipName
        return .inl (.object :: frames, .value) : Scan ((List Frame × SkipState) ⊕ Unit)) text =
        .ok (.inl (.object :: frames, .value), rest) :=
    bind_of_ok _ skipped
  generalize quote : '"' :: quoted = start at starts
  cases starts with
  | first =>
    have visible : (text.dropWhile isSpace).dropWhile isSpace = '"' :: quoted := by
      rw [List.dropWhile_idempotent, quote]
    have skipped := skipName_of_string visible names points
    rw [← quote] at skipped
    rw [skipStep, bind_of_ok _ (peek_eq text), ← quote]
    exact entered skipped
  | @comma _ blank found =>
    rw [skipStep, bind_of_ok _ (peek_eq text), found]
    exact entered (skipName_of_string quote.symm names points)

/-- The members of an object are skipped, and then what is around the object. -/
theorem comes_of_members {members : List (String × Json)} (skips : Skips (value depth))
    (stand : MembersIn (value depth) first text members after)
    (left : Leaves frames after final) :
    Comes skipStep (.object :: frames, SkipState.inside first) text () final := by
  induction stand with
  | close ends => exact comes_of_skipped (skipStep_of_brace ends) (length_lt_of_front ends) left
  | @member _ text quoted named start middle after name json members starts names points reads _
      ih =>
    have behind : Leaves (.object :: frames) middle final := ih left
    exact .of_more (skipStep_of_name starts names points) (length_lt_of_name starts names points)
      (skips reads behind)

end Parts

/-- A value that is neither a list nor an object is skipped, and then what is around it. -/
theorem comes_of_scalar {c : Char} {json : Json} (front : text.dropWhile isSpace = c :: tail)
    (stands : ValueIn depth (c :: tail) json middle) (bracket : c ≠ '[') (brace : c ≠ '\x7b')
    (left : Leaves frames middle final) : Comes skipStep (frames, .value) text () final := by
  obtain ⟨read, shorter⟩ := skipScalar_of_valueIn stands bracket brace
  have long := length_dropWhile_le isSpace text
  rw [front] at long
  refine comes_of_skipped ?_ (lt_of_lt_of_le shorter long) left
  rw [skipStep_of_value front, skipStart, if_neg bracket, if_neg brace, bind_of_ok _ read]
  rfl

/-- **Skipping.** What is read as a value is skipped to the same place, whatever is around it. -/
theorem skips_value (depth : Nat) : Skips (value depth) := by
  -- The frames are general, because the values inside a list or an object are skipped under one
  -- more.
  induction depth using Nat.strong_induction_on with
  | _ depth inner =>
    intro text middle json read frames final left
    have stands := valueIn_of_value read
    generalize front : text.dropWhile isSpace = visible at stands
    have whole := stands
    cases stands with
    | list stand =>
      have opens : skipStep (frames, .value) text = .ok (.inl (.list :: frames, .opened), _) :=
        skipStep_of_value front
      have items := comes_of_items (inner _ (Nat.lt_succ_self _)) stand left
      exact .of_more opens (length_lt_of_front front) items
    | object stand =>
      have opens : skipStep (frames, .value) text = .ok (.inl (.object :: frames, .opened), _) :=
        skipStep_of_value front
      have members := comes_of_members (inner _ (Nat.lt_succ_self _)) stand left
      exact .of_more opens (length_lt_of_front front) members
    | digits digit =>
      exact comes_of_scalar front whole (ne_of_isDigit digit rfl) (ne_of_isDigit digit rfl) left
    | _ => exact comes_of_scalar front whole (by decide) (by decide) left

/-- **Skipping.** What is read as a value is skipped up to the same place. -/
theorem skipValue_of_value {json : Json} (read : value depth text = .ok (json, after)) :
    skipValue text = .ok ((), after) := by
  have left : Leaves [] after after := rfl
  exact (skips_value depth read left).loop

end Values

end Scan
end Json
end Toolsmith
