import Mathlib
import Toolsmith.Source.Literal
import Toolsmith.Source.Quote

/-! # String literals denote their text

A text placed in generated code is written as a string literal, with escapes where a character
cannot stand for itself. The literal is read back as that text (`stringValue?_literal`), also where
a null character is followed by an octal digit and is therefore written in another way. The argument
follows the automaton that reads literals: each character of the text takes it from its plain state
to its plain state, and has it denote that character.
-/

namespace Toolsmith
namespace Source

open Text

theorem scanQuoted_silent {kind : QuotedKind} {state : QuotedState} {c : Char} (next : QuotedState)
    (moves : state.next kind '"' c = .advance next none) (rest : List Char) :
    scanQuoted kind state (c :: rest) = scanQuoted kind next rest := by
  simp only [scanQuoted, moves]
  cases scanQuoted kind next rest with
  | none => rfl
  | some read => rfl

theorem scanQuoted_denoting {kind : QuotedKind} {state next : QuotedState} {c : Char}
    (denoted : Char) (moves : state.next kind '"' c = .advance next (some denoted))
    (rest : List Char) :
    scanQuoted kind state (c :: rest) =
      (scanQuoted kind next rest).map fun (value, tail) => (denoted :: value, tail) := by
  rw [scanQuoted, moves]
  rfl

theorem hexDigit?_digitChar {digit : Nat} (small : digit < 16) :
    hexDigit? digit.digitChar = some digit := by
  interval_cases digit <;> decide

theorem scanQuoted_hexDigit {digit count value : Nat} (small : digit < 16) (room : count < 6)
    (rest : List Char) :
    scanQuoted .text (.unicodeDigits count value) (digit.digitChar :: rest) =
      scanQuoted .text (.unicodeDigits (count + 1) (16 * value + digit)) rest := by
  apply scanQuoted_silent
  have room : (count == 6) = false := beq_eq_false_iff_ne.mpr room.ne
  simp only [QuotedState.next, hexDigit?_digitChar small, room, Bool.false_eq_true, ↓reduceIte]

/-- The digits of a code point are read as its number. -/
theorem scanQuoted_toDigits {code : Nat} (short : (Nat.toDigits 16 code).length ≤ 6)
    (rest : List Char) :
    scanQuoted .text (.unicodeDigits 0 0) (Nat.toDigits 16 code ++ rest) =
      scanQuoted .text (.unicodeDigits (Nat.toDigits 16 code).length code) rest := by
  induction code using Nat.strong_induction_on generalizing rest with
  | _ code ih =>
      by_cases single : code < 16
      · rw [Nat.toDigits_of_lt_base single, List.singleton_append,
          scanQuoted_hexDigit single (by decide)]
        simp only [Nat.mul_zero, Nat.zero_add, List.length_singleton]
      · have split := Nat.toDigits_of_base_le (show 1 < 16 by decide) (not_lt.mp single)
        rw [split, List.length_append, List.length_singleton] at short
        have smaller : code / 16 < code := by omega
        rw [split, List.append_assoc, ih _ smaller (by omega), List.singleton_append,
          scanQuoted_hexDigit (Nat.mod_lt _ (by decide)) (by omega), Nat.div_add_mod,
          List.length_append, List.length_singleton]

theorem scalar?_toNat (c : Char) : scalar? c.toNat = some c := by
  have valid : c.toNat < 0xd800 ∨ 0xdfff < c.toNat ∧ c.toNat < 0x110000 := c.valid
  have admitted : (decide (c.toNat < 0xd800) ||
      decide (0xdfff < c.toNat) && decide (c.toNat < 0x110000)) = true := by
    simpa only [Bool.or_eq_true, Bool.and_eq_true, decide_eq_true_eq] using valid
  simp only [scalar?, admitted, ↓reduceIte, Char.ofNat_toNat]

/-- An escape by code stands for its character. -/
theorem scanQuoted_codeEscape (c : Char) (rest : List Char) :
    scanQuoted .text .plain (codeEscape c ++ rest) =
      (scanQuoted .text .plain rest).map fun (value, tail) => (c :: value, tail) := by
  have short : (Nat.toDigits 16 c.toNat).length ≤ 6 := by
    rw [Nat.length_toDigits_le_iff (by decide) (by decide)]
    have valid : c.toNat < 0xd800 ∨ 0xdfff < c.toNat ∧ c.toNat < 0x110000 := c.valid
    omega
  have some_digit : 0 < (Nat.toDigits 16 c.toNat).length := Nat.length_toDigits_pos
  have closing :
    QuotedState.next .text '"' (.unicodeDigits (Nat.toDigits 16 c.toNat).length c.toNat)
      '\x7d' = .advance .plain (some c) := by
    have none : hexDigit? '\x7d' = none := by decide
    simp [QuotedState.next, none, some_digit, scalar?_toNat]
  simp only [codeEscape, List.append_assoc, List.cons_append, List.nil_append]
  rw [scanQuoted_silent .escape rfl, scanQuoted_silent .unicodeOpen rfl,
    scanQuoted_silent (.unicodeDigits 0 0) rfl, scanQuoted_toDigits short,
    scanQuoted_denoting c closing]

/-- **One character.** A character as it is written between double quotes denotes itself. -/
theorem scanQuoted_quotedChar (c : Char) (rest : List Char) :
    scanQuoted .text .plain (quotedChar c ++ rest) =
      (scanQuoted .text .plain rest).map fun (value, tail) => (c :: value, tail) := by
  -- A character that is named after a backslash is read in two moves.
  have escaped {letter : Char}
      (denotes : QuotedState.next .text '"' .escape letter = .advance .plain (some c)) :
      scanQuoted .text .plain (['\\', letter] ++ rest) =
        (scanQuoted .text .plain rest).map fun (value, tail) => (c :: value, tail) := by
    rw [List.cons_append, List.cons_append, List.nil_append,
      scanQuoted_silent .escape rfl, scanQuoted_denoting c denotes]
  unfold quotedChar
  by_cases newline : c = '\n'
  · subst newline
    exact escaped rfl
  by_cases carriage : c = '\r'
  · subst carriage
    exact escaped rfl
  by_cases tab : c = '\t'
  · subst tab
    exact escaped rfl
  by_cases quote : c = '"'
  · subst quote
    exact escaped rfl
  by_cases backslash : c = '\\'
  · subst backslash
    exact escaped rfl
  by_cases null : c.toNat = 0
  · have same : c = Char.ofNat 0 := by rw [← null, Char.ofNat_toNat]
    subst same
    exact escaped rfl
  simp only [beq_eq_false_iff_ne.mpr newline, beq_eq_false_iff_ne.mpr carriage,
    beq_eq_false_iff_ne.mpr tab, beq_eq_false_iff_ne.mpr quote, beq_eq_false_iff_ne.mpr backslash,
    beq_eq_false_iff_ne.mpr null, Bool.false_eq_true, ↓reduceIte]
  split
  · exact scanQuoted_codeEscape c rest
  · apply scanQuoted_denoting
    simp only [QuotedState.next, QuotedState.plainMove, beq_eq_false_iff_ne.mpr quote,
      beq_eq_false_iff_ne.mpr carriage, beq_eq_false_iff_ne.mpr backslash, QuotedKind.admits,
      Bool.false_eq_true, ↓reduceIte]

/-- What is written between the quotes stands for the text, up to the closing quote. -/
theorem scanQuoted_literalBody (text rest : List Char) :
    scanQuoted .text .plain (literalBody text ++ '"' :: rest) = some (text, rest) := by
  induction text with
  | nil => rfl
  | cons c text ih =>
      rw [literalBody]
      split
      · rename_i null
        have zero : c.toNat = 0 := beq_iff_eq.mp (Bool.and_eq_true_iff.mp null).1
        have same : c = Char.ofNat 0 := by rw [← zero, Char.ofNat_toNat]
        subst same
        have null_again : QuotedState.next .text '"' (.hexSecond 0) '0' =
            .advance .plain (some (Char.ofNat 0)) := rfl
        simp only [List.cons_append, List.nil_append]
        rw [scanQuoted_silent .escape rfl, scanQuoted_silent .hexFirst rfl,
          scanQuoted_silent (.hexSecond 0) rfl,
          scanQuoted_denoting (Char.ofNat 0) null_again, ih]
        rfl
      · rw [List.append_assoc, scanQuoted_quotedChar, ih]
        rfl

/-- **Literals denote their text.** -/
theorem stringValue?_literal (text : String) : stringValue? (literal text) = some text := by
  unfold stringValue? literal
  rw [String.toList_ofList]
  change (scanQuoted .text .plain (literalBody text.toList ++ ['"'])).map _ = _
  rw [scanQuoted_literalBody]
  simp only [Option.map_some, String.ofList_toList]

end Source
end Toolsmith
