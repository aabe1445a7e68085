import Mathlib
import Toolsmith.Proofs.Json.Scanning
import Toolsmith.Proofs.Number.Estimate

/-! # Numbers are read back

The text of a number is a numeral: digits, perhaps a fraction and perhaps an exponent. The reader
takes a whole numeral apart again (`Scan.number_of_float`, `Scan.number_of_integer`), and the
decimal that it finds has the value that was written, though not always the same digits. It reads an
integer back, and of a binary number an estimate, which is never too large (`Number.reread`,
`Scan.value_of_numberText`). The estimate is the number itself when its text has few digits
(`Number.reread_of_short`).
-/

namespace Toolsmith
namespace Json

/-- What may stand after a value: nothing, a comma or a closing mark. -/
def Ends (rest : List Char) : Prop := ∀ c ∈ rest.head?, c = ',' ∨ c = ']' ∨ c = '\x7d'

/-- The parts of the text of a number without its sign. -/
structure Numeral where
  whole : List Char
  fraction : Option (List Char) := none
  /-- Whether the exponent is negative, and its digits. -/
  exponent : Option (Bool × List Char) := none

namespace Numeral

def fractionText (numeral : Numeral) : List Char :=
  match numeral.fraction with
  | some digits => '.' :: digits
  | none => []

def exponentText (numeral : Numeral) : List Char :=
  match numeral.exponent with
  | some (down, digits) => 'e' :: (if down then '-' else '+') :: digits
  | none => []

def text (numeral : Numeral) : List Char :=
  numeral.whole ++ (numeral.fractionText ++ numeral.exponentText)

/-- The number that a numeral writes. -/
def decimal (numeral : Numeral) : Decimal :=
  let (down, digits) := numeral.exponent.getD (false, [])
  let power : Int := Scan.digitsValue digits
  ⟨Scan.digitsValue (numeral.whole ++ numeral.fraction.getD []),
    (if down then -power else power) - (numeral.fraction.getD []).length⟩

/-- The decimal that the reader makes of a numeral. -/
def fitted (numeral : Numeral) : Decimal :=
  let decimal := Scan.fitDecimal numeral.whole (numeral.fraction.getD [])
  let (down, digits) := numeral.exponent.getD (false, [])
  let power : Int := Scan.digitsValue digits
  ⟨decimal.digits, decimal.exponent + if down then -power else power⟩

/-- A numeral that the reader accepts. -/
structure Proper (numeral : Numeral) : Prop where
  whole_ne : numeral.whole ≠ []
  whole_digits : ∀ c ∈ numeral.whole, Scan.isDigit c = true
  whole_zero : numeral.whole.head? = some '0' → numeral.whole = ['0']
  fraction : ∀ digits ∈ numeral.fraction, digits ≠ [] ∧ ∀ c ∈ digits, Scan.isDigit c = true
  exponent : ∀ power ∈ numeral.exponent, power.2 ≠ [] ∧ (∀ c ∈ power.2, Scan.isDigit c = true) ∧
    Scan.digitsValue power.2 ≤ Scan.exponentLimit

end Numeral

/-- The text does not start with a character of a kind. -/
def Without (kind : Char → Bool) (rest : List Char) : Prop := ∀ c ∈ rest.head?, kind c = false

theorem Ends.without {rest : List Char} (kind : Char → Bool) (ends : Ends rest)
    (comma : kind ',' = false) (bracket : kind ']' = false) (brace : kind '\x7d' = false) :
    Without kind rest := by
  intro c first
  rcases ends c first with rfl | rfl | rfl
  · exact comma
  · exact bracket
  · exact brace

namespace Scan

variable {rest : List Char}

/-- Digits are read up to the first character that is none. -/
theorem digits_append {found : List Char} (all : ∀ c ∈ found, isDigit c = true)
    (ended : Without isDigit rest) : digits (found ++ rest) = .ok (found, rest) := by
  have taken : (found ++ rest).takeWhile isDigit = found := by
    rw [List.takeWhile_append_of_pos all]
    cases rest with
    | nil => simp
    | cons c rest => simp [ended c rfl]
  have dropped : (found ++ rest).dropWhile isDigit = rest := by
    rw [List.dropWhile_append_of_pos all]
    cases rest with
    | nil => rfl
    | cons c rest => simp [ended c rfl]
  rw [digits, get_bind, set_bind, taken, dropped]
  rfl

theorem any_head?_of_without {kind : Char → Bool} (ended : Without kind rest) :
    rest.head?.any kind = false := by
  cases head : rest.head? with
  | none => rfl
  | some c => exact ended c head

theorem digitsValue_eq (chars : List Char) : digitsValue chars = Nat.ofDigitChars 10 chars 0 :=
  Nat.ofDigitChars_eq_foldl.symm

theorem digitsValue_append (chars more : List Char) :
    digitsValue (chars ++ more) = 10 ^ more.length * digitsValue chars + digitsValue more := by
  rw [digitsValue_eq, digitsValue_eq, digitsValue_eq, Nat.ofDigitChars_append,
    Nat.ofDigitChars_eq_ofDigitChars_zero]

/-- Digits of a small value never reach the limit of an exponent. -/
theorem splitLimit_eq_none {taken found : List Char}
    (small : digitsValue (taken ++ found) ≤ exponentLimit) : splitLimit taken found = none := by
  induction found generalizing taken with
  | nil => rfl
  | cons c found ih =>
      rw [List.append_cons] at small
      have within : digitsValue (taken ++ [c]) ≤ exponentLimit := by
        refine le_trans ?_ small
        rw [digitsValue_append (taken ++ [c]) found]
        exact le_add_right (Nat.le_mul_of_pos_left _ (Nat.pow_pos (by decide)))
      rw [splitLimit, if_neg (not_lt.mpr within)]
      exact ih small

theorem digitsValue_cons (c : Char) (chars : List Char) :
    digitsValue (c :: chars) = 10 ^ chars.length * (c.toNat - '0'.toNat) + digitsValue chars := by
  have one : digitsValue [c] = c.toNat - '0'.toNat := by simp [digitsValue]
  rw [← List.singleton_append, digitsValue_append, one]

/-- Digits that fit 64 bits are all taken. -/
theorem fitDigits_of_lt {value : Nat} {chars : List Char}
    (fits : 10 ^ chars.length * value + digitsValue chars < 2 ^ 64) :
    fitDigits value chars = (10 ^ chars.length * value + digitsValue chars, []) := by
  induction chars generalizing value with
  | nil => simp [fitDigits, digitsValue]
  | cons c chars ih =>
      have same : 10 ^ (c :: chars).length * value + digitsValue (c :: chars) =
          10 ^ chars.length * (10 * value + (c.toNat - '0'.toNat)) + digitsValue chars := by
        rw [digitsValue_cons, List.length_cons, pow_succ]
        ring
      rw [same] at fits ⊢
      have next : 10 * value + (c.toNat - '0'.toNat) < 0x10000000000000000 := by
        refine lt_of_le_of_lt ?_ fits
        exact le_add_right (Nat.le_mul_of_pos_left _ (Nat.pow_pos (by decide)))
      rw [fitDigits, if_pos next, ih fits]

/-- Digits that are left do not make the number larger. -/
theorem fitDigits_le {value : Nat} (fits : value < 2 ^ 64) (chars : List Char) :
    (fitDigits value chars).1 < 2 ^ 64 ∧ (fitDigits value chars).2.length ≤ chars.length ∧
      (fitDigits value chars).1 * 10 ^ (fitDigits value chars).2.length ≤
        10 ^ chars.length * value + digitsValue chars := by
  induction chars generalizing value with
  | nil => exact ⟨fits, le_rfl, by simp [fitDigits, digitsValue]⟩
  | cons c chars ih =>
      by_cases next : 10 * value + (c.toNat - '0'.toNat) < 0x10000000000000000
      · obtain ⟨below, shorter, atMost⟩ := ih next
        have same : 10 ^ (c :: chars).length * value + digitsValue (c :: chars) =
            10 ^ chars.length * (10 * value + (c.toNat - '0'.toNat)) + digitsValue chars := by
          rw [digitsValue_cons, List.length_cons, pow_succ]
          ring
        rw [same, fitDigits, if_pos next]
        exact ⟨below, Nat.le_succ_of_le shorter, atMost⟩
      · rw [fitDigits, if_neg next]
        exact ⟨fits, le_rfl, by rw [Nat.mul_comm]; exact Nat.le_add_right _ _⟩

variable {numeral : Numeral} (proper : numeral.Proper)

include proper

/-- The whole part of a proper numeral is read as it is written. -/
theorem wholeDigits_of_proper (ended : Without isDigit rest) :
    wholeDigits (numeral.whole ++ rest) = .ok (numeral.whole, rest) := by
  obtain ⟨c, more, split⟩ := List.exists_cons_of_ne_nil proper.whole_ne
  have all := proper.whole_digits
  have zero := proper.whole_zero
  rw [split] at all zero ⊢
  by_cases leading : c = '0'
  · subst leading
    obtain rfl := List.cons.inj (zero rfl) |>.2
    change (if rest.head?.any isDigit then _ else _ : Scan (List Char)) rest = _
    rw [any_head?_of_without ended]
    rfl
  · have digit : isDigit c = true := all c (List.mem_cons_self ..)
    have other : wholeDigits (c :: more ++ rest) =
        (if isDigit c then digits else stopAt .invalidNumber) (c :: more ++ rest) := by
      rw [wholeDigits, get_bind]
      simp only [List.cons_append]
    rw [other, if_pos digit, digits_append all ended]

theorem fractionDigits_of_proper (ended : Without (fun c => isDigit c || c == '.') rest) :
    fractionDigits (numeral.fractionText ++ rest) = .ok (numeral.fraction, rest) := by
  unfold Numeral.fractionText
  cases given : numeral.fraction with
  | none =>
      rw [fractionDigits, get_bind, List.nil_append]
      split
      · have := ended '.' rfl
        contradiction
      · rfl
  | some found =>
      obtain ⟨nonempty, all⟩ := proper.fraction found given
      have read := digits_append all (fun c first => (Bool.or_eq_false_iff.mp (ended c first)).1)
      have here : found.isEmpty = false := by simpa using nonempty
      change (digits >>= fun found => if found.isEmpty then stopUnless .valueEnded .invalidNumber
        else pure (some found) : Scan (Option (List Char))) (found ++ rest) = _
      rw [bind_of_ok _ read, here]
      rfl

/-- The exponent of a proper numeral is read as it is written. -/
theorem exponentDigits_of_proper
    (ended : Without (fun c => isDigit c || c == 'e' || c == 'E') rest) :
    exponentDigits (numeral.exponentText ++ rest) = .ok (numeral.exponent, rest) := by
  have noDigit : Without isDigit rest := fun c first => by
    have := ended c first
    simp only [Bool.or_eq_false_iff] at this
    exact this.1.1
  unfold Numeral.exponentText
  cases given : numeral.exponent with
  | none =>
      rw [exponentDigits, get_bind, List.nil_append]
      cases head : rest.head? with
      | none => rfl
      | some c =>
          have := ended c head
          simp only [Bool.or_eq_false_iff, beq_eq_false_iff_ne] at this
          simp only [this.1.2, this.2, or_self, ↓reduceIte]
          rfl
  | some found =>
      obtain ⟨down, found⟩ := found
      obtain ⟨nonempty, all, _⟩ := proper.exponent _ given
      obtain ⟨c, more, rfl⟩ := List.exists_cons_of_ne_nil nonempty
      have digit : isDigit c = true := all c (List.mem_cons_self ..)
      have read := digits_append all noDigit
      have there : (c :: more ++ rest).head?.any isDigit = true := digit
      cases down with
      | true =>
          change (if (c :: more ++ rest).head?.any isDigit then _ else _ : Scan _)
            (c :: more ++ rest) = _
          rw [if_pos there, bind_of_ok _ read]
          rfl
      | false =>
          change (if (c :: more ++ rest).head?.any isDigit then _ else _ : Scan _)
            (c :: more ++ rest) = _
          rw [if_pos there, bind_of_ok _ read]
          rfl

/-- The parts of a numeral, as they are found in its text. -/
theorem number_text (negative : Bool) (ends : Ends rest) :
    number negative (numeral.text ++ rest) =
      (if numeral.fraction.isNone ∧ numeral.exponent.isNone then
        if negative then
          if 0 < digitsValue numeral.whole ∧ digitsValue numeral.whole ≤ 0x8000000000000000 then
            pure (.integer (-digitsValue numeral.whole))
          else float negative numeral.whole (numeral.fraction.getD []) numeral.exponent
        else if digitsValue numeral.whole < 0x10000000000000000 then
          pure (.integer (digitsValue numeral.whole))
        else float negative numeral.whole (numeral.fraction.getD []) numeral.exponent
      else float negative numeral.whole (numeral.fraction.getD []) numeral.exponent :
        Scan Number) rest := by
  -- Each part ends where it does because of what follows it, so they are fixed from the last on.
  have afterExponent : Without (fun c => isDigit c || c == 'e' || c == 'E') rest :=
    ends.without _ rfl rfl rfl
  have afterFraction : Without (fun c => isDigit c || c == '.') (numeral.exponentText ++ rest) := by
    unfold Numeral.exponentText
    split
    · rintro _ ⟨⟩
      rfl
    · exact ends.without _ rfl rfl rfl
  have afterWhole :
      Without isDigit (numeral.fractionText ++ (numeral.exponentText ++ rest)) := by
    unfold Numeral.fractionText
    split
    · rintro _ ⟨⟩
      rfl
    · intro c first
      exact (Bool.or_eq_false_iff.mp (afterFraction c first)).1
  rw [number, Numeral.text, List.append_assoc, List.append_assoc,
    bind_of_ok _ (wholeDigits_of_proper proper afterWhole),
    bind_of_ok _ (fractionDigits_of_proper proper afterFraction),
    bind_of_ok _ (exponentDigits_of_proper proper afterExponent)]

/-- A numeral with a point or an exponent is read as an estimate. -/
theorem number_of_float {negative : Bool} {x : Binary64} (ends : Ends rest)
    (marked : numeral.fraction ≠ none ∨ numeral.exponent ≠ none)
    (estimated : Binary64.estimate? negative numeral.fitted = some x) :
    number negative (numeral.text ++ rest) = .ok (.float x, rest) := by
  have float_eq : float negative numeral.whole (numeral.fraction.getD []) numeral.exponent rest =
      .ok (.float x, rest) := by
    have small : splitLimit [] (numeral.exponent.getD (false, [])).2 = none := by
      apply splitLimit_eq_none
      rw [List.nil_append]
      cases given : numeral.exponent with
      | none => exact Nat.zero_le _
      | some power => exact (proper.exponent power given).2.2
    unfold Numeral.fitted at estimated
    unfold float
    generalize numeral.exponent.getD (false, []) = power at small estimated ⊢
    obtain ⟨down, found⟩ := power
    simp only at small estimated
    simp only [small, estimated, ite_self]
    rfl
  rw [number_text proper negative ends, if_neg, float_eq]
  rintro ⟨noFraction, noExponent⟩
  rcases marked with some | some
  · exact some (Option.isNone_iff_eq_none.mp noFraction)
  · exact some (Option.isNone_iff_eq_none.mp noExponent)

end Scan

section Digits

variable (n : Nat)

theorem natText_ne_nil : natText n ≠ [] := Nat.toDigits_ne_nil

theorem isDigit_of_mem_natText : ∀ c ∈ natText n, Scan.isDigit c = true := by
  intro c written
  exact Nat.isDigit_of_mem_toDigits (by decide) (by decide) written

theorem digitsValue_natText : Scan.digitsValue (natText n) = n := by
  rw [Scan.digitsValue_eq]
  exact Nat.ofDigitChars_ten_toDigits

variable {n}

theorem head?_natText (positive : 0 < n) : (natText n).head? ≠ some '0' := by
  induction n using Nat.strong_induction_on with
  | h n ih =>
      rw [natText, Nat.toDigits_eq_if (by decide)]
      split_ifs with short
      · interval_cases n <;> decide
      · rw [List.head?_append_of_ne_nil _ Nat.toDigits_ne_nil]
        exact ih (n / 10) (by omega) (by omega)

theorem natText_of_head?_zero (zero : (natText n).head? = some '0') : natText n = ['0'] := by
  rcases Nat.eq_zero_or_pos n with rfl | positive
  · rfl
  · exact absurd zero (head?_natText positive)

theorem isDigit_of_mem_replicate (count : Nat) :
    ∀ c ∈ List.replicate count '0', Scan.isDigit c = true := by
  intro c written
  rw [List.eq_of_mem_replicate written]
  rfl

theorem digitsValue_replicate (count : Nat) :
    Scan.digitsValue (List.replicate count '0') = 0 := by
  rw [Scan.digitsValue_eq, Nat.ofDigitChars_replicate_zero, Nat.mul_zero]

end Digits

namespace Numeral

/-- Digits of a positive number. -/
structure Significant (digits : List Char) : Prop where
  long : 0 < digits.length
  all : ∀ c ∈ digits, Scan.isDigit c = true
  leading : digits.head? ≠ some '0'

theorem significant_natText {n : Nat} (positive : 0 < n) : Significant (natText n) where
  long := Nat.length_toDigits_pos
  all := isDigit_of_mem_natText n
  leading := head?_natText positive

section Shapes

variable (digits : List Char)

/-- Digits before the point, with zeros up to it. -/
def padded (zeros : Nat) : Numeral where
  whole := digits ++ List.replicate zeros '0'
  fraction := some ['0']

/-- Digits around the point. -/
def pointed (point : Nat) : Numeral where
  whole := digits.take point
  fraction := some (digits.drop point)

/-- Digits behind the point, with zeros down to them. -/
def fractional (zeros : Nat) : Numeral where
  whole := ['0']
  fraction := some (List.replicate zeros '0' ++ digits)

/-- Digits with an exponent. -/
def scientific (power : Int) : Numeral where
  whole := digits.take 1
  fraction := if (digits.drop 1).isEmpty then none else some (digits.drop 1)
  exponent := some (!decide (0 ≤ power), natText power.natAbs)

variable {digits} (significant : Significant digits)

include significant

theorem Significant.take {count : Nat} (some : 0 < count) : Significant (digits.take count) where
  long := by
    have := significant.long
    rw [List.length_take]
    omega
  all c written := significant.all c (List.mem_of_mem_take written)
  leading := by
    rw [List.head?_take, if_neg some.ne']
    exact significant.leading

theorem proper_padded (zeros : Nat) : (padded digits zeros).Proper := by
  have nonempty := List.ne_nil_of_length_pos significant.long
  refine ⟨List.append_ne_nil_of_left_ne_nil nonempty _, ?_, ?_, ?_, nofun⟩
  · intro c written
    exact (List.mem_append.mp written).elim (significant.all c) (isDigit_of_mem_replicate _ c)
  · intro zero
    rw [padded, List.head?_append_of_ne_nil _ nonempty] at zero
    exact absurd zero significant.leading
  · rintro _ ⟨⟩
    exact ⟨by simp, isDigit_of_mem_replicate 1⟩

theorem proper_pointed {point : Nat} (some : 0 < point) (more : point < digits.length) :
    (pointed digits point).Proper := by
  have taken := significant.take some
  refine ⟨List.ne_nil_of_length_pos taken.long, taken.all,
    fun zero => absurd zero taken.leading, ?_, nofun⟩
  rintro _ ⟨⟩
  refine ⟨List.ne_nil_of_length_pos ?_, fun c written =>
    significant.all c (List.mem_of_mem_drop written)⟩
  rw [List.length_drop]
  omega

theorem proper_fractional (zeros : Nat) : (fractional digits zeros).Proper := by
  refine ⟨by simp [fractional], isDigit_of_mem_replicate 1, fun _ => rfl, ?_, nofun⟩
  rintro _ ⟨⟩
  refine ⟨List.append_ne_nil_of_right_ne_nil _ (List.ne_nil_of_length_pos significant.long), ?_⟩
  intro c written
  exact (List.mem_append.mp written).elim (isDigit_of_mem_replicate _ c) (significant.all c)

theorem proper_scientific {power : Int} (small : power.natAbs ≤ Scan.exponentLimit) :
    (scientific digits power).Proper := by
  have taken := significant.take Nat.one_pos
  refine ⟨List.ne_nil_of_length_pos taken.long, taken.all,
    fun zero => absurd zero taken.leading, ?_, ?_⟩
  · intro fraction given
    simp only [scientific] at given
    split_ifs at given with short
    · contradiction
    · cases given
      exact ⟨by simpa using short,
        fun c written => significant.all c (List.mem_of_mem_drop written)⟩
  · rintro _ ⟨⟩
    exact ⟨natText_ne_nil _, isDigit_of_mem_natText _, (digitsValue_natText _).trans_le small⟩

end Shapes

section Values

variable (digits : List Char)

theorem decimal_padded (zeros : Nat) :
    (padded digits zeros).decimal = ⟨10 ^ (zeros + 1) * Scan.digitsValue digits, -1⟩ := by
  have tail : (padded digits zeros).whole ++ (padded digits zeros).fraction.getD [] =
      digits ++ List.replicate (zeros + 1) '0' := by
    simp [padded, List.replicate_succ']
  simp only [decimal, tail, Scan.digitsValue_append, digitsValue_replicate, List.length_replicate]
  rfl

theorem decimal_pointed (point : Nat) :
    (pointed digits point).decimal =
      ⟨Scan.digitsValue digits, -(digits.length - point : Nat)⟩ := by
  simp [decimal, pointed, Scan.digitsValue]

/-- A fraction with zeros in front stands for its digits, moved down past the zeros. -/
theorem decimal_fractional (zeros : Nat) :
    (fractional digits zeros).decimal =
      ⟨Scan.digitsValue digits, -(zeros + digits.length : Nat)⟩ := by
  have whole : '0' :: (List.replicate zeros '0' ++ digits) =
      List.replicate (zeros + 1) '0' ++ digits := rfl
  have value : Scan.digitsValue ('0' :: (List.replicate zeros '0' ++ digits)) =
      Scan.digitsValue digits := by
    rw [whole, Scan.digitsValue_append, digitsValue_replicate, Nat.mul_zero, Nat.zero_add]
  have none : Scan.digitsValue [] = 0 := rfl
  simp [decimal, fractional, value, none]

/-- Scientific notation stands for its digits under the power, less those after the point. -/
theorem decimal_scientific (power : Int) :
    (scientific digits power).decimal =
      ⟨Scan.digitsValue digits, power - (digits.length - 1 : Nat)⟩ := by
  have fraction : (scientific digits power).fraction.getD [] = digits.drop 1 := by
    simp only [scientific]
    split_ifs with short
    · rw [List.isEmpty_iff.mp short]
      rfl
    · rfl
  have signed : (if (!decide (0 ≤ power)) = true then -(power.natAbs : Int) else power.natAbs) =
      power := by
    by_cases up : 0 ≤ power
    · simp only [up, decide_true, Bool.not_true, Bool.false_eq_true, ↓reduceIte]
      omega
    · simp only [up, decide_false, Bool.not_false, ↓reduceIte]
      omega
  simp only [decimal, fraction]
  simp only [scientific, Option.getD_some, digitsValue_natText, signed, List.take_append_drop,
    List.length_drop]

end Values

/-- The numeral of a positive decimal. -/
def ofDecimal (decimal : Decimal) : Numeral :=
  let digits := natText decimal.digits
  let point := digits.length + decimal.exponent
  if leastPlainPower ≤ point - 1 ∧ point - 1 < leastLargePower then
    if 0 ≤ decimal.exponent then padded digits decimal.exponent.toNat
    else if 0 < point then pointed digits point.toNat
    else fractional digits (-point).toNat
  else scientific digits (point - 1)

theorem text_ofDecimal (decimal : Decimal) : (ofDecimal decimal).text = decimalText decimal := by
  unfold ofDecimal decimalText
  simp only
  split_ifs
  all_goals simp_all [text, fractionText, exponentText, padded, pointed, fractional, scientific]

theorem marked_ofDecimal (decimal : Decimal) :
    (ofDecimal decimal).fraction ≠ none ∨ (ofDecimal decimal).exponent ≠ none := by
  unfold ofDecimal
  simp only
  split_ifs
  all_goals simp [padded, pointed, fractional, scientific]

/-- The numeral written for a decimal is proper, unless its exponent is beyond the limit. -/
theorem proper_ofDecimal {decimal : Decimal} (positive : 0 < decimal.digits)
    (small : ((natText decimal.digits).length + decimal.exponent - 1).natAbs ≤
      Scan.exponentLimit) :
    (ofDecimal decimal).Proper := by
  have significant := significant_natText positive
  unfold ofDecimal
  simp only
  split_ifs
  · exact proper_padded significant _
  · exact proper_pointed significant (by omega) (by omega)
  · exact proper_fractional significant _
  · exact proper_scientific significant small

/-- The digits of a numeral may be padded with zeros, but its value is the decimal's. -/
theorem value_ofDecimal (decimal : Decimal) :
    (ofDecimal decimal).decimal.value = decimal.value := by
  have digits_eq := digitsValue_natText decimal.digits
  have long : 0 < (natText decimal.digits).length := Nat.length_toDigits_pos
  unfold ofDecimal
  generalize natText decimal.digits = digits at *
  simp only
  split_ifs with plain whole inside
  · obtain ⟨zeros, whole⟩ := Int.eq_ofNat_of_zero_le whole
    rw [decimal_padded, Decimal.value, Decimal.value, digits_eq, whole]
    push_cast
    rw [pow_succ, Int.toNat_natCast, zpow_natCast]
    field_simp
  · have places : -((digits.length - (digits.length + decimal.exponent).toNat : Nat) : Int) =
        decimal.exponent := by omega
    rw [decimal_pointed, digits_eq, places]
  · have places : -(((-(digits.length + decimal.exponent)).toNat + digits.length : Nat) : Int) =
        decimal.exponent := by omega
    rw [decimal_fractional, digits_eq, places]
  · have places : (digits.length + decimal.exponent - 1 - (digits.length - 1 : Nat) : Int) =
        decimal.exponent := by omega
    rw [decimal_scientific, digits_eq, places]

end Numeral

end Json

/-- A number of the formats: an integer of 64 bits, signed when it is negative, or a binary
number. -/
def Number.Regular : Number → Prop
  | .integer value => -2 ^ 63 ≤ value ∧ value < 2 ^ 64
  | .float value => value.Regular

namespace Json

/-- The numeral of a whole number. -/
def Numeral.ofNat (n : Nat) : Numeral := { whole := natText n }

theorem Numeral.proper_ofNat (n : Nat) : (Numeral.ofNat n).Proper :=
  ⟨natText_ne_nil n, isDigit_of_mem_natText n, natText_of_head?_zero, nofun, nofun⟩

theorem Numeral.text_ofNat (n : Nat) : (Numeral.ofNat n).text = natText n :=
  List.append_nil _

/-- The numeral of zero as a binary number. -/
def Numeral.zero : Numeral := { whole := ['0'], fraction := some ['0'] }

theorem Numeral.proper_zero : Numeral.zero.Proper := by
  refine ⟨by simp [zero], isDigit_of_mem_replicate 1, fun _ => rfl, ?_, nofun⟩
  rintro _ ⟨⟩
  exact ⟨by simp, isDigit_of_mem_replicate 1⟩

/-- The numeral of a binary number without its sign. -/
def Numeral.ofFloat (x : Binary64) : Numeral :=
  if x.significand = 0 then zero else ofDecimal x.shortest

namespace Numeral

/-- A number is less than the power of ten with as many zeros as it has digits. -/
theorem digitsValue_lt {chars : List Char} (all : ∀ c ∈ chars, Scan.isDigit c = true) :
    Scan.digitsValue chars < 10 ^ chars.length := by
  induction chars with
  | nil => decide
  | cons c chars ih =>
      obtain ⟨digit, others⟩ := List.forall_mem_cons.mp all
      have small : c.toNat - '0'.toNat ≤ 9 := by
        obtain ⟨_, atMost⟩ := Bool.and_eq_true_iff.mp digit
        have atMost : c.toNat ≤ '9'.toNat := of_decide_eq_true atMost
        have nine : '9'.toNat = '0'.toNat + 9 := rfl
        omega
      have less := ih others
      have most := Nat.mul_le_mul_left (10 ^ chars.length) small
      rw [Scan.digitsValue_cons, List.length_cons, pow_succ]
      omega

section Fitted

variable {numeral : Numeral} (proper : numeral.Proper) (short : numeral.whole.length ≤ 16)

include proper short

/-- What is left of the digits before the point, and how many places the others take. -/
theorem fitDecimal_eq : Scan.fitDecimal numeral.whole (numeral.fraction.getD []) =
    let fitted := Scan.fitDigits (Scan.digitsValue numeral.whole) (numeral.fraction.getD [])
    ⟨fitted.1, -((numeral.fraction.getD []).length - fitted.2.length : Nat)⟩ := by
  have below : Scan.digitsValue numeral.whole < 2 ^ 64 := by
    calc Scan.digitsValue numeral.whole < 10 ^ numeral.whole.length :=
          digitsValue_lt proper.whole_digits
      _ ≤ 10 ^ 16 := Nat.pow_le_pow_right (by decide) short
      _ ≤ 2 ^ 64 := by decide
  have whole : Scan.fitDigits 0 numeral.whole = (Scan.digitsValue numeral.whole, []) := by
    have all := @Scan.fitDigits_of_lt 0 numeral.whole (by simpa using below)
    rwa [Nat.mul_zero, Nat.zero_add] at all
  simp only [Scan.fitDecimal, whole, List.length_nil, Nat.cast_zero, zero_sub]

/-- The reader never makes more of a numeral than it writes. -/
theorem fitted_le : numeral.fitted.digits < 2 ^ 64 ∧
    numeral.fitted.value ≤ numeral.decimal.value := by
  have below : Scan.digitsValue numeral.whole < 2 ^ 64 := by
    calc Scan.digitsValue numeral.whole < 10 ^ numeral.whole.length :=
          digitsValue_lt proper.whole_digits
      _ ≤ 10 ^ 16 := Nat.pow_le_pow_right (by decide) short
      _ ≤ 2 ^ 64 := by decide
  obtain ⟨fits, fewer, atMost⟩ := Scan.fitDigits_le below (numeral.fraction.getD [])
  rw [← Scan.digitsValue_append] at atMost
  simp only [fitted, fitDecimal_eq proper short, decimal, Decimal.value]
  refine ⟨fits, ?_⟩
  generalize Scan.fitDigits (Scan.digitsValue numeral.whole) (numeral.fraction.getD []) = found at *
  generalize numeral.exponent.getD (false, []) = marks
  obtain ⟨down, digits⟩ := marks
  simp only
  generalize (if down = true then -(Scan.digitsValue digits : Int) else _) = power
  have places : (-((numeral.fraction.getD []).length - found.2.length : Nat) + power : Int) =
      found.2.length + (power - (numeral.fraction.getD []).length) := by omega
  rw [places, zpow_add₀ (by norm_num), ← mul_assoc, zpow_natCast]
  exact mul_le_mul_of_nonneg_right (by exact_mod_cast atMost) (by positivity)

/-- Few digits are all used. -/
theorem fitted_of_lt (few : numeral.decimal.digits < 2 ^ 64) :
    numeral.fitted = numeral.decimal := by
  have all : 10 ^ (numeral.fraction.getD []).length * Scan.digitsValue numeral.whole +
      Scan.digitsValue (numeral.fraction.getD []) < 2 ^ 64 := by
    rw [← Scan.digitsValue_append]
    exact few
  simp only [fitted, fitDecimal_eq proper short, Scan.fitDigits_of_lt all, decimal,
    List.length_nil, Nat.sub_zero, Scan.digitsValue_append]
  congr 1
  omega

end Fitted

theorem length_whole_ofDecimal (decimal : Decimal) : (ofDecimal decimal).whole.length ≤ 16 := by
  have limit : leastLargePower = 16 := rfl
  unfold ofDecimal
  dsimp only
  split_ifs
  · change (natText decimal.digits ++ List.replicate decimal.exponent.toNat '0').length ≤ 16
    rw [List.length_append, List.length_replicate]
    omega
  · exact (List.length_take_le _ _).trans (by omega)
  · exact Nat.le_of_ble_eq_true rfl
  · exact (List.length_take_le _ _).trans (by omega)

variable (x : Binary64)

theorem length_whole_ofFloat : (ofFloat x).whole.length ≤ 16 := by
  unfold ofFloat
  split
  · exact Nat.le_of_ble_eq_true rfl
  · exact length_whole_ofDecimal _

theorem marked_ofFloat : (ofFloat x).fraction ≠ none ∨ (ofFloat x).exponent ≠ none := by
  unfold ofFloat
  split
  · exact .inl nofun
  · exact marked_ofDecimal _

theorem text_ofFloat : floatText x = (if x.negative then ['-'] else []) ++ (ofFloat x).text := by
  unfold floatText ofFloat
  split_ifs <;> simp [← text_ofDecimal, zero, text, fractionText, exponentText]

variable {x} (regular : x.Regular)

include regular

theorem proper_ofFloat : (ofFloat x).Proper := by
  unfold ofFloat
  split_ifs with none
  · exact proper_zero
  · have positive := Nat.pos_of_ne_zero none
    have captured := Binary64.captures_shortest positive
    have some := Nat.pos_of_ne_zero (captured.digits_ne_zero regular positive)
    obtain ⟨atLeast, atMost⟩ := captured.exponent_mem regular positive
    have length : (natText x.shortest.digits).length = digitCount x.shortest.digits := rfl
    refine proper_ofDecimal some ?_
    rw [length, Scan.exponentLimit]
    omega

omit regular in
/-- The numeral of a positive number lies between the midpoints around it. -/
theorem captures_ofFloat (positive : 0 < x.significand) :
    x.Captures (ofFloat x).decimal.value := by
  rw [ofFloat, if_neg positive.ne', value_ofDecimal]
  exact Binary64.captures_shortest positive

/-- The numeral of a number has an estimate. -/
theorem exists_estimate_ofFloat (negative : Bool) :
    ∃ y, Binary64.estimate? negative (ofFloat x).fitted = some y := by
  obtain ⟨fits, atMost⟩ := fitted_le (proper_ofFloat regular) (length_whole_ofFloat x)
  rcases Nat.eq_zero_or_pos x.significand with none | positive
  · refine Binary64.exists_estimate fits (atMost.trans ?_) negative
    have value : zero.decimal.value = 0 := by
      simp [Decimal.value, decimal, zero, Scan.digitsValue]
    rw [ofFloat, if_pos none, value]
    exact Nat.cast_nonneg _
  · by_cases greatest : x.significand = 2 ^ 53 - 1 ∧ x.exponent = 971
    · obtain ⟨sign, significand, exponent⟩ := x
      obtain ⟨rfl, rfl⟩ : significand = 2 ^ 53 - 1 ∧ exponent = 971 := greatest
      have some :
          (Binary64.estimate? negative (ofFloat ⟨sign, 2 ^ 53 - 1, 971⟩).fitted).isSome := by
        cases negative <;> cases sign <;> decide +kernel
      exact Option.isSome_iff_exists.mp some
    · have captured := captures_ofFloat positive
      have within : (ofFloat x).decimal.value ≤ x.upperMid :=
        captured.2.elim le_of_lt fun same => same.2.le
      exact Binary64.exists_estimate fits
        (atMost.trans (within.trans (regular.upperMid_le greatest))) negative

end Numeral

namespace Scan

variable {rest : List Char}

section Dispatch

variable (depth : Nat) {c : Char}

theorem value_of_minus : value depth ('-' :: rest) = (Json.number <$> number true) rest := by
  rw [value.eq_def, peek_bind _ rfl]
  rfl

theorem ne_of_isDigit (digit : isDigit c = true) {other : Char} (unlike : isDigit other = false) :
    c ≠ other := by
  rintro rfl
  rw [digit] at unlike
  contradiction

theorem isSpace_of_isDigit (digit : isDigit c = true) : isSpace c = false := by
  have blank : c ≠ ' ' := ne_of_isDigit digit rfl
  have line : c ≠ '\n' := ne_of_isDigit digit rfl
  have tab : c ≠ '\t' := ne_of_isDigit digit rfl
  have back : c ≠ '\r' := ne_of_isDigit digit rfl
  simp [isSpace, blank, line, tab, back]

/-- A digit starts a number. -/
theorem value_of_digit (digit : isDigit c = true) :
    value depth (c :: rest) = (Json.number <$> number false) (c :: rest) := by
  cases depth
  all_goals
    rw [value, peek_bind _ (isSpace_of_isDigit digit)]
    generalize seen : some c = head
    split
    · contradiction
    all_goals try exact absurd (Option.some.inj seen) (ne_of_isDigit digit rfl)
    · obtain rfl := Option.some.inj seen
      rw [if_pos digit]

/-- A numeral with or without a minus is a number. -/
theorem value_of_text {numeral : Numeral} (proper : numeral.Proper) (negative : Bool) :
    value depth ((if negative then ['-'] else []) ++ (numeral.text ++ rest)) =
      (Json.number <$> number negative) (numeral.text ++ rest) := by
  cases negative with
  | true => exact value_of_minus depth
  | false =>
      obtain ⟨c, more, split⟩ := List.exists_cons_of_ne_nil proper.whole_ne
      have digit : isDigit c = true := proper.whole_digits c (split ▸ List.mem_cons_self ..)
      rw [Numeral.text, split]
      exact value_of_digit depth digit

end Dispatch

/-- A written integer that fits is read as this integer. -/
theorem number_of_integer {n : Nat} (negative : Bool) (ends : Ends rest)
    (fits : if negative then 0 < n ∧ n ≤ 0x8000000000000000 else n < 0x10000000000000000) :
    number negative ((Numeral.ofNat n).text ++ rest) =
      .ok (.integer (if negative then -n else n), rest) := by
  rw [number_text (Numeral.proper_ofNat n) negative ends]
  simp only [Numeral.ofNat, Option.isNone_none, and_self, ↓reduceIte, digitsValue_natText]
  cases negative with
  | true =>
      simp only [↓reduceIte] at fits ⊢
      rw [if_pos fits]
      rfl
  | false =>
      simp only [Bool.false_eq_true, ↓reduceIte] at fits ⊢
      rw [if_pos fits]
      rfl

/-- The text of an integer is a numeral with or without a minus, which is read back. -/
theorem exists_of_integer {n : Int} (regular : (Number.integer n).Regular) :
    ∃ (negative : Bool) (numeral : Numeral), numeral.Proper ∧
      numberText (.integer n) = (if negative then ['-'] else []) ++ numeral.text ∧
      ∀ rest, Ends rest → Scan.number negative (numeral.text ++ rest) = .ok (.integer n, rest) := by
  obtain ⟨atLeast, below⟩ := regular
  by_cases sign : n < 0
  · refine ⟨true, .ofNat n.natAbs, Numeral.proper_ofNat _, ?_, ?_⟩
    · rw [numberText, integerText, if_pos sign, Numeral.text_ofNat]
      rfl
    · intro rest ends
      have fits : 0 < n.natAbs ∧ n.natAbs ≤ 0x8000000000000000 := by omega
      have same : -(n.natAbs : Int) = n := by omega
      rw [number_of_integer true ends fits, if_pos rfl, same]
  · refine ⟨false, .ofNat n.natAbs, Numeral.proper_ofNat _, ?_, ?_⟩
    · rw [numberText, integerText, if_neg sign, Numeral.text_ofNat]
      rfl
    · intro rest ends
      have fits : n.natAbs < 0x10000000000000000 := by omega
      have same : (n.natAbs : Int) = n := by omega
      rw [number_of_integer false ends fits, if_neg nofun, same]

/-- The text of a number is a numeral with or without a minus, which is read. -/
theorem exists_numeral {number : Number} (regular : number.Regular) :
    ∃ (negative : Bool) (numeral : Numeral) (found : Number), numeral.Proper ∧
      numberText number = (if negative then ['-'] else []) ++ numeral.text ∧
      ∀ rest, Ends rest → Scan.number negative (numeral.text ++ rest) = .ok (found, rest) := by
  cases number with
  | integer n =>
      obtain ⟨negative, numeral, proper, text, read⟩ := exists_of_integer regular
      exact ⟨negative, numeral, _, proper, text, read⟩
  | float x =>
      have proper := Numeral.proper_ofFloat regular
      obtain ⟨y, estimated⟩ := Numeral.exists_estimate_ofFloat regular x.negative
      exact ⟨x.negative, .ofFloat x, .float y, proper, Numeral.text_ofFloat x,
        fun rest ends => number_of_float proper ends (Numeral.marked_ofFloat x) estimated⟩

end Scan

end Json

/-- What reading its text makes of a number. -/
def Number.reread (number : Number) : Number :=
  match Json.Scan.value 0 (Json.numberText number) with
  | .ok (.number found, _) => found
  | _ => number

namespace Json

namespace Scan

variable {rest : List Char}

/-- **Numbers.** The text of a number is read to its end. -/
theorem value_of_numberText (depth : Nat) {number : Number} (regular : number.Regular)
    (ends : Ends rest) :
    value depth (numberText number ++ rest) = .ok (.number number.reread, rest) := by
  obtain ⟨negative, numeral, found, proper, text, read⟩ := exists_numeral regular
  have reads (depth : Nat) {rest : List Char} (ends : Ends rest) :
      value depth (numberText number ++ rest) = .ok (.number found, rest) := by
    rw [text, List.append_assoc, value_of_text depth proper, map_of_ok _ (read rest ends)]
  have alone : value 0 (numberText number) = .ok (.number found, []) := by
    rw [← List.append_nil (numberText number)]
    exact reads 0 nofun
  rw [reads depth ends, Number.reread, alone]

/-- The text of a number starts with a minus or a digit. -/
theorem exists_head_numberText {number : Number} (regular : number.Regular) :
    ∃ c tail, numberText number = c :: tail ∧ (c = '-' ∨ isDigit c = true) := by
  obtain ⟨negative, numeral, _, proper, text, _⟩ := exists_numeral regular
  cases negative with
  | true => exact ⟨'-', numeral.text, text, .inl rfl⟩
  | false =>
      obtain ⟨c, more, split⟩ := List.exists_cons_of_ne_nil proper.whole_ne
      refine ⟨c, more ++ (numeral.fractionText ++ numeral.exponentText), ?_, .inr ?_⟩
      · rw [text, Numeral.text, split]
        rfl
      · exact proper.whole_digits c (split ▸ List.mem_cons_self ..)

end Scan

end Json

namespace Number

/-- An integer, or a binary number whose text has few enough digits and a small enough power of ten
for both to be binary numbers. -/
def Short : Number → Prop
  | .integer _ => True
  | .float x => (Json.Numeral.ofFloat x).decimal.digits < 2 ^ 53 ∧
    (Json.Numeral.ofFloat x).decimal.exponent.natAbs ≤ 22

/-- **Short numbers.** They are read back as they were. -/
theorem reread_of_short {number : Number} (regular : number.Regular) (short : number.Short) :
    number.reread = number := by
  suffices read : Json.Scan.value 0 (Json.numberText number) = .ok (.number number, []) by
    rw [reread, read]
  cases number with
  | integer n =>
      obtain ⟨negative, numeral, proper, text, read⟩ := Json.Scan.exists_of_integer regular
      have alone := read [] nofun
      rw [List.append_nil] at alone
      rw [text, ← List.append_nil numeral.text, Json.Scan.value_of_text 0 proper, List.append_nil,
        Json.Scan.map_of_ok _ alone]
  | float x =>
      have proper := Json.Numeral.proper_ofFloat regular
      have few := short.1.trans (show 2 ^ 53 < 2 ^ 64 by decide)
      have fitted := Json.Numeral.fitted_of_lt proper (Json.Numeral.length_whole_ofFloat x) few
      have estimated : Binary64.estimate? x.negative (Json.Numeral.ofFloat x).fitted = some x := by
        rw [fitted]
        rcases Nat.eq_zero_or_pos x.significand with none | positive
        · obtain ⟨negative, significand, exponent⟩ := x
          obtain rfl : significand = 0 := none
          obtain rfl : exponent = -1074 := regular.full.resolve_left (by norm_num)
          cases negative <;> decide +kernel
        · exact Binary64.estimate?_of_captures regular positive
            (Json.Numeral.captures_ofFloat positive) short.1 short.2 x.negative
      have alone := @Json.Scan.number_of_float [] _ proper _ _ nofun
        (Json.Numeral.marked_ofFloat x) estimated
      have read := @Json.Scan.value_of_text [] 0 _ proper x.negative
      rw [Json.Scan.map_of_ok _ alone, List.append_nil] at read
      rw [Json.numberText, Json.Numeral.text_ofFloat, read]

end Number

end Toolsmith
