import Mathlib
import Toolsmith.Number.Shortest

/-! # Rounding a decimal to a binary number

Every regular number is the nearest one to its shortest decimal
(`Binary64.nearest?_of_value_shortest`). The two searches meet in the midpoints between a number
and its neighbours: the shortest decimal is looked for between them, and every decimal between them
is rounded to the number. The scaled integers of both are read as rational numbers, so that the
proof is about values and not about how they are cleared of denominators.
-/

namespace Toolsmith

theorem powerOf_pos {base : Nat} (positive : 0 < base) (exponent : Int) :
    0 < powerOf base exponent :=
  Nat.pow_pos positive

theorem powerOf_of_nonneg (base : Nat) {exponent : Int} (whole : 0 ≤ exponent) :
    (powerOf base exponent : ℚ) = (base : ℚ) ^ exponent := by
  obtain ⟨n, rfl⟩ := Int.eq_ofNat_of_zero_le whole
  simp [powerOf]

/-- A power is the quotient of the powers that represent it. -/
theorem powerOf_eq (base : Nat) (positive : 0 < base) (exponent : Int) :
    (powerOf base exponent : ℚ) = (base : ℚ) ^ exponent * powerOf base (-exponent) := by
  have nonzero : (base : ℚ) ≠ 0 := by exact_mod_cast positive.ne'
  cases exponent with
  | ofNat n => simp [powerOf]
  | negSucc n =>
      have up : (-Int.negSucc n).toNat = n + 1 := rfl
      have none : (Int.negSucc n).toNat = 0 := rfl
      simp only [powerOf, up, none, Nat.pow_eq, pow_zero, Nat.cast_one, zpow_negSucc,
        Nat.cast_pow]
      field_simp

/-- The value of a decimal. -/
def Decimal.value (decimal : Decimal) : ℚ := decimal.digits * 10 ^ decimal.exponent

/-- A quotient is rounded to `nearest` when it is less than a half away from it, or a half away and
`nearest` is even. -/
theorem roundHalfEven_eq {num den nearest : Nat} (positive : 0 < den)
    (low : 2 * nearest * den < 2 * num + den ∨
      nearest % 2 = 0 ∧ 2 * nearest * den = 2 * num + den)
    (high : 2 * num < (2 * nearest + 1) * den ∨
      nearest % 2 = 0 ∧ 2 * num = (2 * nearest + 1) * den) :
    roundHalfEven num den = nearest := by
  have split : num = den * (num / den) + num % den := (Nat.div_add_mod num den).symm
  have small : num % den < den := Nat.mod_lt num positive
  have above : num / den ≤ nearest := by
    by_contra beyond
    have : den * (nearest + 1) ≤ den * (num / den) := Nat.mul_le_mul_left den (by omega)
    have : (2 * nearest + 1) * den + den = 2 * (den * (nearest + 1)) := by ring
    omega
  have below : nearest ≤ num / den + 1 := by
    by_contra beyond
    have : den * (num / den + 2) ≤ den * nearest := Nat.mul_le_mul_left den (by omega)
    have : 2 * nearest * den = 2 * (den * nearest) := by ring
    have : den * (num / den + 2) = den * (num / den) + 2 * den := by ring
    omega
  unfold roundHalfEven
  simp only
  -- The quotient is `nearest` or one less, and twice the remainder tells which.
  rcases (show nearest = num / den ∨ nearest = num / den + 1 by omega) with same | next
  · have : (2 * nearest + 1) * den = 2 * (den * (num / den)) + den := by rw [same]; ring
    split_ifs <;> omega
  · have : 2 * nearest * den = 2 * (den * (num / den)) + 2 * den := by rw [next]; ring
    split_ifs <;> omega

theorem roundHalfEven_mem (num den : Nat) :
    roundHalfEven num den = num / den ∨ roundHalfEven num den = num / den + 1 := by
  unfold roundHalfEven
  simp only
  split_ifs <;> omega

namespace Binary64

/-- A number of the format: its significand has all bits unless the exponent is the least. -/
structure Regular (x : Binary64) : Prop where
  below : x.significand < 2 ^ 53
  least : -1074 ≤ x.exponent
  most : x.exponent ≤ 971
  full : 2 ^ 52 ≤ x.significand ∨ x.exponent = -1074

/-- The magnitude of a number. -/
def magnitude (x : Binary64) : ℚ := x.significand * 2 ^ x.exponent

/-- The midpoint to the next smaller magnitude. -/
def lowerMid (x : Binary64) : ℚ :=
  (x.significand - if x.narrowBelow then 1 / 4 else 1 / 2) * 2 ^ x.exponent

/-- The midpoint to the next larger magnitude. -/
def upperMid (x : Binary64) : ℚ := (x.significand + 1 / 2) * 2 ^ x.exponent

/-- A value lies between the midpoints, which count when the significand is even. -/
def Captures (x : Binary64) (value : ℚ) : Prop :=
  (x.lowerMid < value ∨ x.significand % 2 = 0 ∧ value = x.lowerMid) ∧
    (value < x.upperMid ∨ x.significand % 2 = 0 ∧ value = x.upperMid)

section Comparison

variable (a : Nat) (i : Int) (n : Nat) (j : Int)

/-- Both sides of a scaled comparison are the values times one positive factor. -/
theorem scaled_eq : ∃ factor : ℚ, 0 < factor ∧
    ((a * powerOf 10 i * powerOf 2 (-j) : Nat) : ℚ) = a * 10 ^ i * factor ∧
    ((n * powerOf 2 j * powerOf 10 (-i) : Nat) : ℚ) = n * 2 ^ j * factor := by
  have tens : (0 : ℚ) < powerOf 10 (-i) := by exact_mod_cast powerOf_pos (by decide) _
  have twos : (0 : ℚ) < powerOf 2 (-j) := by exact_mod_cast powerOf_pos (by decide) _
  refine ⟨powerOf 10 (-i) * powerOf 2 (-j), mul_pos tens twos, ?_, ?_⟩
  · push_cast [powerOf_eq 10 (by decide) i]
    ring
  · push_cast [powerOf_eq 2 (by decide) j]
    ring

theorem compareScaled_eq_lt : compareScaled a i n j = .lt ↔ (a * 10 ^ i : ℚ) < n * 2 ^ j := by
  obtain ⟨factor, positive, left, right⟩ := scaled_eq a i n j
  rw [compareScaled, Nat.compare_eq_lt, ← Nat.cast_lt (α := ℚ), left, right]
  exact mul_lt_mul_iff_left₀ positive

theorem compareScaled_eq_gt : compareScaled a i n j = .gt ↔ (n * 2 ^ j : ℚ) < a * 10 ^ i := by
  obtain ⟨factor, positive, left, right⟩ := scaled_eq a i n j
  rw [compareScaled, Nat.compare_eq_gt, ← Nat.cast_lt (α := ℚ), left, right]
  exact mul_lt_mul_iff_left₀ positive

theorem compareScaled_eq_eq : compareScaled a i n j = .eq ↔ (a * 10 ^ i : ℚ) = n * 2 ^ j := by
  obtain ⟨factor, positive, left, right⟩ := scaled_eq a i n j
  rw [compareScaled, Nat.compare_eq_eq, ← Nat.cast_inj (R := ℚ), left, right]
  exact mul_left_inj' positive.ne'

end Comparison

/-- The test of a decimal is whether its value lies between the midpoints. -/
theorem roundsTo_iff {x : Binary64} (positive : 0 < x.significand) (decimal : Decimal) :
    x.roundsTo decimal = true ↔ x.Captures decimal.value := by
  have quarter : (2 : ℚ) ^ (x.exponent - 2) = 2 ^ x.exponent / 4 := by
    rw [zpow_sub₀ (by norm_num)]
    norm_num
  have low : (((if x.narrowBelow then 4 * x.significand - 1 else 4 * x.significand - 2 : Nat) : ℚ) *
      2 ^ (x.exponent - 2)) = x.lowerMid := by
    rw [quarter, lowerMid]
    split
    · rw [Nat.cast_sub (by omega)]
      push_cast
      ring
    · rw [Nat.cast_sub (by omega)]
      push_cast
      ring
  have high : (((4 * x.significand + 2 : Nat) : ℚ) * 2 ^ (x.exponent - 2)) = x.upperMid := by
    rw [quarter, upperMid]
    push_cast
    ring
  simp only [roundsTo, Bool.and_eq_true, Bool.or_eq_true, beq_iff_eq, compareScaled_eq_gt,
    compareScaled_eq_lt, compareScaled_eq_eq, low, high, Captures, Decimal.value]

theorem captures_magnitude (x : Binary64) : x.Captures x.magnitude := by
  have unit : (0 : ℚ) < 2 ^ x.exponent := by positivity
  refine ⟨.inl ?_, .inl ?_⟩
  · rw [lowerMid, magnitude]
    split <;> linarith
  · rw [upperMid, magnitude]
    linarith

/-- The exact decimal of a number has its magnitude as a value. -/
theorem value_exact (x : Binary64) : x.exact.value = x.magnitude := by
  unfold exact
  split_ifs with whole
  · simp [Decimal.value, magnitude, powerOf_of_nonneg 2 whole]
  · have fives : (powerOf 5 (-x.exponent) : ℚ) = 5 ^ (-x.exponent) := by
      exact_mod_cast powerOf_of_nonneg 5 (by omega)
    have tens : (10 : ℚ) ^ x.exponent = 2 ^ x.exponent * 5 ^ x.exponent := by
      rw [← mul_zpow]
      norm_num
    rw [Decimal.value, magnitude, Nat.cast_mul, fives, tens, zpow_neg]
    field_simp

theorem value_dropZeros (fuel : Nat) (decimal : Decimal) :
    (dropZeros fuel decimal).value = decimal.value := by
  induction fuel generalizing decimal with
  | zero => rfl
  | succ fuel ih =>
      rw [dropZeros]
      split_ifs with zeros
      · rw [ih, Decimal.value, Decimal.value, zpow_add₀ (by norm_num), zpow_one]
        have tenfold : decimal.digits = decimal.digits / 10 * 10 := by omega
        have cast : (decimal.digits : ℚ) = (decimal.digits / 10 : Nat) * 10 := by
          exact_mod_cast tenfold
        rw [cast]
        ring
      · rfl

/-- A decimal that was found on a grid rounds to the number. -/
theorem roundsTo_of_onGrid? {x : Binary64} {grid : Int} {decimal : Decimal}
    (found : x.onGrid? grid = some decimal) : x.roundsTo decimal = true := by
  unfold onGrid? at found
  simp only at found
  split at found
  · rename_i lower upper
    obtain rfl := Option.some.inj found
    rcases roundHalfEven_mem (x.significand * powerOf 2 x.exponent * powerOf 10 (-grid))
      (powerOf 2 (-x.exponent) * powerOf 10 grid) with same | next
    · rw [same]
      exact lower
    · rw [next]
      exact upper
  · rename_i lower _
    obtain rfl := Option.some.inj found
    exact lower
  · rename_i _ upper
    obtain rfl := Option.some.inj found
    exact upper
  · contradiction

/-- The shortest decimal lies between the midpoints. -/
theorem captures_shortest {x : Binary64} (positive : 0 < x.significand) :
    x.Captures x.shortest.value := by
  rw [shortest, if_neg positive.ne', value_dropZeros]
  cases found : (List.range maxDigits).findSome? fun n : Nat =>
      x.onGrid? (x.decimalScale - (n + 1)) with
  | none =>
      -- No grid has a neighbour of `x` that rounds to it, so that the exact value is taken.
      rw [Option.getD_none, value_exact]
      exact x.captures_magnitude
  | some decimal =>
      obtain ⟨n, _, onGrid⟩ := List.exists_of_findSome?_eq_some found
      exact (roundsTo_iff positive decimal).mp (roundsTo_of_onGrid? onGrid)

/-- The logarithm of a positive quotient, rounded down. -/
theorem floorLog2_spec {num den : Nat} (positive : 0 < num) (proper : 0 < den) :
    (2 : ℚ) ^ floorLog2 num den ≤ num / den ∧ (num / den : ℚ) < 2 ^ (floorLog2 num den + 1) := by
  have dens : (0 : ℚ) < den := by exact_mod_cast proper
  have numLow : (2 : ℚ) ^ (num.log2 : Int) ≤ num := by
    exact_mod_cast Nat.log2_self_le positive.ne'
  have numHigh : (num : ℚ) < 2 ^ (num.log2 + 1 : Int) := by
    exact_mod_cast Nat.lt_log2_self
  have denLow : (2 : ℚ) ^ (den.log2 : Int) ≤ den := by
    exact_mod_cast Nat.log2_self_le proper.ne'
  have denHigh : (den : ℚ) < 2 ^ (den.log2 + 1 : Int) := by
    exact_mod_cast Nat.lt_log2_self
  have above : (num / den : ℚ) < 2 ^ ((num.log2 : Int) - den.log2 + 1) := by
    rw [div_lt_iff₀ dens]
    calc (num : ℚ) < 2 ^ (num.log2 + 1 : Int) := numHigh
      _ = 2 ^ ((num.log2 : Int) - den.log2 + 1) * 2 ^ (den.log2 : Int) := by
        rw [← zpow_add₀ (by norm_num)]
        congr 1
        ring
      _ ≤ 2 ^ ((num.log2 : Int) - den.log2 + 1) * den := by gcongr
  have below : (2 : ℚ) ^ ((num.log2 : Int) - den.log2 - 1) ≤ num / den := by
    rw [le_div_iff₀ dens]
    calc (2 : ℚ) ^ ((num.log2 : Int) - den.log2 - 1) * den
        ≤ 2 ^ ((num.log2 : Int) - den.log2 - 1) * 2 ^ (den.log2 + 1 : Int) := by gcongr
      _ = 2 ^ (num.log2 : Int) := by
        rw [← zpow_add₀ (by norm_num)]
        congr 1
        ring
      _ ≤ num := numLow
  have test (guess : Int) : den * powerOf 2 guess ≤ num * powerOf 2 (-guess) ↔
      (2 : ℚ) ^ guess ≤ num / den := by
    have unit : (0 : ℚ) < powerOf 2 (-guess) := by exact_mod_cast powerOf_pos (by decide) _
    rw [← Nat.cast_le (α := ℚ), le_div_iff₀ dens, Nat.cast_mul, Nat.cast_mul,
      powerOf_eq 2 (by decide) guess, ← mul_assoc, mul_comm (den : ℚ)]
    exact mul_le_mul_iff_left₀ unit
  unfold floorLog2
  simp only [test]
  split_ifs with reached
  · exact ⟨reached, above⟩
  · rw [sub_add_cancel]
    exact ⟨below, not_le.mp reached⟩

/-- Rounding a quotient on the grid of a power of two. -/
theorem roundHalfEven_scaled {num den nearest : Nat} (exponent : Int) (proper : 0 < den)
    (low : ((nearest : ℚ) - 1 / 2) * 2 ^ exponent < num / den ∨
      nearest % 2 = 0 ∧ (num / den : ℚ) = (nearest - 1 / 2) * 2 ^ exponent)
    (high : (num / den : ℚ) < (nearest + 1 / 2) * 2 ^ exponent ∨
      nearest % 2 = 0 ∧ (num / den : ℚ) = (nearest + 1 / 2) * 2 ^ exponent) :
    roundHalfEven (num * powerOf 2 (-exponent)) (den * powerOf 2 exponent) = nearest := by
  have dens : (0 : ℚ) < den := by exact_mod_cast proper
  have twos : (0 : ℚ) < powerOf 2 (-exponent) := by exact_mod_cast powerOf_pos (by decide) _
  set factor : ℚ := den * powerOf 2 (-exponent) with factor_eq
  have positive : 0 < factor := mul_pos dens twos
  have top : ((num * powerOf 2 (-exponent) : Nat) : ℚ) = num / den * factor := by
    rw [factor_eq]
    push_cast
    field_simp
  have bottom : ((den * powerOf 2 exponent : Nat) : ℚ) = 2 ^ exponent * factor := by
    rw [factor_eq]
    push_cast [powerOf_eq 2 (by decide) exponent]
    ring
  have divisor : 0 < den * powerOf 2 exponent := Nat.mul_pos proper (powerOf_pos (by decide) _)
  generalize num * powerOf 2 (-exponent) = scaledNum at top ⊢
  generalize den * powerOf 2 exponent = scaledDen at bottom divisor ⊢
  apply roundHalfEven_eq divisor
  · refine low.imp (fun less => ?_) (fun ⟨even, same⟩ => ⟨even, ?_⟩)
    · rw [← Nat.cast_lt (α := ℚ)]
      push_cast [top, bottom]
      linarith [mul_lt_mul_of_pos_right less positive]
    · rw [← Nat.cast_inj (R := ℚ)]
      push_cast [top, bottom, same]
      ring
  · refine high.imp (fun less => ?_) (fun ⟨even, same⟩ => ⟨even, ?_⟩)
    · rw [← Nat.cast_lt (α := ℚ)]
      push_cast [top, bottom]
      linarith [mul_lt_mul_of_pos_right less positive]
    · rw [← Nat.cast_inj (R := ℚ)]
      push_cast [top, bottom, same]
      ring

section Captured

variable {x : Binary64} {value : ℚ} (regular : x.Regular) (captured : x.Captures value)

include captured

/-- A captured value is at most a half away from the number on its own grid, and if it is a half
away then the significand is even. -/
theorem Captures.low : ((x.significand : ℚ) - 1 / 2) * 2 ^ x.exponent < value ∨
    x.significand % 2 = 0 ∧ value = (x.significand - 1 / 2) * 2 ^ x.exponent := by
  have unit : (0 : ℚ) < 2 ^ x.exponent := by positivity
  have low := captured.1
  rw [lowerMid] at low
  split at low
  · left
    rcases low with less | ⟨_, same⟩
    · linarith
    · linarith
  · exact low

include regular

/-- What a number captures is less than the power of two above its significand. -/
theorem Captures.lt : value < 2 ^ (x.exponent + 53) := by
  have unit : (0 : ℚ) < 2 ^ x.exponent := by positivity
  have small : (x.significand : ℚ) + 1 ≤ 2 ^ 53 := by exact_mod_cast regular.below
  have least : value ≤ x.upperMid := captured.2.elim le_of_lt (fun same => same.2.le)
  calc value ≤ (x.significand + 1 / 2) * 2 ^ x.exponent := least
    _ < 2 ^ (53 : Int) * 2 ^ x.exponent := by
      apply mul_lt_mul_of_pos_right _ unit
      rw [show (2 : ℚ) ^ (53 : Int) = 2 ^ 53 from rfl]
      linarith
    _ = 2 ^ (x.exponent + 53) := by rw [← zpow_add₀ (by norm_num), add_comm]

/-- A captured value below all numbers with the exponent of `x` is captured by the least of them,
and the numbers below it are half as far apart. -/
theorem Captures.narrow (short : value < 2 ^ (x.exponent + 52)) (high : -1074 < x.exponent) :
    x.significand = 2 ^ 52 ∧ (2 ^ 53 - 1 / 2) * 2 ^ (x.exponent - 1) ≤ value := by
  have unit : (0 : ℚ) < 2 ^ x.exponent := by positivity
  have scaled : (2 : ℚ) ^ (x.exponent + 52) = 2 ^ 52 * 2 ^ x.exponent := by
    rw [zpow_add₀ (by norm_num), mul_comm]
    norm_num
  have half : (2 : ℚ) ^ (x.exponent - 1) = 2 ^ x.exponent / 2 := by
    rw [zpow_sub₀ (by norm_num), zpow_one]
  have enough : 2 ^ 52 ≤ x.significand := regular.full.resolve_right (by omega)
  have above : ((x.significand : ℚ) - 1 / 2) * 2 ^ x.exponent ≤ value :=
    captured.low.elim le_of_lt (fun same => same.2.ge)
  have least : x.significand = 2 ^ 52 := by
    by_contra different
    have more : (2 ^ 52 : ℚ) + 1 ≤ x.significand := by
      exact_mod_cast (show 2 ^ 52 + 1 ≤ x.significand by omega)
    have : (2 ^ 52 : ℚ) * 2 ^ x.exponent < ((x.significand : ℚ) - 1 / 2) * 2 ^ x.exponent :=
      mul_lt_mul_of_pos_right (by linarith) unit
    linarith
  refine ⟨least, ?_⟩
  have isNarrow : x.narrowBelow = true := by
    simp [narrowBelow, precision, minExponent, least, high]
  have low : x.lowerMid ≤ value := captured.1.elim le_of_lt (fun same => same.2.ge)
  rw [lowerMid, isNarrow, if_pos rfl, least] at low
  rw [half]
  push_cast at low
  linarith

end Captured

section Quotient

variable {x : Binary64} {num den : Nat} (regular : x.Regular) (positive : 0 < num)
  (proper : 0 < den) (captured : x.Captures (num / den))

include regular positive proper captured

theorem floorLog2_le_of_captures : floorLog2 num den - 52 ≤ x.exponent := by
  have reached := (floorLog2_spec positive proper).1
  have : floorLog2 num den < x.exponent + 53 :=
    (zpow_lt_zpow_iff_right₀ (by norm_num)).mp (reached.trans_lt (captured.lt regular))
  omega

/-- A quotient below the numbers with the exponent of `x` lies on the finer grid, where it is
rounded up to the next power of two. -/
theorem ofQuotient?_of_narrow (negative : Bool)
    (short : (num / den : ℚ) < 2 ^ (x.exponent + 52)) (higher : -1074 < x.exponent) :
    ofQuotient? negative num den = some ⟨negative, x.significand, x.exponent⟩ := by
  obtain ⟨reached, missed⟩ := floorLog2_spec positive proper
  obtain ⟨narrow, above⟩ := captured.narrow regular short higher
  have belowTop : floorLog2 num den < x.exponent + 52 :=
    (zpow_lt_zpow_iff_right₀ (by norm_num)).mp (reached.trans_lt short)
  have aboveBottom : x.exponent + 51 < floorLog2 num den + 1 := by
    refine (zpow_lt_zpow_iff_right₀ (show (1 : ℚ) < 2 by norm_num)).mp (lt_of_le_of_lt ?_ missed)
    refine le_trans ?_ above
    rw [show x.exponent + 51 = 52 + (x.exponent - 1) by ring, zpow_add₀ (by norm_num)]
    gcongr
    norm_num
  have grid : max (floorLog2 num den - (precision - 1 : Int)) minExponent = x.exponent - 1 := by
    simp only [precision, minExponent]
    omega
  have high : (num / den : ℚ) < ((2 ^ 53 : Nat) + 1 / 2) * 2 ^ (x.exponent - 1) := by
    refine short.trans ?_
    rw [show x.exponent + 52 = 53 + (x.exponent - 1) by ring, zpow_add₀ (by norm_num)]
    gcongr
    norm_num
  have low : ((2 ^ 53 : Nat) - 1 / 2 : ℚ) * 2 ^ (x.exponent - 1) < num / den ∨
      2 ^ 53 % 2 = 0 ∧ (num / den : ℚ) = ((2 ^ 53 : Nat) - 1 / 2) * 2 ^ (x.exponent - 1) := by
    push_cast
    exact above.lt_or_eq.imp id (fun same => ⟨by norm_num, same.symm⟩)
  have rounded := roundHalfEven_scaled (x.exponent - 1) proper low (.inl high)
  have carries : (2 ^ 53 : Nat) = Nat.pow 2 precision := rfl
  simp only [ofQuotient?, grid, rounded, carries, if_true, sub_add_cancel]
  rw [if_neg (by simpa [maxExponent] using regular.most), narrow]
  rfl

/-- Every quotient between the midpoints around a number is rounded to it. -/
theorem ofQuotient?_of_captures (negative : Bool) :
    ofQuotient? negative num den = some ⟨negative, x.significand, x.exponent⟩ := by
  by_cases short : (num / den : ℚ) < 2 ^ (x.exponent + 52) ∧ -1074 < x.exponent
  · exact ofQuotient?_of_narrow regular positive proper captured negative short.1 short.2
  · have missed := (floorLog2_spec positive proper).2
    have atMost := floorLog2_le_of_captures regular positive proper captured
    have grid : max (floorLog2 num den - (precision - 1 : Int)) minExponent = x.exponent := by
      have least := regular.least
      simp only [precision, minExponent]
      -- The exponent cannot be less than that of `x`: it is the least there is, or the value
      -- is large enough to have all bits.
      by_cases lowest : x.exponent = -1074
      · omega
      · have tall : (2 : ℚ) ^ (x.exponent + 52) ≤ num / den := by
          by_contra less
          exact short ⟨not_le.mp less, by omega⟩
        have : x.exponent + 52 < floorLog2 num den + 1 :=
          (zpow_lt_zpow_iff_right₀ (by norm_num)).mp (tall.trans_lt missed)
        omega
    have rounded := roundHalfEven_scaled x.exponent proper captured.low captured.2
    have fits : x.significand ≠ Nat.pow 2 precision := regular.below.ne
    simp only [ofQuotient?, grid, rounded, fits, if_false]
    rw [if_neg (by simpa [maxExponent] using regular.most)]

end Quotient

end Binary64

section Limits

-- The limit on powers of ten lies beyond all regular numbers: `2 ^ 1024` and `2 ^ -1075` are
-- compared with `10 ^ 401` and `10 ^ -401` through powers of eight.

theorem two_zpow_le_ten_zpow : (2 : ℚ) ^ (1203 : Int) ≤ 10 ^ (401 : Int) := by
  rw [show (1203 : Int) = 3 * 401 from rfl, zpow_mul]
  exact zpow_le_zpow_left₀ (by decide) (by norm_num) (by norm_num)

theorem digitCount_pos (n : Nat) : 0 < digitCount n := Nat.length_toDigits_pos

theorem lt_pow_digitCount (n : Nat) : n < 10 ^ digitCount n :=
  (Nat.length_toDigits_le_iff (by decide) (digitCount_pos n)).mp le_rfl

theorem pow_digitCount_le {n : Nat} (some : n ≠ 0) : 10 ^ (digitCount n - 1) ≤ n := by
  by_contra below
  have long := digitCount_pos n
  have more : 0 < digitCount n - 1 := by
    by_contra one
    rw [Nat.eq_zero_of_not_pos one, pow_zero] at below
    omega
  have : digitCount n ≤ digitCount n - 1 :=
    (Nat.length_toDigits_le_iff (by decide) more).mpr (not_le.mp below)
  omega

/-- The leading digit of a decimal that is not too large stands at a small power of ten. -/
theorem Decimal.exponent_le {decimal : Decimal} (some : decimal.digits ≠ 0)
    (below : decimal.value < 2 ^ (1024 : Int)) :
    decimal.exponent + digitCount decimal.digits ≤ 401 := by
  have long := digitCount_pos decimal.digits
  have digits : (10 : ℚ) ^ (digitCount decimal.digits - 1 : Int) ≤ decimal.digits := by
    rw [show (digitCount decimal.digits - 1 : Int) = (digitCount decimal.digits - 1 : Nat) by omega]
    exact_mod_cast pow_digitCount_le some
  by_contra huge
  have beyond : 401 ≤ (digitCount decimal.digits - 1 : Int) + decimal.exponent := by omega
  apply lt_irrefl decimal.value
  calc decimal.value < 2 ^ (1024 : Int) := below
    _ ≤ 2 ^ (1203 : Int) := zpow_le_zpow_right₀ (by norm_num) (by decide)
    _ ≤ 10 ^ (401 : Int) := two_zpow_le_ten_zpow
    _ ≤ 10 ^ ((digitCount decimal.digits - 1 : Int) + decimal.exponent) :=
        zpow_le_zpow_right₀ (by norm_num) beyond
    _ = 10 ^ (digitCount decimal.digits - 1 : Int) * 10 ^ decimal.exponent := by
        rw [zpow_add₀ (by norm_num)]
    _ ≤ decimal.value := mul_le_mul_of_nonneg_right digits (by positivity)

/-- The leading digit of a decimal that is not too small stands at no small power of ten. -/
theorem Decimal.le_exponent {decimal : Decimal} (above : 2 ^ (-1075 : Int) ≤ decimal.value) :
    -400 ≤ decimal.exponent + digitCount decimal.digits := by
  have digits : (decimal.digits : ℚ) < 10 ^ (digitCount decimal.digits : Int) := by
    exact_mod_cast lt_pow_digitCount decimal.digits
  by_contra tiny
  have small : digitCount decimal.digits + decimal.exponent ≤ -401 := by omega
  apply lt_irrefl decimal.value
  calc decimal.value < 10 ^ (digitCount decimal.digits : Int) * 10 ^ decimal.exponent :=
        mul_lt_mul_of_pos_right digits (by positivity)
    _ = 10 ^ (digitCount decimal.digits + decimal.exponent) := by rw [zpow_add₀ (by norm_num)]
    _ ≤ 10 ^ (-401 : Int) := zpow_le_zpow_right₀ (by norm_num) small
    _ ≤ 2 ^ (-1203 : Int) := by
        rw [zpow_neg, zpow_neg]
        exact inv_anti₀ (by positivity) two_zpow_le_ten_zpow
    _ ≤ 2 ^ (-1075 : Int) := zpow_le_zpow_right₀ (by norm_num) (by decide)
    _ ≤ decimal.value := above

end Limits

theorem Decimal.quotient_eq (decimal : Decimal) :
    ((decimal.digits * powerOf 10 decimal.exponent : Nat) : ℚ) /
      (powerOf 10 (-decimal.exponent) : Nat) = decimal.value := by
  have tens : (powerOf 10 (-decimal.exponent) : ℚ) ≠ 0 := by
    exact_mod_cast (powerOf_pos (by decide) _).ne'
  push_cast [powerOf_eq 10 (by decide) decimal.exponent]
  rw [Decimal.value]
  field_simp

namespace Binary64

section Decimals

variable {x : Binary64} {decimal : Decimal} (regular : x.Regular) (positive : 0 < x.significand)
  (captured : x.Captures decimal.value)

include regular positive captured

/-- What a positive number captures is at least half the smallest number. -/
theorem Captures.le : 2 ^ (-1075 : Int) ≤ decimal.value := by
  have one : (1 : ℚ) ≤ x.significand := by exact_mod_cast positive
  have unit : (2 : ℚ) ^ (-1074 : Int) ≤ 2 ^ x.exponent :=
    zpow_le_zpow_right₀ (by norm_num) regular.least
  calc (2 : ℚ) ^ (-1075 : Int) = (1 - 1 / 2) * 2 ^ (-1074 : Int) := by
        rw [show (-1075 : Int) = -1 + -1074 from rfl, zpow_add₀ (by norm_num)]
        norm_num
    _ ≤ (x.significand - 1 / 2) * 2 ^ x.exponent :=
        mul_le_mul (by linarith) unit (by positivity) (by linarith)
    _ ≤ decimal.value := captured.low.elim le_of_lt (fun same => same.2.ge)

theorem Captures.digits_ne_zero : decimal.digits ≠ 0 := by
  intro none
  have above := captured.le regular positive
  have zero : decimal.value = 0 := by simp [Decimal.value, none]
  rw [zero] at above
  exact absurd above (not_le.mpr (by positivity))

/-- The limits on decimals are never met by those between the midpoints around a number. -/
theorem Captures.exponent_mem :
    -400 ≤ decimal.exponent + digitCount decimal.digits ∧
      decimal.exponent + digitCount decimal.digits ≤ 401 := by
  have below : decimal.value < 2 ^ (1024 : Int) := by
    refine (captured.lt regular).trans_le (zpow_le_zpow_right₀ (by norm_num) ?_)
    linarith [regular.most]
  exact ⟨Decimal.le_exponent (captured.le regular positive),
    Decimal.exponent_le (captured.digits_ne_zero regular positive) below⟩

/-- Every decimal between the midpoints around a positive number is rounded to it. -/
theorem nearest?_of_captures (negative : Bool) :
    nearest? negative decimal = some ⟨negative, x.significand, x.exponent⟩ := by
  have some := captured.digits_ne_zero regular positive
  obtain ⟨atLeast, atMost⟩ := captured.exponent_mem regular positive
  have notHuge : ¬ decimalLimit < decimal.exponent := by
    have := digitCount_pos decimal.digits
    simp only [decimalLimit]
    omega
  have notTiny : ¬ decimal.exponent + digitCount decimal.digits < -decimalLimit :=
    not_lt.mpr atLeast
  rw [nearest?, if_neg some, if_neg notHuge, if_neg notTiny]
  exact ofQuotient?_of_captures regular
    (Nat.mul_pos (Nat.pos_of_ne_zero some) (powerOf_pos (by decide) _)) (powerOf_pos (by decide) _)
    (decimal.quotient_eq ▸ captured) negative

end Decimals

/-- **Reading back.** A positive number is the nearest one to every decimal that has the value of
its shortest one. -/
theorem nearest?_of_value_shortest {x : Binary64} {decimal : Decimal} (regular : x.Regular)
    (positive : 0 < x.significand) (same : decimal.value = x.shortest.value) :
    nearest? x.negative decimal = some x :=
  nearest?_of_captures regular positive (same ▸ captures_shortest positive) x.negative

end Binary64

end Toolsmith
