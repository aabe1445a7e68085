import Mathlib
import Toolsmith.Number.Estimate
import Toolsmith.Proofs.Number.Rounding

/-! # Estimates of decimals

Rounding is monotone (`Binary64.ofQuotient?_mono`), and so are the products and quotients that an
estimate is computed from. Whether one of them is too large is therefore decided by the largest
digits that a power of ten can stand behind, and these are computed (`Binary64.exists_estimate`).
Where the digits and the power are binary numbers themselves, nothing is rounded before the result,
which then is the nearest number (`Binary64.estimate?_of_captures`).
-/

namespace Toolsmith

section RoundHalfEven

theorem roundHalfEven_le {num den bound : Nat} (positive : 0 < den) (below : num ≤ bound * den) :
    roundHalfEven num den ≤ bound := by
  have quotient : num / den ≤ bound := Nat.div_le_of_le_mul (Nat.mul_comm den bound ▸ below)
  rcases quotient.lt_or_eq with less | same
  · rcases roundHalfEven_mem num den with rounded | rounded <;> omega
  · -- All of the quotient is used up, so that nothing is left to be rounded.
    have split := Nat.div_add_mod num den
    have rest : num % den = 0 := by
      rw [same, Nat.mul_comm] at split
      omega
    simp only [roundHalfEven, rest, Nat.mul_zero, positive, ↓reduceIte]
    exact quotient

theorem le_roundHalfEven {num den bound : Nat} (positive : 0 < den) (above : bound * den ≤ num) :
    bound ≤ roundHalfEven num den := by
  have quotient : bound ≤ num / den := (Nat.le_div_iff_mul_le positive).mpr above
  rcases roundHalfEven_mem num den with rounded | rounded <;> omega

theorem roundHalfEven_mul (num den : Nat) {factor : Nat} (positive : 0 < factor) :
    roundHalfEven (num * factor) (den * factor) = roundHalfEven num den := by
  have quotient : num * factor / (den * factor) = num / den := Nat.mul_div_mul_right _ _ positive
  have rest : num * factor % (den * factor) = num % den * factor := Nat.mul_mod_mul_right ..
  have less (a b : Nat) : a * factor < b * factor ↔ a < b := Nat.mul_lt_mul_right positive
  simp only [roundHalfEven, quotient, rest, ← Nat.mul_assoc, less]

/-- Rounding is monotone. -/
theorem roundHalfEven_mono {num den num' den' : Nat} (proper : 0 < den) (proper' : 0 < den')
    (le : num * den' ≤ num' * den) : roundHalfEven num den ≤ roundHalfEven num' den' := by
  rw [← roundHalfEven_mul num den proper', ← roundHalfEven_mul num' den' proper,
    Nat.mul_comm den' den]
  have positive : 0 < den * den' := Nat.mul_pos proper proper'
  generalize den * den' = common at positive
  generalize num * den' = small at le
  generalize num' * den = large at le
  have quotients : small / common ≤ large / common := Nat.div_le_div_right le
  rcases quotients.lt_or_eq with less | same
  · rcases roundHalfEven_mem small common with rounded | rounded <;>
      rcases roundHalfEven_mem large common with other | other <;> omega
  · have split := Nat.div_add_mod small common
    have split' := Nat.div_add_mod large common
    rw [same] at split
    simp only [roundHalfEven, same]
    split_ifs <;> omega

end RoundHalfEven

namespace Binary64

section Grid

variable {num den : Nat}

/-- The exponent of the grid that a quotient is rounded on. -/
def gridExponent (num den : Nat) : Int :=
  max (floorLog2 num den - (precision - 1 : Int)) minExponent

/-- The multiple of the grid that a quotient is rounded to. -/
def gridSignificand (num den : Nat) : Nat :=
  roundHalfEven (num * powerOf 2 (-gridExponent num den)) (den * powerOf 2 (gridExponent num den))

theorem ofQuotient?_eq (negative : Bool) (num den : Nat) : ofQuotient? negative num den =
    let (significand, exponent) :=
      if gridSignificand num den = 2 ^ 53 then (2 ^ 52, gridExponent num den + 1)
      else (gridSignificand num den, gridExponent num den)
    if 971 < exponent then none else some ⟨negative, significand, exponent⟩ := rfl

/-- A quotient that is not too large is rounded to its multiple of the grid. -/
theorem exists_of_grid (negative : Bool) (fits : gridExponent num den ≤ 971)
    (carries : gridSignificand num den = 2 ^ 53 → gridExponent num den < 971) :
    ∃ x, ofQuotient? negative num den = some x ∧
      x.magnitude = gridSignificand num den * 2 ^ gridExponent num den := by
  rw [ofQuotient?_eq]
  by_cases full : gridSignificand num den = 2 ^ 53
  · have more := carries full
    simp only [full, ↓reduceIte]
    rw [if_neg (by omega)]
    refine ⟨_, rfl, ?_⟩
    rw [magnitude, zpow_add₀ (by norm_num)]
    push_cast
    ring
  · simp only [full, ↓reduceIte]
    rw [if_neg (not_lt.mpr fits)]
    exact ⟨_, rfl, rfl⟩

/-- A quotient that is not too large is rounded to a multiple of the grid it lies on. -/
theorem grid_of_some {negative : Bool} {x : Binary64}
    (found : ofQuotient? negative num den = some x) : gridExponent num den ≤ 971 ∧
      (gridSignificand num den = 2 ^ 53 → gridExponent num den < 971) ∧
      x.magnitude = gridSignificand num den * 2 ^ gridExponent num den := by
  have bounds : gridExponent num den ≤ 971 ∧
      (gridSignificand num den = 2 ^ 53 → gridExponent num den < 971) := by
    rw [ofQuotient?_eq] at found
    by_cases full : gridSignificand num den = 2 ^ 53
    · simp only [full, ↓reduceIte] at found
      split at found
      · cases found
      · omega
    · simp only [full, ↓reduceIte] at found
      split at found
      · cases found
      · exact ⟨by omega, fun same => absurd same full⟩
  obtain ⟨other, found', made⟩ := exists_of_grid negative bounds.1 bounds.2
  obtain rfl := Option.some.inj (found.symm.trans found')
  exact ⟨bounds.1, bounds.2, made⟩

/-- A comparison with a multiple of a power of two, cleared of denominators. -/
theorem scaled_le_iff (proper : 0 < den) (exponent : Int) (bound : Nat) :
    (num * powerOf 2 (-exponent) ≤ bound * (den * powerOf 2 exponent) ↔
        (num / den : ℚ) ≤ bound * 2 ^ exponent) ∧
      (bound * (den * powerOf 2 exponent) ≤ num * powerOf 2 (-exponent) ↔
        bound * 2 ^ exponent ≤ (num / den : ℚ)) := by
  have dens : (0 : ℚ) < den := by exact_mod_cast proper
  have unit : (0 : ℚ) < powerOf 2 (-exponent) := by exact_mod_cast powerOf_pos (by decide) _
  have side : ((bound * (den * powerOf 2 exponent) : Nat) : ℚ) =
      bound * 2 ^ exponent * den * powerOf 2 (-exponent) := by
    push_cast [powerOf_eq 2 (by decide) exponent]
    ring
  constructor
  · rw [← Nat.cast_le (α := ℚ), side, Nat.cast_mul, mul_le_mul_iff_left₀ unit, div_le_iff₀ dens]
  · rw [← Nat.cast_le (α := ℚ), side, Nat.cast_mul, mul_le_mul_iff_left₀ unit, le_div_iff₀ dens]

/-- On its grid, a quotient has at most one significand more than a number has. -/
theorem gridSignificand_le (positive : 0 < num) (proper : 0 < den) :
    gridSignificand num den ≤ 2 ^ 53 := by
  refine roundHalfEven_le (Nat.mul_pos proper (powerOf_pos (by decide) _)) ?_
  refine (scaled_le_iff proper _ _).1.mpr ?_
  have above := (floorLog2_spec positive proper).2
  have grid : floorLog2 num den + 1 ≤ 53 + gridExponent num den := by
    simp only [gridExponent, precision]
    omega
  calc (num / den : ℚ) ≤ 2 ^ (floorLog2 num den + 1) := above.le
    _ ≤ 2 ^ (53 + gridExponent num den) := zpow_le_zpow_right₀ (by norm_num) grid
    _ = ((2 ^ 53 : Nat) : ℚ) * 2 ^ gridExponent num den := by
      rw [zpow_add₀ (by norm_num)]
      norm_num

/-- Above the finest grid all bits of a significand are used. -/
theorem le_gridSignificand (positive : 0 < num) (proper : 0 < den)
    (coarse : -1074 < gridExponent num den) : 2 ^ 52 ≤ gridSignificand num den := by
  refine le_roundHalfEven (Nat.mul_pos proper (powerOf_pos (by decide) _)) ?_
  refine (scaled_le_iff proper _ _).2.mpr ?_
  have reached := (floorLog2_spec positive proper).1
  have grid : 52 + gridExponent num den = floorLog2 num den := by
    simp only [gridExponent, precision, minExponent] at coarse ⊢
    omega
  calc ((2 ^ 52 : Nat) : ℚ) * 2 ^ gridExponent num den = 2 ^ floorLog2 num den := by
        rw [← grid, zpow_add₀ (by norm_num)]
        norm_num
    _ ≤ num / den := reached

variable {num' den' : Nat} (positive : 0 < num) (proper : 0 < den) (proper' : 0 < den')
  (le : num * den' ≤ num' * den)

include positive proper proper' le

/-- Smaller quotients lie on finer grids. -/
theorem gridExponent_mono : gridExponent num den ≤ gridExponent num' den' := by
  have dens : (0 : ℚ) < den := by exact_mod_cast proper
  have dens' : (0 : ℚ) < den' := by exact_mod_cast proper'
  have positive' : 0 < num' :=
    Nat.pos_of_mul_pos_right (lt_of_lt_of_le (Nat.mul_pos positive proper') le)
  have values : (num / den : ℚ) ≤ num' / den' := by
    rw [div_le_div_iff₀ dens dens']
    exact_mod_cast le
  have reached := (floorLog2_spec positive proper).1
  have missed := (floorLog2_spec positive' proper').2
  have logs : floorLog2 num den < floorLog2 num' den' + 1 :=
    (zpow_lt_zpow_iff_right₀ (by norm_num)).mp ((reached.trans values).trans_lt missed)
  simp only [gridExponent]
  omega

/-- **Rounding is monotone.** What is not more than a quotient is not too large when that is not,
and is rounded to nothing more. -/
theorem ofQuotient?_mono (negative : Bool) {negative' : Bool} {y : Binary64}
    (found : ofQuotient? negative' num' den' = some y) :
    ∃ x, ofQuotient? negative num den = some x ∧ x.magnitude ≤ y.magnitude := by
  obtain ⟨fits, carries, magnitude⟩ := grid_of_some found
  have positive' : 0 < num' :=
    Nat.pos_of_mul_pos_right (lt_of_lt_of_le (Nat.mul_pos positive proper') le)
  have atMost := gridSignificand_le positive proper
  have unit : (0 : ℚ) < 2 ^ gridExponent num den := by positivity
  rcases (gridExponent_mono positive proper proper' le).lt_or_eq with finer | same
  · -- On a finer grid nothing is rounded beyond the next power of two.
    have all := le_gridSignificand positive' proper' (by
      have : -1074 ≤ gridExponent num den := le_max_right _ _
      omega)
    obtain ⟨x, made, value⟩ := @exists_of_grid num den negative (by omega)
      fun _ => by omega
    refine ⟨x, made, ?_⟩
    rw [value, magnitude]
    calc (gridSignificand num den : ℚ) * 2 ^ gridExponent num den
        ≤ 2 ^ (53 : Int) * 2 ^ gridExponent num den := by
          refine mul_le_mul_of_nonneg_right ?_ unit.le
          exact_mod_cast atMost
      _ = 2 ^ (52 : Int) * 2 ^ (gridExponent num den + 1) := by
          rw [← zpow_add₀ (by norm_num), ← zpow_add₀ (by norm_num)]
          congr 1
          ring
      _ ≤ gridSignificand num' den' * 2 ^ gridExponent num' den' := by
          refine mul_le_mul ?_ (zpow_le_zpow_right₀ (by norm_num) (by omega)) (by positivity)
            (by positivity)
          exact_mod_cast all
  · have rounded : gridSignificand num den ≤ gridSignificand num' den' := by
      unfold gridSignificand
      rw [same]
      have power := @powerOf_pos 2 (by decide)
      refine roundHalfEven_mono (Nat.mul_pos proper (power _)) (Nat.mul_pos proper' (power _)) ?_
      calc num * powerOf 2 (-gridExponent num' den') * (den' * powerOf 2 (gridExponent num' den'))
          = num * den' * (powerOf 2 (-gridExponent num' den') *
              powerOf 2 (gridExponent num' den')) := by ring
        _ ≤ num' * den * (powerOf 2 (-gridExponent num' den') *
              powerOf 2 (gridExponent num' den')) := Nat.mul_le_mul_right _ le
        _ = num' * powerOf 2 (-gridExponent num' den') *
              (den * powerOf 2 (gridExponent num' den')) := by ring
    have atMost' := gridSignificand_le positive' proper'
    obtain ⟨x, made, value⟩ := @exists_of_grid num den negative (by omega)
      fun full => by
        rw [same]
        exact carries (by omega)
    refine ⟨x, made, ?_⟩
    rw [value, magnitude, same]
    exact mul_le_mul_of_nonneg_right (by exact_mod_cast rounded) (by positivity)

end Grid

section Operations

theorem denominator_pos (x : Binary64) : 0 < x.denominator := powerOf_pos (by decide) _

theorem value_numerator (x : Binary64) : (x.numerator / x.denominator : ℚ) = x.magnitude := by
  have unit : (powerOf 2 (-x.exponent) : ℚ) ≠ 0 := by
    exact_mod_cast (@powerOf_pos 2 (by decide) _).ne'
  rw [numerator, denominator, Nat.cast_mul, powerOf_eq 2 (by decide) x.exponent, magnitude]
  push_cast
  field_simp

theorem magnitude_nonneg (x : Binary64) : 0 ≤ x.magnitude := by
  unfold magnitude
  positivity

theorem magnitude_zero (negative : Bool) : (zero negative).magnitude = 0 := by
  simp [magnitude, zero]

theorem magnitude_pos {x : Binary64} : 0 < x.magnitude ↔ 0 < x.numerator := by
  have proper : (0 : ℚ) < x.denominator := by exact_mod_cast x.denominator_pos
  rw [← value_numerator, div_pos_iff_of_pos_right proper]
  exact_mod_cast Iff.rfl

theorem value_times (x y : Binary64) :
    ((x.numerator * y.numerator : Nat) / (x.denominator * y.denominator : Nat) : ℚ) =
      x.magnitude * y.magnitude := by
  rw [← value_numerator, ← value_numerator, div_mul_div_comm]
  push_cast
  rfl

theorem value_over (x y : Binary64) :
    ((x.numerator * y.denominator : Nat) / (x.denominator * y.numerator : Nat) : ℚ) =
      x.magnitude / y.magnitude := by
  rw [← value_numerator, ← value_numerator, div_div_div_eq]
  push_cast
  rfl

theorem round?_mono (negative : Bool) {negative' : Bool} {num den num' den' : Nat}
    (proper : 0 < den) (proper' : 0 < den') (le : (num / den : ℚ) ≤ num' / den') {y : Binary64}
    (found : round? negative' num' den' = some y) :
    ∃ x, round? negative num den = some x ∧ x.magnitude ≤ y.magnitude := by
  have dens : (0 : ℚ) < den := by exact_mod_cast proper
  have dens' : (0 : ℚ) < den' := by exact_mod_cast proper'
  have crossed : num * den' ≤ num' * den := by
    rw [div_le_div_iff₀ dens dens'] at le
    exact_mod_cast le
  unfold round? at found ⊢
  by_cases none : num = 0
  · rw [if_pos none]
    exact ⟨_, rfl, (magnitude_zero negative).trans_le y.magnitude_nonneg⟩
  · have positive := Nat.pos_of_ne_zero none
    have positive' : 0 < num' :=
      Nat.pos_of_mul_pos_right (lt_of_lt_of_le (Nat.mul_pos positive proper') crossed)
    rw [if_neg positive'.ne'] at found
    rw [if_neg none]
    exact ofQuotient?_mono positive proper proper' crossed negative found

variable {x y factor other bound : Binary64} (le : x.magnitude ≤ y.magnitude)

include le

theorem times?_mono (le' : factor.magnitude ≤ other.magnitude)
    (found : y.times? other = some bound) :
    ∃ product, x.times? factor = some product ∧ product.magnitude ≤ bound.magnitude := by
  refine round?_mono _ (Nat.mul_pos x.denominator_pos factor.denominator_pos)
    (Nat.mul_pos y.denominator_pos other.denominator_pos) ?_ found
  rw [value_times, value_times]
  exact mul_le_mul le le' factor.magnitude_nonneg y.magnitude_nonneg

theorem over?_mono (positive : 0 < other.magnitude) (le' : other.magnitude ≤ factor.magnitude)
    (found : y.over? other = some bound) :
    ∃ quotient, x.over? factor = some quotient ∧ quotient.magnitude ≤ bound.magnitude := by
  refine round?_mono _
    (Nat.mul_pos x.denominator_pos (magnitude_pos.mp (positive.trans_le le')))
    (Nat.mul_pos y.denominator_pos (magnitude_pos.mp positive)) ?_ found
  rw [value_over, value_over]
  exact div_le_div₀ y.magnitude_nonneg le positive le'

end Operations

section Naturals

theorem nearest?_natural (negative : Bool) (n : Nat) :
    nearest? negative ⟨n, 0⟩ = round? negative n 1 := by
  have tiny : ¬ (0 : Int) + digitCount n < -decimalLimit := by
    simp only [decimalLimit]
    omega
  have huge : ¬ decimalLimit < (0 : Int) := by decide
  have one : powerOf 10 0 = 1 := rfl
  simp only [nearest?, round?, tiny, huge, ↓reduceIte, neg_zero, one, Nat.mul_one]

theorem nearest?_natural_mono (negative : Bool) {negative' : Bool} {n m : Nat} (le : n ≤ m)
    {y : Binary64} (found : nearest? negative' ⟨m, 0⟩ = some y) :
    ∃ x, nearest? negative ⟨n, 0⟩ = some x ∧ x.magnitude ≤ y.magnitude := by
  rw [nearest?_natural] at found ⊢
  refine round?_mono negative Nat.one_pos Nat.one_pos ?_ found
  gcongr

theorem tenTo?_eq {power : Nat} (small : power ≤ largestPower) :
    tenTo? power = round? false (10 ^ power) 1 := by
  have tiny : ¬ (power : Int) + digitCount 1 < -decimalLimit := by
    simp only [decimalLimit]
    omega
  have huge : ¬ decimalLimit < (power : Int) := by
    simp only [decimalLimit, largestPower] at small ⊢
    omega
  have up : powerOf 10 power = 10 ^ power := rfl
  have down : powerOf 10 (-(power : Int)) = 1 := by simp [powerOf]
  have some : 10 ^ power ≠ 0 := pow_ne_zero _ (by decide)
  simp only [tenTo?, nearest?, round?, tiny, huge, up, down, some, one_ne_zero, ↓reduceIte,
    Nat.one_mul]

theorem tenTo?_mono {power greater : Nat} (le : power ≤ greater) (small : greater ≤ largestPower)
    {y : Binary64} (found : tenTo? greater = some y) :
    ∃ x, tenTo? power = some x ∧ x.magnitude ≤ y.magnitude := by
  rw [tenTo?_eq small] at found
  rw [tenTo?_eq (le.trans small)]
  refine round?_mono false Nat.one_pos Nat.one_pos ?_ found
  have powers : 10 ^ power ≤ 10 ^ greater := Nat.pow_le_pow_right (by decide) le
  gcongr

/-- Powers of ten are numbers, and none is less than one. -/
theorem exists_tenTo {power : Nat} (small : power ≤ largestPower) :
    ∃ x, tenTo? power = some x ∧ 1 ≤ x.magnitude := by
  have greatest : (tenTo? largestPower).isSome = true := by decide +kernel
  have least : tenTo? 0 = some ⟨false, 2 ^ 52, -52⟩ := by decide +kernel
  obtain ⟨bound, found⟩ := Option.isSome_iff_exists.mp greatest
  obtain ⟨x, made, _⟩ := tenTo?_mono small le_rfl found
  obtain ⟨one, same, above⟩ := tenTo?_mono (Nat.zero_le power) small made
  obtain rfl := Option.some.inj (least.symm.trans same)
  refine ⟨x, made, le_trans (le_of_eq ?_) above⟩
  rw [magnitude]
  norm_num

end Naturals

section Existence

/-- The number nearest to the largest digits. -/
def mostDigits : Binary64 := ⟨false, 2 ^ 52, 12⟩

theorem nearest?_mostDigits : nearest? false ⟨2 ^ 64 - 1, 0⟩ = some mostDigits := by decide +kernel

theorem over?_mostDigits {x factor : Binary64} (le : x.magnitude ≤ mostDigits.magnitude)
    (atLeast : 1 ≤ factor.magnitude) :
    ∃ quotient, x.over? factor = some quotient ∧ quotient.magnitude ≤ mostDigits.magnitude := by
  have same : mostDigits.over? ⟨false, 2 ^ 52, -52⟩ = some mostDigits := by decide +kernel
  have one : magnitude ⟨false, 2 ^ 52, -52⟩ = 1 := by
    rw [magnitude]
    norm_num
  exact over?_mono le (one.symm ▸ one_pos) (one.trans_le atLeast) same

/-- What is at most the largest significand stays so when it is divided by powers of ten. -/
theorem exists_reduced {power : Nat} (small : power ≤ largestPower) (rounds : Nat) {x : Binary64}
    (le : x.magnitude ≤ mostDigits.magnitude) : ∃ y, reduced? power rounds x = some y := by
  induction rounds generalizing x with
  | zero =>
      obtain ⟨factor, made, atLeast⟩ := exists_tenTo small
      obtain ⟨quotient, found, _⟩ := over?_mostDigits le atLeast
      exact ⟨quotient, by simp only [reduced?, made, Option.bind_eq_bind, Option.bind_some, found]⟩
  | succ rounds ih =>
      by_cases none : x.significand = 0
      · exact ⟨x, if_pos none⟩
      · obtain ⟨factor, made, atLeast⟩ := exists_tenTo (le_refl largestPower)
        obtain ⟨quotient, found, less⟩ := over?_mostDigits le atLeast
        obtain ⟨y, last⟩ := ih less
        refine ⟨y, ?_⟩
        simp only [reduced?, none, ↓reduceIte, made, Option.bind_eq_bind, Option.bind_some, found,
          last]

/-- The midpoint below the largest number. -/
def greatestMid : Nat := (2 ^ 54 - 3) * 2 ^ 970

/-- The midpoint above a number that is not the largest is at most the one below the largest. -/
theorem Regular.upperMid_le {x : Binary64} (regular : x.Regular)
    (less : ¬ (x.significand = 2 ^ 53 - 1 ∧ x.exponent = 971)) : x.upperMid ≤ greatestMid := by
  have below := regular.below
  have most := regular.most
  have double : (2 : ℚ) ^ (971 : Int) = 2 * 2 ^ (970 : Int) :=
    (zpow_natCast 2 971).trans (pow_succ' 2 970)
  have whole : (greatestMid : ℚ) = (2 ^ 53 - 2 + 1 / 2) * 2 ^ (971 : Int) := by
    have power : ((2 ^ 970 : Nat) : ℚ) = 2 ^ (970 : Int) := Nat.cast_pow 2 970
    have parts : (greatestMid : ℚ) = (2 ^ 54 - 3 : Nat) * (2 ^ 970 : Nat) := Nat.cast_mul _ _
    rw [parts, power, double]
    generalize (2 : ℚ) ^ (970 : Int) = unit
    push_cast
    ring
  rw [upperMid, whole]
  rcases most.lt_or_eq with smaller | same
  · -- The numbers with a smaller exponent are at most half as large.
    have significand : (x.significand : ℚ) + 1 ≤ 2 ^ 53 := by exact_mod_cast below
    have power : (2 : ℚ) ^ x.exponent ≤ 2 ^ (970 : Int) :=
      zpow_le_zpow_right₀ (by norm_num) (by omega)
    rw [double, ← mul_assoc]
    exact mul_le_mul (by linarith) power (by positivity) (by norm_num)
  · have significand : (x.significand : ℚ) + 2 ≤ 2 ^ 53 := by
      exact_mod_cast (show x.significand + 2 ≤ 2 ^ 53 by omega)
    rw [same]
    exact mul_le_mul_of_nonneg_right (by linarith) (by positivity)

/-- The largest digits that can stand before a power of ten have a product with it. -/
theorem isSome_times : ((tenTo? 288).any fun factor => (mostDigits.times? factor).isSome) = true ∧
    ∀ power < 309, 288 < power → ((tenTo? power).any fun factor =>
      (nearest? false ⟨min (2 ^ 64 - 1) (greatestMid / 10 ^ power), 0⟩).any fun digits =>
        (digits.times? factor).isSome) = true := by
  decide +kernel

/-- Digits times a power of ten are estimated, if their product is not too large. -/
theorem exists_times {digits power : Nat} (fits : digits < 2 ^ 64) (small : power ≤ largestPower)
    (below : digits * 10 ^ power ≤ greatestMid) :
    ∃ start factor product, nearest? false ⟨digits, 0⟩ = some start ∧
      tenTo? power = some factor ∧ start.times? factor = some product := by
  obtain ⟨few, many⟩ := isSome_times
  have atMost : digits ≤ 2 ^ 64 - 1 := Nat.le_sub_one_of_lt fits
  by_cases large : 288 < power
  · obtain ⟨factor, made, all⟩ := (Option.any_eq_true _ _).mp
      (many power (Nat.lt_succ_of_le small) large)
    obtain ⟨most, found, multiplies⟩ := (Option.any_eq_true _ _).mp all
    obtain ⟨bound, holds⟩ := Option.isSome_iff_exists.mp multiplies
    have within : digits ≤ min (2 ^ 64 - 1) (greatestMid / 10 ^ power) :=
      le_min atMost ((Nat.le_div_iff_mul_le (pow_pos (by decide) _)).mpr below)
    obtain ⟨start, begun, le⟩ := nearest?_natural_mono false within found
    obtain ⟨product, done, _⟩ := times?_mono le le_rfl holds
    exact ⟨start, factor, product, begun, made, done⟩
  · obtain ⟨greatest, found, multiplies⟩ := (Option.any_eq_true _ _).mp few
    obtain ⟨bound, holds⟩ := Option.isSome_iff_exists.mp multiplies
    obtain ⟨start, begun, le⟩ := nearest?_natural_mono false atMost nearest?_mostDigits
    obtain ⟨factor, made, le'⟩ := tenTo?_mono (not_lt.mp large) (by decide) found
    obtain ⟨product, done, _⟩ := times?_mono le le' holds
    exact ⟨start, factor, product, begun, made, done⟩

/-- **Estimates.** A decimal below the largest number has an estimate. -/
theorem exists_estimate {decimal : Decimal} (fits : decimal.digits < 2 ^ 64)
    (below : decimal.value ≤ greatestMid) (negative : Bool) :
    ∃ x, estimate? negative decimal = some x := by
  obtain ⟨digits, exponent⟩ := decimal
  suffices scaled : ∃ start found, nearest? false ⟨digits, 0⟩ = some start ∧
      start.scaled? exponent = some found by
    obtain ⟨start, found, begun, done⟩ := scaled
    refine ⟨{ found with negative }, ?_⟩
    simp only [estimate?, begun, done, Option.bind_eq_bind, Option.bind_some, Option.pure_def]
  obtain ⟨start, begun, le⟩ := nearest?_natural_mono false (Nat.le_sub_one_of_lt fits)
    nearest?_mostDigits
  by_cases up : 0 ≤ exponent
  · obtain ⟨power, rfl⟩ := Int.eq_ofNat_of_zero_le up
    by_cases small : power ≤ largestPower
    · have product : digits * 10 ^ power ≤ greatestMid := by
        rw [Decimal.value, zpow_natCast] at below
        exact_mod_cast below
      obtain ⟨other, factor, product, same, made, done⟩ := exists_times fits small product
      obtain rfl := Option.some.inj (begun.symm.trans same)
      refine ⟨start, product, begun, ?_⟩
      have within : (power : Int) ≤ largestPower := by exact_mod_cast small
      simp only [scaled?, up, within, ↓reduceIte, Int.toNat_natCast, made, Option.bind_eq_bind,
        Option.bind_some, done]
    · -- Only zero has a value below the largest number when the power has none.
      have none : digits = 0 := by
        by_contra some
        have beyond : greatestMid < 10 ^ (largestPower + 1) := by decide +kernel
        have product : digits * 10 ^ power ≤ greatestMid := by
          rw [Decimal.value, zpow_natCast] at below
          exact_mod_cast below
        have powers : 10 ^ (largestPower + 1) ≤ 10 ^ power :=
          Nat.pow_le_pow_right (by decide) (not_le.mp small)
        have positive := Nat.le_mul_of_pos_left (10 ^ power) (Nat.pos_of_ne_zero some)
        omega
      subst none
      obtain rfl := Option.some.inj begun
      have large : ¬ (power : Int) ≤ largestPower := by exact_mod_cast small
      refine ⟨_, zero false, begun, ?_⟩
      simp only [scaled?, up, large, ↓reduceIte]
      rfl
  · have small : (-exponent).toNat - largestPower * (((-exponent).toNat - 1) / largestPower) ≤
        largestPower := by
      simp only [largestPower]
      omega
    obtain ⟨y, done⟩ := exists_reduced small (((-exponent).toNat - 1) / largestPower) le
    refine ⟨start, y, begun, ?_⟩
    simp only [scaled?, up, ↓reduceIte, done]

end Existence

section Exactness

/-- A number below `2 ^ 53` is a binary number. -/
theorem nearest?_small {n : Nat} (positive : 0 < n) (small : n < 2 ^ 53) :
    ∃ x, nearest? false ⟨n, 0⟩ = some x ∧ x.negative = false ∧ x.magnitude = n := by
  have low := Nat.log2_self_le positive.ne'
  have high := Nat.lt_log2_self (n := n)
  have bits : n.log2 < 53 := (Nat.log2_lt positive.ne').mpr small
  -- The digits are moved up until all bits of the significand are used.
  let x : Binary64 := ⟨false, n * 2 ^ (52 - n.log2), -(52 - n.log2 : Nat)⟩
  have value : x.magnitude = n := by
    simp only [x, magnitude, zpow_neg, zpow_natCast]
    push_cast
    field_simp
  have top : 2 ^ 52 = 2 ^ n.log2 * 2 ^ (52 - n.log2) := by
    rw [← pow_add]
    congr 1
    omega
  have regular : x.Regular := by
    refine ⟨?_, ?_, ?_, .inl ?_⟩
    · calc n * 2 ^ (52 - n.log2) < 2 ^ (n.log2 + 1) * 2 ^ (52 - n.log2) :=
            Nat.mul_lt_mul_of_pos_right high (Nat.two_pow_pos _)
        _ = 2 ^ 53 := by
          rw [← pow_add]
          congr 1
          omega
    · simp only [x]
      omega
    · simp only [x]
      omega
    · exact top ▸ Nat.mul_le_mul_right _ low
  have captured : x.Captures (n / (1 : Nat)) := by
    rw [Nat.cast_one, div_one, ← value]
    exact x.captures_magnitude
  refine ⟨x, ?_, rfl, value⟩
  rw [nearest?_natural, round?, if_neg positive.ne']
  exact ofQuotient?_of_captures regular positive Nat.one_pos captured false

/-- The powers of ten that are binary numbers. -/
theorem tenTo?_small {power : Nat} (small : power ≤ 22) :
    ∃ x, tenTo? power = some x ∧ x.negative = false ∧ x.magnitude = 10 ^ power := by
  have all : ∀ power < 23, ((tenTo? power).any fun x =>
      x.negative = false ∧ x.numerator = 10 ^ power * x.denominator) = true := by decide +kernel
  obtain ⟨x, found, exact⟩ := (Option.any_eq_true _ _).mp (all power (Nat.lt_succ_of_le small))
  obtain ⟨sign, whole⟩ := of_decide_eq_true exact
  refine ⟨x, found, sign, ?_⟩
  have proper : (x.denominator : ℚ) ≠ 0 := by exact_mod_cast x.denominator_pos.ne'
  rw [← value_numerator, whole]
  push_cast
  field_simp

variable {x : Binary64} {num den : Nat}

theorem round?_of_captures (regular : x.Regular) (positive : 0 < num) (proper : 0 < den)
    (captured : x.Captures (num / den)) (negative : Bool) :
    round? negative num den = some ⟨negative, x.significand, x.exponent⟩ := by
  rw [round?, if_neg positive.ne']
  exact ofQuotient?_of_captures regular positive proper captured negative

/-- **Exact estimates.** Where the digits and the power of ten are binary numbers, a decimal between
the midpoints around a number has that number as its estimate. -/
theorem estimate?_of_captures {decimal : Decimal} (regular : x.Regular)
    (positive : 0 < x.significand) (captured : x.Captures decimal.value)
    (digits : decimal.digits < 2 ^ 53) (power : decimal.exponent.natAbs ≤ 22) (negative : Bool) :
    estimate? negative decimal = some ⟨negative, x.significand, x.exponent⟩ := by
  have some := Nat.pos_of_ne_zero (captured.digits_ne_zero regular positive)
  obtain ⟨start, begun, plus, value⟩ := nearest?_small some digits
  obtain ⟨factor, made, plus', value'⟩ := tenTo?_small power
  have sign : (start.negative ^^ factor.negative) = false := by rw [plus, plus']; rfl
  have first : 0 < start.numerator := magnitude_pos.mp (by rw [value]; exact_mod_cast some)
  have second : 0 < factor.numerator := magnitude_pos.mp (by rw [value']; positivity)
  suffices scaled : start.scaled? decimal.exponent =
      Option.some ⟨false, x.significand, x.exponent⟩ by
    simp only [estimate?, begun, scaled, Option.bind_eq_bind, Option.bind_some, Option.pure_def]
  by_cases up : 0 ≤ decimal.exponent
  · have within : decimal.exponent ≤ largestPower := by
      simp only [largestPower]
      omega
    have same : decimal.exponent.toNat = decimal.exponent.natAbs := by omega
    simp only [scaled?, up, within, ↓reduceIte, same, made, Option.bind_eq_bind, Option.bind_some,
      times?, sign]
    refine round?_of_captures regular (Nat.mul_pos first second)
      (Nat.mul_pos start.denominator_pos factor.denominator_pos) ?_ false
    rw [value_times, value, value', ← zpow_natCast, Int.natCast_natAbs, abs_of_nonneg up]
    exact captured
  · have rounds : (decimal.exponent.natAbs - 1) / largestPower = 0 := by
      simp only [largestPower]
      omega
    have same : (-decimal.exponent).toNat = decimal.exponent.natAbs := by omega
    simp only [scaled?, up, ↓reduceIte, rounds, Nat.mul_zero, Nat.sub_zero, same, reduced?, made,
      Option.bind_eq_bind, Option.bind_some, over?, sign]
    refine round?_of_captures regular (Nat.mul_pos first factor.denominator_pos)
      (Nat.mul_pos start.denominator_pos second) ?_ false
    rw [value_over, value, value', ← zpow_natCast, Int.natCast_natAbs,
      abs_of_neg (not_le.mp up), zpow_neg, div_inv_eq_mul]
    exact captured

end Exactness

end Binary64
end Toolsmith
