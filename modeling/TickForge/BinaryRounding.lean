import Mathlib.Data.Int.Log
import Mathlib.Data.Nat.Cast.Order.Field
import Mathlib.Data.Rat.Floor
import Mathlib.Tactic.Linarith
import Mathlib.Tactic.Positivity
import Mathlib.Tactic.Ring

/-!
# Rounding to binary digits

A number that is not negative is rounded to the nearest one of a given count of binary
digits, a half to the even digit. The exponent is unbounded, so nothing overflows and
nothing is subnormal. Rounding keeps the order and the numbers that have the digits; it
moves a number by at most half the spacing of its neighbours.
-/

namespace TickForge.BinaryRounding

set_option autoImplicit false

section Integers

/-- The nearest integer, a half to the even one. -/
def roundHalfEven (value : Rat) : Int :=
  let below := ⌊value⌋
  if value - below < 1 / 2 ∨ (value - below = 1 / 2 ∧ below % 2 = 0) then below else below + 1

theorem round_half_even_cases (value : Rat) :
    (roundHalfEven value = ⌊value⌋ ∧ value - ⌊value⌋ ≤ 1 / 2) ∨
      (roundHalfEven value = ⌊value⌋ + 1 ∧ 1 / 2 ≤ value - ⌊value⌋) := by
  unfold roundHalfEven
  dsimp only
  split_ifs with down
  · left
    refine ⟨rfl, ?_⟩
    rcases down with below | ⟨tie, _⟩
    · exact below.le
    · exact tie.le
  · right
    rw [not_or, not_lt] at down
    exact ⟨rfl, down.1⟩

theorem round_half_even_error (value : Rat) : |(roundHalfEven value : Rat) - value| ≤ 1 / 2 := by
  have floored := Int.floor_le value
  have next := Int.lt_floor_add_one value
  rw [abs_le]
  rcases round_half_even_cases value with ⟨rounded, rest⟩ | ⟨rounded, rest⟩
  · rw [rounded]
    constructor <;> linarith
  · rw [rounded]
    push_cast
    constructor <;> linarith

theorem round_half_even_int (whole : Int) : roundHalfEven whole = whole := by
  have down : (whole : Rat) - (⌊(whole : Rat)⌋ : Rat) < 1 / 2 := by
    rw [Int.floor_intCast, sub_self]
    norm_num
  rw [roundHalfEven, if_pos (.inl down), Int.floor_intCast]

theorem round_half_even_mono {lower upper : Rat} (ordered : lower ≤ upper) :
    roundHalfEven lower ≤ roundHalfEven upper := by
  have floors := Int.floor_le_floor ordered
  rcases floors.lt_or_eq with apart | same
  · -- From one integer interval to a later one rounding cannot go back.
    have first : roundHalfEven lower ≤ ⌊lower⌋ + 1 := by
      rcases round_half_even_cases lower with ⟨rounded, _⟩ | ⟨rounded, _⟩ <;> omega
    have second : ⌊upper⌋ ≤ roundHalfEven upper := by
      rcases round_half_even_cases upper with ⟨rounded, _⟩ | ⟨rounded, _⟩ <;> omega
    omega
  · unfold roundHalfEven
    dsimp only
    rw [same]
    split_ifs with lowerDown upperDown upperDown
    · exact le_rfl
    · exact Int.le_add_one le_rfl
    · exfalso
      apply lowerDown
      have rests : lower - (⌊upper⌋ : Rat) ≤ upper - ⌊upper⌋ := by linarith
      rcases upperDown with below | ⟨tie, even⟩
      · exact .inl (by linarith)
      · rcases rests.lt_or_eq with below | equal
        · exact .inl (by linarith)
        · exact .inr ⟨equal.trans tie, even⟩
    · exact le_rfl

end Integers

section Digits

variable {digits : Nat} {value : Rat}

/-- The distance of the neighbours with so many digits around a number. -/
def spacing (digits : Nat) (value : Rat) : Rat := 2 ^ (Int.log 2 value + 1 - (digits : Int))

def roundDigits (digits : Nat) (value : Rat) : Rat :=
  roundHalfEven (value / spacing digits value) * spacing digits value

theorem spacing_pos (digits : Nat) (value : Rat) : 0 < spacing digits value :=
  zpow_pos (by norm_num) _

theorem spacing_scaled (digits : Nat) (value : Rat) :
    (2 ^ digits : Rat) * spacing digits value = 2 ^ (Int.log 2 value + 1) := by
  rw [spacing, ← zpow_natCast, ← zpow_add₀ (by norm_num)]
  congr 1
  ring

theorem half_spacing_scaled (positive : 1 ≤ digits) (value : Rat) :
    (2 ^ (digits - 1) : Rat) * spacing digits value = 2 ^ Int.log 2 value := by
  rw [spacing, ← zpow_natCast, ← zpow_add₀ (by norm_num), Nat.cast_sub positive]
  congr 1
  push_cast
  ring

theorem round_digits_error (digits : Nat) (value : Rat) :
    |roundDigits digits value - value| ≤ spacing digits value / 2 := by
  have positive := spacing_pos digits value
  have rounded := round_half_even_error (value / spacing digits value)
  have scaled : roundDigits digits value - value =
      ((roundHalfEven (value / spacing digits value) : Rat) - value / spacing digits value) *
        spacing digits value := by
    rw [roundDigits, sub_mul, div_mul_cancel₀ _ positive.ne']
  rw [scaled, abs_mul, abs_of_pos positive]
  calc
    |(roundHalfEven (value / spacing digits value) : Rat) - value / spacing digits value| *
        spacing digits value ≤ 1 / 2 * spacing digits value :=
      mul_le_mul_of_nonneg_right rounded positive.le
    _ = spacing digits value / 2 := by ring

/-- A whole number of spacings is kept. -/
theorem round_digits_whole (whole : Int) (counted : value = whole * spacing digits value) :
    roundDigits digits value = value := by
  have positive := spacing_pos digits value
  have quotient : value / spacing digits value = whole := by
    rw [div_eq_iff positive.ne']
    exact counted
  rw [roundDigits, quotient, round_half_even_int]
  exact counted.symm

/-- Rounding does not pass a whole number of spacings. -/
theorem round_digits_le_whole (whole : Int) (bounded : value ≤ whole * spacing digits value) :
    roundDigits digits value ≤ whole * spacing digits value := by
  have positive := spacing_pos digits value
  apply mul_le_mul_of_nonneg_right _ positive.le
  have quotient : value / spacing digits value ≤ whole := (div_le_iff₀ positive).mpr bounded
  have rounded := round_half_even_mono quotient
  rw [round_half_even_int] at rounded
  exact_mod_cast rounded

theorem whole_le_round_digits (whole : Int) (bounded : whole * spacing digits value ≤ value) :
    whole * spacing digits value ≤ roundDigits digits value := by
  have positive := spacing_pos digits value
  apply mul_le_mul_of_nonneg_right _ positive.le
  have quotient : (whole : Rat) ≤ value / spacing digits value := (le_div_iff₀ positive).mpr bounded
  have rounded := round_half_even_mono quotient
  rw [round_half_even_int] at rounded
  exact_mod_cast rounded

theorem round_digits_zero (digits : Nat) : roundDigits digits 0 = 0 :=
  round_digits_whole 0 (by simp)

theorem round_digits_nonneg (nonneg : 0 ≤ value) : 0 ≤ roundDigits digits value := by
  have rounded : ((0 : Int) : Rat) * spacing digits value ≤ roundDigits digits value :=
    whole_le_round_digits 0 (by simpa using nonneg)
  simpa using rounded

/-- A number stays between its powers of two. -/
theorem round_digits_between (counted : 1 ≤ digits) (positive : 0 < value) :
    (2 : Rat) ^ Int.log 2 value ≤ roundDigits digits value ∧
      roundDigits digits value ≤ 2 ^ (Int.log 2 value + 1) := by
  have low := Int.zpow_log_le_self (R := Rat) one_lt_two positive
  have high := (Int.lt_zpow_succ_log_self (R := Rat) one_lt_two value).le
  constructor
  · rw [Nat.cast_ofNat, ← half_spacing_scaled counted] at low
    have rounded : ((2 ^ (digits - 1) : Int) : Rat) * spacing digits value ≤
        roundDigits digits value :=
      whole_le_round_digits _ (by push_cast; exact low)
    rw [← half_spacing_scaled counted]
    exact_mod_cast rounded
  · rw [Nat.cast_ofNat, ← spacing_scaled digits] at high
    have rounded : roundDigits digits value ≤ ((2 ^ digits : Int) : Rat) * spacing digits value :=
      round_digits_le_whole _ (by push_cast; exact high)
    rw [← spacing_scaled digits]
    exact_mod_cast rounded

/-- Rounding keeps the order. -/
theorem round_digits_mono (counted : 1 ≤ digits) {lower upper : Rat} (nonneg : 0 ≤ lower)
    (ordered : lower ≤ upper) : roundDigits digits lower ≤ roundDigits digits upper := by
  rcases nonneg.eq_or_lt with rfl | positive
  · rw [round_digits_zero]
    exact round_digits_nonneg ordered
  have exponents : Int.log 2 lower ≤ Int.log 2 upper := Int.log_mono_right positive ordered
  rcases exponents.lt_or_eq with apart | same
  · calc
      roundDigits digits lower ≤ 2 ^ (Int.log 2 lower + 1) := (round_digits_between counted positive).2
      _ ≤ 2 ^ Int.log 2 upper := zpow_le_zpow_right₀ one_le_two (Int.add_one_le_of_lt apart)
      _ ≤ roundDigits digits upper :=
        (round_digits_between counted (positive.trans_le ordered)).1
  · have sameSpacing : spacing digits lower = spacing digits upper := by
      rw [spacing, same, spacing]
    have unit := spacing_pos digits upper
    rw [roundDigits, roundDigits, sameSpacing]
    apply mul_le_mul_of_nonneg_right _ unit.le
    have quotients : lower / spacing digits upper ≤ upper / spacing digits upper :=
      div_le_div_of_nonneg_right ordered unit.le
    exact_mod_cast round_half_even_mono quotients

/-- A natural number of so many digits is kept. -/
theorem round_digits_nat (counted : 1 ≤ digits) {count : Nat} (short : count ≤ 2 ^ digits) :
    roundDigits digits count = count := by
  rcases Nat.eq_zero_or_pos count with rfl | positive
  · rw [Nat.cast_zero]
    exact round_digits_zero digits
  rcases short.lt_or_eq with below | rfl
  · have leading : Nat.log 2 count + 1 ≤ digits := Nat.log_lt_of_lt_pow positive.ne' below
    -- The spacing is one over a power of two.
    apply round_digits_whole (count * 2 ^ (digits - (Nat.log 2 count + 1)))
    have exponent : Int.log 2 (count : Rat) + 1 - (digits : Int) =
        -((digits - (Nat.log 2 count + 1) : Nat) : Int) := by
      rw [Int.log_natCast, Nat.cast_sub leading]
      push_cast
      ring
    rw [spacing, exponent, zpow_neg, zpow_natCast]
    push_cast
    rw [mul_assoc, mul_inv_cancel₀ (by positivity), mul_one]
  · apply round_digits_whole (2 ^ (digits - 1))
    have power := half_spacing_scaled counted ((2 ^ digits : Nat) : Rat)
    rw [Int.log_natCast, Nat.log_pow Nat.one_lt_two, zpow_natCast] at power
    push_cast at power ⊢
    exact power.symm

/-- Rounding does not pass a natural number of so many digits. -/
theorem round_digits_le_nat (counted : 1 ≤ digits) {bound : Nat} (short : bound ≤ 2 ^ digits)
    (nonneg : 0 ≤ value) (bounded : value ≤ bound) : roundDigits digits value ≤ bound := by
  rw [← round_digits_nat counted short]
  exact round_digits_mono counted nonneg bounded

theorem nat_le_round_digits (counted : 1 ≤ digits) {bound : Nat} (short : bound ≤ 2 ^ digits)
    (bounded : (bound : Rat) ≤ value) : (bound : Rat) ≤ roundDigits digits value := by
  rw [← round_digits_nat counted short]
  exact round_digits_mono counted bound.cast_nonneg bounded

/-- Rounding moves a number by less than a share of it. -/
theorem round_digits_lt (positive : 0 < value) :
    roundDigits digits value ≤ value + value / 2 ^ digits := by
  have moved := (abs_le.mp (round_digits_error digits value)).2
  have low := Int.zpow_log_le_self (R := Rat) one_lt_two positive
  have scaled := spacing_scaled digits value
  rw [zpow_add_one₀ (by norm_num), Nat.cast_ofNat] at *
  have share : spacing digits value / 2 ≤ value / 2 ^ digits := by
    rw [le_div_iff₀ (by positivity)]
    linarith
  linarith

end Digits

section Quotients

variable {digits numerator denominator : Nat}

/-- The integer part of a rounded quotient. -/
def truncatedQuotient (digits numerator denominator : Nat) : Nat :=
  ⌊roundDigits digits ((numerator : Rat) / denominator)⌋.toNat

/-- The integer part is not below the quotient rounded down. -/
theorem le_truncated_quotient (counted : 1 ≤ digits)
    (small : numerator < 2 ^ digits * denominator) :
    numerator / denominator ≤ truncatedQuotient digits numerator denominator := by
  have short : numerator / denominator ≤ 2 ^ digits :=
    (Nat.div_lt_of_lt_mul (by rwa [Nat.mul_comm] at small)).le
  have below : ((numerator / denominator : Nat) : Rat) ≤ (numerator : Rat) / denominator :=
    Nat.cast_div_le
  have rounded := nat_le_round_digits counted short below
  have floored : ((numerator / denominator : Nat) : Int) ≤
      ⌊roundDigits digits ((numerator : Rat) / denominator)⌋ := by
    rw [Int.le_floor, Int.cast_natCast]
    exact rounded
  exact Int.ofNat_le.mp (floored.trans (Int.self_le_toNat _))

/-- It passes no integer that the quotient stays within. -/
theorem truncated_quotient_le (counted : 1 ≤ digits) {bound : Nat} (positive : 0 < denominator)
    (bounded : numerator ≤ bound * denominator) (short : bound ≤ 2 ^ digits) :
    truncatedQuotient digits numerator denominator ≤ bound := by
  have unit : (0 : Rat) < denominator := by exact_mod_cast positive
  have within : (numerator : Rat) / denominator ≤ bound := by
    rw [div_le_iff₀ unit]
    exact_mod_cast bounded
  have rounded := round_digits_le_nat counted short (by positivity) within
  have floored : ⌊roundDigits digits ((numerator : Rat) / denominator)⌋ ≤ (bound : Int) := by
    have kept := Int.floor_le_floor rounded
    rwa [Int.floor_natCast] at kept
  exact Int.toNat_le.mpr floored

/-- A numerator that has the digits is divided without a rounding that shows. -/
theorem truncated_quotient_exact (counted : 1 ≤ digits) (positive : 0 < denominator)
    (short : numerator < 2 ^ digits) :
    truncatedQuotient digits numerator denominator = numerator / denominator := by
  apply le_antisymm
  · rcases Nat.eq_zero_or_pos numerator with rfl | nonzero
    · simp [truncatedQuotient, round_digits_zero]
    have unit : (0 : Rat) < denominator := by exact_mod_cast positive
    have quotient : (0 : Rat) < (numerator : Rat) / denominator :=
      div_pos (by exact_mod_cast nonzero) unit
    have moved : roundDigits digits ((numerator : Rat) / denominator) ≤ _ :=
      round_digits_lt quotient
    -- The quotient stays a whole share of the denominator below the next integer.
    have share : (numerator : Rat) / denominator / 2 ^ digits < 1 / denominator := by
      rw [div_div, mul_comm, ← div_div]
      apply div_lt_div_of_pos_right _ unit
      rw [div_lt_one (by positivity)]
      exact_mod_cast short
    have next : (numerator : Rat) / denominator + 1 / denominator ≤
        (numerator / denominator : Nat) + 1 := by
      rw [← add_div, div_le_iff₀ unit]
      have whole := Nat.lt_div_mul_add positive (a := numerator)
      have stepped : numerator + 1 ≤ (numerator / denominator + 1) * denominator := by
        rw [Nat.add_one_mul]
        exact whole
      exact_mod_cast stepped
    have floored : ⌊roundDigits digits ((numerator : Rat) / denominator)⌋ <
        ((numerator / denominator : Nat) : Int) + 1 := by
      rw [Int.floor_lt, Int.cast_add, Int.cast_natCast, Int.cast_one]
      linarith
    exact Int.toNat_le.mpr (Int.lt_add_one_iff.mp floored)
  · apply le_truncated_quotient counted
    exact short.trans_le (Nat.le_mul_of_pos_right _ positive)

end Quotients

end TickForge.BinaryRounding
