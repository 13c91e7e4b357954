import Graced.Float64
import Mathlib.Algebra.Order.Field.Power
import Mathlib.Data.Rat.Floor
import Mathlib.Tactic.FieldSimp
import Mathlib.Tactic.Linarith
import Mathlib.Tactic.NormNum
import Mathlib.Tactic.Positivity
import Mathlib.Tactic.Ring

/-!
# What rounding does to a positive number

A number that is rounded to a double and then cut down to an integer reaches a given integer
exactly if it is beyond a halfway point: the one between the last double below the integer
and the first that is not. At the point itself the double with the even significand is
chosen. Everything here is about exact rational numbers; that the executable rounding does
the same is proved once.
-/

namespace Graced.Float64

/-- The exact value of a mantissa and an exponent. -/
def exact (mantissa : Nat) (exponent : Int) : ℚ := mantissa * 2 ^ exponent

/-- The exact value of a double that is finite and not negative. -/
def magnitude (value : Float64) : Option ℚ :=
  match value.decode with
  | .finite false mantissa exponent => some (exact mantissa exponent)
  | _ => none

/-- The spacing of the doubles just below a positive integer, with 53 significant bits. -/
def spacingBelow (target : Nat) : ℚ := 2 ^ ((Nat.log2 (2 * target - 1) : Int) - 53)

/-- The first double that is not below the integer, counted in this spacing. -/
def stepsTo (target : Nat) : Int := ⌈(target : ℚ) / spacingBelow target⌉

/-- Rounding brings the number to the integer or beyond. -/
def Reaches (x : ℚ) (target : Nat) : Prop :=
  target = 0 ∨ (stepsTo target - 1 / 2) * spacingBelow target < x ∨
    (stepsTo target - 1 / 2) * spacingBelow target = x ∧ Even (stepsTo target)

/-! ## To nearest, ties to even -/

/-- An integer is reached from the half below it on, or from just above if it is odd. -/
theorem le_roundHalfEven_iff (mantissa shift target : Nat) :
    target ≤ roundHalfEven mantissa shift ↔
      2 * (target * 2 ^ shift) < 2 * mantissa + 2 ^ shift ∨
        2 * (target * 2 ^ shift) = 2 * mantissa + 2 ^ shift ∧ target % 2 = 0 := by
  unfold roundHalfEven
  have positive : 0 < 2 ^ shift := Nat.two_pow_pos shift
  have small := Nat.mod_lt mantissa positive
  have divided := Nat.div_add_mod mantissa (2 ^ shift)
  generalize 2 ^ shift = scale at *
  generalize mantissa % scale = remainder at *
  generalize mantissa / scale = quotient at *
  subst divided
  dsimp only
  rcases Nat.lt_trichotomy target (quotient + 1) with below | rfl | above
  · have product : target * scale ≤ scale * quotient := by
      rw [Nat.mul_comm]
      exact Nat.mul_le_mul_left scale (Nat.le_of_lt_succ below)
    refine iff_of_true ?_ (.inl (by omega))
    split <;> omega
  · have product : (quotient + 1) * scale = scale * quotient + scale := by ring
    rw [product]
    split <;> omega
  · have product : scale * quotient + 2 * scale ≤ target * scale := by
      calc scale * quotient + 2 * scale = (quotient + 2) * scale := by ring
        _ ≤ target * scale := Nat.mul_le_mul_right scale above
    refine iff_of_false ?_ (by omega)
    split <;> omega

/-- The unit in the last place. -/
def unitOf (mantissa : Nat) (exponent : Int) : Int :=
  max (exponent + mantissa.log2 + 1 - 53) (-1074)

/-- The rounded number, in that unit. -/
def significand (mantissa : Nat) (exponent : Int) : Nat :=
  if exponent ≤ unitOf mantissa exponent then
    roundHalfEven mantissa (unitOf mantissa exponent - exponent).toNat
  else mantissa * 2 ^ (exponent - unitOf mantissa exponent).toNat

/-- A power of two with a greater exponent. -/
theorem two_zpow_add (exponent : Int) (shift : Nat) :
    (2 : ℚ) ^ (exponent + (shift : Int)) = 2 ^ shift * 2 ^ exponent := by
  rw [zpow_add₀ (by norm_num), zpow_natCast, mul_comm]

/-- No integer is halfway below another. -/
theorem half_below_iff (target whole : Nat) :
    (target : ℚ) - 1 / 2 < whole ∨ (target : ℚ) - 1 / 2 = whole ∧ Even target ↔
      target ≤ whole := by
  have between : (target : ℚ) - 1 / 2 ≠ whole := by
    intro same
    have doubled : (2 * target : ℚ) = 2 * whole + 1 := by linarith
    have integers : 2 * target = 2 * whole + 1 := by exact_mod_cast doubled
    omega
  simp only [between, false_and, or_false]
  constructor
  · intro less
    have doubled : (2 * target : ℚ) < 2 * whole + 1 := by linarith
    have integers : 2 * target < 2 * whole + 1 := by exact_mod_cast doubled
    omega
  · intro reached
    have cast : (target : ℚ) ≤ whole := by exact_mod_cast reached
    linarith

/-- The halfway rule for the significand. -/
theorem le_significand_iff (mantissa : Nat) (exponent : Int) (target : Nat) :
    target ≤ significand mantissa exponent ↔
      ((target : ℚ) - 1 / 2) * 2 ^ unitOf mantissa exponent < exact mantissa exponent ∨
        ((target : ℚ) - 1 / 2) * 2 ^ unitOf mantissa exponent = exact mantissa exponent ∧
          Even target := by
  unfold significand exact
  generalize unitOf mantissa exponent = unit
  split
  · rename_i fine
    obtain ⟨shift, rfl⟩ := Int.le.dest fine
    have positive : (0 : ℚ) < 2 ^ exponent := by positivity
    rw [le_roundHalfEven_iff, add_sub_cancel_left, Int.toNat_natCast, Nat.even_iff,
      two_zpow_add, ← mul_assoc ((target : ℚ) - 1 / 2), mul_lt_mul_iff_left₀ positive,
      mul_left_inj' positive.ne']
    have cast : ((2 * (target * 2 ^ shift) : Nat) : ℚ) = 2 * (target * 2 ^ shift) ∧
        ((2 * mantissa + 2 ^ shift : Nat) : ℚ) = 2 * mantissa + 2 ^ shift := by
      constructor <;> push_cast <;> ring
    rw [← @Nat.cast_lt ℚ, ← @Nat.cast_inj ℚ, cast.1, cast.2]
    refine or_congr ⟨fun less => by linarith, fun less => by linarith⟩
      (and_congr_left' ⟨fun same => by linarith, fun same => by linarith⟩)
  · rename_i coarse
    obtain ⟨shift, rfl⟩ := Int.le.dest (Int.le_of_lt (Int.not_le.mp coarse))
    have positive : (0 : ℚ) < 2 ^ unit := by positivity
    rw [add_sub_cancel_left, Int.toNat_natCast, two_zpow_add, ← mul_assoc (mantissa : ℚ),
      mul_lt_mul_iff_left₀ positive, mul_left_inj' positive.ne']
    have cast : ((mantissa * 2 ^ shift : Nat) : ℚ) = mantissa * 2 ^ shift := by push_cast; ring
    rw [← cast, half_below_iff]

/-! ## The binade -/

/-- A positive number lies in the binade of its mantissa. -/
theorem exact_binade (mantissa : Nat) (exponent : Int) (positive : mantissa ≠ 0) :
    (2 : ℚ) ^ (exponent + mantissa.log2) ≤ exact mantissa exponent ∧
      exact mantissa exponent < 2 ^ (exponent + mantissa.log2 + 1) := by
  have scale : (0 : ℚ) < 2 ^ exponent := by positivity
  have low : (2 : ℚ) ^ mantissa.log2 ≤ mantissa := by
    exact_mod_cast Nat.log2_self_le positive
  have high : (mantissa : ℚ) < 2 ^ (mantissa.log2 + 1) := by
    exact_mod_cast Nat.lt_log2_self
  rw [two_zpow_add, add_assoc, ← Nat.cast_succ, two_zpow_add, exact]
  exact ⟨mul_le_mul_of_nonneg_right low scale.le, mul_lt_mul_of_pos_right high scale⟩

/-- The significand has at most 53 bits, and all of them unless the unit is the least. -/
theorem significand_bounds (mantissa : Nat) (exponent : Int) (positive : mantissa ≠ 0) :
    significand mantissa exponent ≤ 2 ^ 53 ∧
      (-1074 < unitOf mantissa exponent → 2 ^ 52 ≤ significand mantissa exponent) := by
  obtain ⟨low, high⟩ := exact_binade mantissa exponent positive
  constructor
  · by_contra large
    have above : 2 ^ 53 + 1 ≤ significand mantissa exponent := by omega
    have unit : exponent + mantissa.log2 + 1 ≤ unitOf mantissa exponent + (53 : Nat) := by
      unfold unitOf
      omega
    have bounded := high.trans_le (zpow_le_zpow_right₀ (by norm_num : (1 : ℚ) ≤ 2) unit)
    rw [two_zpow_add] at bounded
    have scale : (0 : ℚ) < 2 ^ unitOf mantissa exponent := by positivity
    rw [le_significand_iff] at above
    push_cast at above
    rcases above with less | ⟨same, _⟩ <;> nlinarith
  · intro normal
    have unit : exponent + mantissa.log2 = unitOf mantissa exponent + (52 : Nat) := by
      unfold unitOf at normal ⊢
      omega
    rw [unit, two_zpow_add] at low
    have scale : (0 : ℚ) < 2 ^ unitOf mantissa exponent := by positivity
    rw [le_significand_iff]
    push_cast
    left
    nlinarith

/-! ## From the bits and back -/

/-- A finite result stands for the significand in its unit: it is subnormal, or has its 53 bits,
or a carry has raised the exponent. -/
theorem decode_packed (offset whole : Nat) (few : whole ≤ 2 ^ 53)
    (full : 0 < offset → 2 ^ 52 ≤ whole) (finite : offset * 2 ^ 52 + whole < infinityBits) :
    ∃ mantissa exponent,
      decode ⟨BitVec.ofNat 64 (offset * 2 ^ 52 + whole)⟩ = .finite false mantissa exponent ∧
        exact mantissa exponent = whole * 2 ^ ((offset : Int) - 1074) := by
  have limit : infinityBits = 2047 * 2 ^ 52 := rfl
  have same : (BitVec.ofNat 64 (offset * 2 ^ 52 + whole)).toNat = offset * 2 ^ 52 + whole := by
    rw [BitVec.toNat_ofNat, Nat.mod_eq_of_lt (by omega)]
  have small : (offset * 2 ^ 52 + whole) % 2 ^ 63 = offset * 2 ^ 52 + whole :=
    Nat.mod_eq_of_lt (by omega)
  have unsigned : decide (2 ^ 63 ≤ offset * 2 ^ 52 + whole) = false :=
    decide_eq_false (by omega)
  unfold decode
  simp only [same, small, unsigned]
  rcases Nat.lt_or_ge whole (2 ^ 52) with subnormal | normal
  · obtain rfl : offset = 0 := by
      by_contra positive
      exact absurd (full (Nat.pos_of_ne_zero positive)) (by omega)
    have field : (0 * 2 ^ 52 + whole) / 2 ^ 52 = 0 := by omega
    have fraction : (0 * 2 ^ 52 + whole) % 2 ^ 52 = whole := by omega
    rw [field, fraction, if_neg (by decide), if_pos rfl]
    exact ⟨whole, -1074, rfl, rfl⟩
  · rcases Nat.lt_or_ge whole (2 ^ 53) with kept | carried
    · have field : (offset * 2 ^ 52 + whole) / 2 ^ 52 = offset + 1 := by omega
      have fraction : (offset * 2 ^ 52 + whole) % 2 ^ 52 = whole - 2 ^ 52 := by omega
      rw [field, fraction, if_neg (by omega), if_neg (by omega), Nat.sub_add_cancel normal]
      refine ⟨whole, _, rfl, ?_⟩
      rw [exact, Nat.cast_succ, show (offset : Int) + 1 - 1075 = offset - 1074 by omega]
    · obtain rfl : whole = 2 ^ 53 := Nat.le_antisymm few carried
      have field : (offset * 2 ^ 52 + 2 ^ 53) / 2 ^ 52 = offset + 2 := by omega
      have fraction : (offset * 2 ^ 52 + 2 ^ 53) % 2 ^ 52 = 0 := by omega
      rw [field, fraction, if_neg (by omega), if_neg (by omega)]
      refine ⟨_, _, rfl, ?_⟩
      have unit : ((offset + 2 : Nat) : Int) - 1075 = (offset : Int) - 1074 + (1 : Nat) := by
        push_cast
        ring
      rw [exact, unit, two_zpow_add]
      push_cast
      ring

/-- The integer that a finite number is cut down to. -/
theorem le_truncToU64_iff (value : Float64) (mantissa : Nat) (exponent : Int)
    (finite : value.decode = .finite false mantissa exponent) (target : Nat)
    (bounded : target < 2 ^ 64) :
    target ≤ value.truncToU64.toNat ↔ (target : ℚ) ≤ exact mantissa exponent := by
  have clamped : ∀ whole : Nat, target ≤ (UInt64.ofNat (min whole (2 ^ 64 - 1))).toNat ↔
      target ≤ whole := by
    intro whole
    rw [UInt64.toNat_ofNat_of_lt' (by simp only [UInt64.size]; omega)]
    omega
  unfold truncToU64
  simp only [finite, Bool.false_eq_true, if_false]
  rw [clamped, exact]
  split
  · rename_i negative
    obtain ⟨shift, rfl⟩ := Int.eq_negSucc_of_lt_zero negative
    have positive : 0 < 2 ^ (shift + 1) := Nat.two_pow_pos (shift + 1)
    have divisor : (2 : ℚ) ^ (Int.negSucc shift) = (2 ^ (shift + 1))⁻¹ := zpow_negSucc 2 shift
    rw [Int.neg_negSucc, Int.toNat_natCast, Nat.le_div_iff_mul_le positive, divisor,
      ← div_eq_mul_inv, le_div_iff₀ (by positivity)]
    exact_mod_cast Iff.rfl
  · rename_i integer
    obtain ⟨shift, rfl⟩ := Int.eq_ofNat_of_zero_le (Int.not_lt.mp integer)
    rw [Int.toNat_natCast, zpow_natCast]
    exact_mod_cast Iff.rfl

/-! ## Reaching an integer -/

/-- A positive integer ends its binade or lies in it, and 2^53 steps lead to the end. -/
theorem target_binade (target : Nat) (positive : 0 < target) :
    ∃ top : Nat, spacingBelow target = 2 ^ ((top : Int) - 53) ∧
      (2 : ℚ) ^ ((top : Int) - 1) < target ∧ (target : ℚ) ≤ 2 ^ (top : Int) := by
  have low := Nat.log2_self_le (n := 2 * target - 1) (by omega)
  have high := Nat.lt_log2_self (n := 2 * target - 1)
  refine ⟨(2 * target - 1).log2, rfl, ?_, ?_⟩
  · have double : (2 : ℚ) ^ (2 * target - 1).log2 < 2 * target := by
      have less : 2 ^ (2 * target - 1).log2 < 2 * target := by omega
      exact_mod_cast less
    rw [zpow_sub₀ (by norm_num), zpow_natCast, zpow_one, div_lt_iff₀ (by norm_num)]
    linarith
  · rw [zpow_natCast]
    have less : target ≤ 2 ^ (2 * target - 1).log2 := by
      rw [Nat.pow_succ] at high
      omega
    exact_mod_cast less

theorem spacingBelow_pos (target : Nat) : 0 < spacingBelow target := by
  unfold spacingBelow
  positivity

/-- The steps up to an integer are less than one too long. -/
theorem stepsTo_bounds (target : Nat) :
    (target : ℚ) ≤ stepsTo target * spacingBelow target ∧
      (stepsTo target - 1) * spacingBelow target < target := by
  have positive := spacingBelow_pos target
  constructor
  · rw [← div_le_iff₀ positive]
    exact Int.le_ceil _
  · rw [← lt_div_iff₀ positive, sub_lt_iff_lt_add]
    exact Int.ceil_lt_add_one _

/-- Nothing but zero is reached by zero. -/
theorem reaches_zero_iff (target : Nat) : Reaches 0 target ↔ target = 0 := by
  refine ⟨fun reached => ?_, .inl⟩
  by_contra nonzero
  have positive := spacingBelow_pos target
  have steps : (1 : ℚ) ≤ stepsTo target := by
    exact_mod_cast Int.ceil_pos.mpr
      (div_pos (Nat.cast_pos.mpr (Nat.pos_of_ne_zero nonzero)) positive)
  have halfway : 0 < ((stepsTo target : ℚ) - 1 / 2) * spacingBelow target :=
    mul_pos (by linarith) positive
  rcases reached with zero | less | ⟨same, _⟩
  · exact nonzero zero
  · exact absurd less (not_lt.mpr halfway.le)
  · exact halfway.ne' same

section Binades

variable (mantissa : Nat) (exponent : Int) (target top : Nat)
  (spacing : spacingBelow target = 2 ^ ((top : Int) - 53))

include spacing

/-- A number from a lower binade does not reach the integer. -/
theorem below_binade (nonzero : mantissa ≠ 0) (above : (2 : ℚ) ^ ((top : Int) - 1) < target)
    (lower : exponent + mantissa.log2 < (top : Int) - 1) :
    (significand mantissa exponent : ℚ) * 2 ^ unitOf mantissa exponent < target ∧
      exact mantissa exponent < (stepsTo target - 1 / 2) * spacingBelow target := by
  have few := (exact_binade mantissa exponent nonzero).2.trans_le
    (zpow_le_zpow_right₀ (by norm_num : (1 : ℚ) ≤ 2) (by omega :
      exponent + mantissa.log2 + 1 ≤ (top : Int) - 1))
  constructor
  · have fine : unitOf mantissa exponent ≤ (top : Int) - 1 := by
      unfold unitOf
      omega
    obtain ⟨shift, split⟩ := Int.le.dest fine
    have scale : (0 : ℚ) < 2 ^ unitOf mantissa exponent := by positivity
    rw [← split, two_zpow_add] at few above
    have atMost : significand mantissa exponent ≤ 2 ^ shift := by
      by_contra large
      have more : 2 ^ shift + 1 ≤ significand mantissa exponent := by omega
      rw [le_significand_iff] at more
      push_cast at more
      rcases more with less | ⟨same, _⟩ <;> nlinarith
    have cast : (significand mantissa exponent : ℚ) ≤ 2 ^ shift := by exact_mod_cast atMost
    exact (mul_le_mul_of_nonneg_right cast scale.le).trans_lt above
  · have positive := spacingBelow_pos target
    have end52 : (2 : ℚ) ^ ((top : Int) - 1) = 2 ^ 52 * spacingBelow target := by
      rw [spacing, ← two_zpow_add]
      congr 1
      push_cast
      ring
    have many : (2 ^ 52 : ℚ) < stepsTo target := by
      have stepsHigh := (stepsTo_bounds target).1
      rw [end52] at above
      exact lt_of_mul_lt_mul_right (above.trans_le stepsHigh) positive.le
    have integer : (2 ^ 52 + 1 : Int) ≤ stepsTo target := by
      have less : (2 ^ 52 : Int) < stepsTo target := by exact_mod_cast many
      omega
    have cast : (2 ^ 52 + 1 : ℚ) ≤ stepsTo target := by exact_mod_cast integer
    rw [end52] at few
    nlinarith

/-- A number from the binade of the integer is counted in the same unit. -/
theorem same_binade (inside : exponent + mantissa.log2 = (top : Int) - 1) (positive : 0 < target) :
    (target : ℚ) ≤ significand mantissa exponent * 2 ^ unitOf mantissa exponent ↔
      (stepsTo target - 1 / 2) * spacingBelow target < exact mantissa exponent ∨
        (stepsTo target - 1 / 2) * spacingBelow target = exact mantissa exponent ∧
          Even (stepsTo target) := by
  have unit : unitOf mantissa exponent = (top : Int) - 53 := by
    unfold unitOf
    omega
  have scale := spacingBelow_pos target
  have steps : 0 < stepsTo target := Int.ceil_pos.mpr (by positivity)
  obtain ⟨count, counted⟩ := Int.eq_ofNat_of_zero_le steps.le
  have reached := le_significand_iff mantissa exponent count
  rw [unit, ← spacing] at reached ⊢
  rw [← div_le_iff₀ scale, counted, Int.cast_natCast, Int.even_coe_nat, ← reached,
    ← Int.cast_natCast (R := ℚ) (significand mantissa exponent), ← Int.ceil_le]
  change stepsTo target ≤ _ ↔ _
  rw [counted]
  exact Int.ofNat_le

/-- A number from a higher binade reaches the integer. -/
theorem above_binade (nonzero : mantissa ≠ 0) (below : (target : ℚ) ≤ 2 ^ (top : Int))
    (higher : (top : Int) ≤ exponent + mantissa.log2) :
    (target : ℚ) ≤ significand mantissa exponent * 2 ^ unitOf mantissa exponent ∧
      (stepsTo target - 1 / 2) * spacingBelow target < exact mantissa exponent := by
  have enough := (zpow_le_zpow_right₀ (by norm_num : (1 : ℚ) ≤ 2) higher)
  constructor
  · have unit : exponent + mantissa.log2 = unitOf mantissa exponent + (52 : Nat) := by
      unfold unitOf
      omega
    have full := (significand_bounds mantissa exponent nonzero).2 (by
      unfold unitOf
      omega)
    have cast : (2 ^ 52 : ℚ) ≤ significand mantissa exponent := by exact_mod_cast full
    rw [unit, two_zpow_add] at enough
    exact (below.trans enough).trans (mul_le_mul_of_nonneg_right cast (by positivity))
  · have positive := spacingBelow_pos target
    have end53 : (2 : ℚ) ^ (top : Int) = 2 ^ 53 * spacingBelow target := by
      rw [spacing, ← two_zpow_add]
      congr 1
      push_cast
      ring
    have stepsLow := (stepsTo_bounds target).2
    have few : (stepsTo target : ℚ) - 1 < 2 ^ 53 := by
      rw [end53] at below
      exact lt_of_mul_lt_mul_right (stepsLow.trans_le below) positive.le
    have integer : stepsTo target ≤ (2 ^ 53 : Int) := by
      have less : stepsTo target - 1 < (2 ^ 53 : Int) := by exact_mod_cast few
      omega
    have cast : (stepsTo target : ℚ) ≤ 2 ^ 53 := by exact_mod_cast integer
    have reached := enough.trans (exact_binade mantissa exponent nonzero).1
    rw [end53] at reached
    nlinarith

end Binades

/-- Rounding to the significand reaches what the halfway rule says. -/
theorem le_rounded_iff (mantissa : Nat) (exponent : Int) (target : Nat) (nonzero : mantissa ≠ 0)
    (positive : 0 < target) :
    (target : ℚ) ≤ significand mantissa exponent * 2 ^ unitOf mantissa exponent ↔
      Reaches (exact mantissa exponent) target := by
  obtain ⟨top, spacing, above, below⟩ := target_binade target positive
  have reaches : Reaches (exact mantissa exponent) target ↔
      (stepsTo target - 1 / 2) * spacingBelow target < exact mantissa exponent ∨
        (stepsTo target - 1 / 2) * spacingBelow target = exact mantissa exponent ∧
          Even (stepsTo target) := or_iff_right positive.ne'
  rw [reaches]
  rcases lt_trichotomy (exponent + mantissa.log2) ((top : Int) - 1) with lower | inside | higher
  · obtain ⟨small, short⟩ := below_binade mantissa exponent target top spacing nonzero above lower
    refine iff_of_false (not_le.mpr small) ?_
    rintro (less | ⟨same, _⟩)
    · exact absurd less (not_lt.mpr short.le)
    · exact absurd same.symm short.ne
  · exact same_binade mantissa exponent target top spacing inside positive
  · obtain ⟨large, reached⟩ :=
      above_binade mantissa exponent target top spacing nonzero below (by omega)
    exact iff_of_true large (.inl reached)

/-! ## Rounding and cutting down -/

theorem exact_zero (exponent : Int) : exact 0 exponent = 0 := by
  rw [exact, Nat.cast_zero, zero_mul]

/-- Zero has no bits. -/
theorem round_zero (exponent : Int) : round false 0 exponent = ⟨BitVec.ofNat 64 0⟩ := by
  unfold round
  simp only [if_true, Bool.false_eq_true, if_false, Nat.zero_min, Nat.add_zero]

theorem magnitude_zero : (ofNat 0).magnitude = some 0 := by
  have decoded : (ofNat 0).decode = .finite false 0 (-1074) := by
    rw [ofNat, round_zero]
    decide
  simp only [magnitude, decoded, exact_zero]

/-- The bits that a rounded number is packed into. -/
theorem round_eq (mantissa : Nat) (exponent : Int) (nonzero : mantissa ≠ 0) :
    round false mantissa exponent = ⟨BitVec.ofNat 64
      (min ((unitOf mantissa exponent + 1074).toNat * 2 ^ 52 + significand mantissa exponent)
        infinityBits)⟩ := by
  unfold round
  simp only [if_neg nonzero, Bool.false_eq_true, if_false, Nat.zero_add]
  rfl

/-- A positive number that is rounded and cut down is at least an integer exactly if it reaches
it. What is too large for a double is cut down to the greatest integer. -/
theorem le_trunc_round_iff (mantissa : Nat) (exponent : Int) (target : Nat)
    (bounded : target < 2 ^ 64) :
    target ≤ (round false mantissa exponent).truncToU64.toNat ↔
      Reaches (exact mantissa exponent) target := by
  rcases Nat.eq_zero_or_pos target with rfl | positive
  · exact iff_of_true (Nat.zero_le _) (.inl rfl)
  by_cases zero : mantissa = 0
  · subst zero
    rw [round_zero, le_truncToU64_iff _ 0 (-1074) (by decide) target bounded, exact_zero,
      exact_zero, reaches_zero_iff]
    exact_mod_cast Nat.le_zero
  obtain ⟨few, full⟩ := significand_bounds mantissa exponent zero
  have least : -1074 ≤ unitOf mantissa exponent := le_max_right _ _
  obtain ⟨offset, shifted⟩ := Int.eq_ofNat_of_zero_le (by omega :
    0 ≤ unitOf mantissa exponent + 1074)
  have unit : unitOf mantissa exponent = (offset : Int) - 1074 := by omega
  rw [round_eq mantissa exponent zero, shifted, Int.toNat_natCast,
    ← le_rounded_iff mantissa exponent target zero positive, unit]
  rcases Nat.lt_or_ge (offset * 2 ^ 52 + significand mantissa exponent) infinityBits with
    finite | infinite
  · rw [Nat.min_eq_left finite.le]
    obtain ⟨packed, scale, decoded, value⟩ := decode_packed offset _ few
      (fun raised => full (by omega)) finite
    rw [le_truncToU64_iff _ packed scale decoded target bounded, value]
  · rw [Nat.min_eq_right infinite]
    have greatest : (⟨BitVec.ofNat 64 infinityBits⟩ : Float64).truncToU64 =
        UInt64.ofNat (2 ^ 64 - 1) := by decide
    have limit : infinityBits = 2047 * 2 ^ 52 := rfl
    rw [greatest]
    refine iff_of_true ?_ ?_
    · rw [UInt64.toNat_ofNat_of_lt' (by decide)]
      omega
    · have large : (2 ^ 52 : ℚ) ≤ significand mantissa exponent := by
        exact_mod_cast full (by omega)
      have coarse : (2 : ℚ) ^ (12 : Int) ≤ 2 ^ ((offset : Int) - 1074) :=
        zpow_le_zpow_right₀ (by norm_num) (by omega)
      have small : (target : ℚ) ≤ 2 ^ 52 * 2 ^ (12 : Int) := by
        have cast : target ≤ 2 ^ 52 * 2 ^ 12 := by omega
        exact_mod_cast cast
      exact small.trans (mul_le_mul large coarse (by positivity) (by positivity))

/-- A multiple of the unit needs no rounding. -/
theorem significand_of_multiple (mantissa : Nat) (exponent : Int) (whole : Nat)
    (multiple : exact mantissa exponent = whole * 2 ^ unitOf mantissa exponent) :
    significand mantissa exponent = whole := by
  have scale : (0 : ℚ) < 2 ^ unitOf mantissa exponent := by positivity
  refine eq_of_forall_le_iff fun target => ?_
  rw [le_significand_iff, multiple, mul_lt_mul_iff_left₀ scale, mul_left_inj' scale.ne',
    half_below_iff]

/-- A whole number that has no more significant bits than a double is converted exactly. -/
theorem ofNat_exact (value : Nat) (nonzero : value ≠ 0) (bounded : value < 2 ^ 64)
    (short : 2 ^ (value.log2 - 52) ∣ value) : ∃ mantissa exponent,
    (ofNat value).decode = .finite false mantissa exponent ∧
      exact mantissa exponent = value := by
  have few : value.log2 < 64 := (Nat.log2_lt nonzero).mpr bounded
  have unit : unitOf value 0 = ((value.log2 + 1022 : Nat) : Int) - 1074 := by
    unfold unitOf
    omega
  have whole : exact value 0 = value := by simp [exact]
  obtain ⟨count, multiple⟩ : ∃ count : Nat, exact value 0 = count * 2 ^ unitOf value 0 := by
    rw [whole, unit]
    rcases Nat.le_total 52 value.log2 with long | fits
    · obtain ⟨count, divided⟩ := short
      refine ⟨count, ?_⟩
      rw [show ((value.log2 + 1022 : Nat) : Int) - 1074 = ((value.log2 - 52 : Nat) : Int) by omega,
        zpow_natCast]
      generalize value.log2 - 52 = shift at divided
      rw [divided]
      push_cast
      ring
    · refine ⟨value * 2 ^ (52 - value.log2), ?_⟩
      rw [show ((value.log2 + 1022 : Nat) : Int) - 1074 = -((52 - value.log2 : Nat) : Int) by omega,
        zpow_neg, zpow_natCast]
      push_cast
      field_simp
  have rounded := significand_of_multiple value 0 count multiple
  obtain ⟨small, full⟩ := significand_bounds value 0 nonzero
  have limit : infinityBits = 2047 * 2 ^ 52 := rfl
  rw [rounded] at small full
  have finite : (value.log2 + 1022) * 2 ^ 52 + count < infinityBits := by omega
  obtain ⟨mantissa, exponent, decoded, same⟩ := decode_packed (value.log2 + 1022) count small
    (fun _ => full (by omega)) finite
  refine ⟨mantissa, exponent, ?_, ?_⟩
  · rw [ofNat, round_eq value 0 nonzero, rounded, show (unitOf value 0 + 1074).toNat =
      value.log2 + 1022 by omega, Nat.min_eq_left finite.le]
    exact decoded
  · rw [same, ← unit, ← multiple, whole]

/-! ## Products -/

/-- A product of finite numbers that are not negative is rounded once. -/
theorem mul_finite (left right : Float64) (m n : Nat) (e f : Int)
    (leftFinite : left.decode = .finite false m e)
    (rightFinite : right.decode = .finite false n f) :
    left.mul right = round false (m * n) (e + f) := by
  simp only [mul, leftFinite, rightFinite, Bool.xor_self]

theorem exact_mul (m n : Nat) (e f : Int) : exact (m * n) (e + f) = exact m e * exact n f := by
  rw [exact, exact, exact, zpow_add₀ (by norm_num)]
  push_cast
  ring

/-- A double that is scaled by a whole number and cut down is at least an integer exactly if the
exact product reaches it. -/
theorem le_trunc_mul_iff (value : Float64) (x : ℚ) (shown : value.magnitude = some x)
    (factor : Nat) (nonzero : factor ≠ 0) (fits : factor < 2 ^ 64)
    (short : 2 ^ (factor.log2 - 52) ∣ factor) (target : Nat) (bounded : target < 2 ^ 64) :
    target ≤ (value.mul (ofNat factor)).truncToU64.toNat ↔ Reaches (x * factor) target := by
  obtain ⟨n, f, factorFinite, factorExact⟩ := ofNat_exact factor nonzero fits short
  unfold magnitude at shown
  split at shown
  · rename_i m e finite
    obtain rfl := Option.some.inj shown
    rw [mul_finite value (ofNat factor) m n e f finite factorFinite,
      le_trunc_round_iff _ _ target bounded, exact_mul, factorExact]
  · simp at shown

/-! ## Small integers -/

/-- An integer up to 2^52 is a double, with an even significand unless it is the last: a number
reaches it from half a spacing below. -/
theorem reaches_iff_of_small (x : ℚ) (target : Nat) (positive : 0 < target)
    (small : target ≤ 2 ^ 52) :
    Reaches x target ↔ (target : ℚ) - spacingBelow target / 2 ≤ x := by
  obtain ⟨top, spacing, above, _⟩ := target_binade target positive
  have few : top ≤ 52 := by
    by_contra large
    have binade : (2 : ℚ) ^ (52 : Int) ≤ 2 ^ ((top : Int) - 1) :=
      zpow_le_zpow_right₀ (by norm_num) (by omega)
    have cast : (target : ℚ) ≤ 2 ^ (52 : Int) := by exact_mod_cast small
    exact absurd above (not_lt.mpr (cast.trans binade))
  have scale := spacingBelow_pos target
  have inverse : spacingBelow target * 2 ^ (53 - top) = 1 := by
    rw [spacing, show (top : Int) - 53 = -((53 - top : Nat) : Int) by omega, zpow_neg, zpow_natCast]
    exact inv_mul_cancel₀ (by positivity)
  have counted : (target : ℚ) / spacingBelow target = ((target * 2 ^ (53 - top) : Nat) : ℚ) := by
    rw [div_eq_iff scale.ne']
    push_cast
    rw [mul_assoc, mul_comm ((2 : ℚ) ^ (53 - top)), inverse, mul_one]
  have steps : stepsTo target = ((target * 2 ^ (53 - top) : Nat) : Int) := by
    rw [stepsTo, counted, Int.ceil_natCast]
  have even : Even (stepsTo target) := by
    rw [steps, Int.even_coe_nat]
    refine Even.mul_left (Nat.even_pow.mpr ⟨even_two, by omega⟩) target
  have halfway : ((stepsTo target : ℚ) - 1 / 2) * spacingBelow target =
      target - spacingBelow target / 2 := by
    rw [steps, Int.cast_natCast, ← counted]
    field_simp
  rw [Reaches, halfway, or_iff_right positive.ne', le_iff_lt_or_eq]
  simp only [even, and_true]

end Graced.Float64
