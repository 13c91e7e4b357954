import Graced.Outcome
import Mathlib.Algebra.Group.Int.Defs
import Mathlib.Algebra.GroupWithZero.Nat
import Mathlib.Data.Nat.Basic

/-!
# Machine integers under a build profile

Plain arithmetic on a machine integer that leaves its range panics in a build
with overflow checks and wraps in a build without them. Both builds of one
program are real: checks are on for its tests and off for its releases, unless
it sets its own profile. Saturating arithmetic and conversions with `as` never
panic in either build.

Signed values of 64 and 128 bits are integers; the functions that make one keep it in range.
-/

namespace Graced

universe u
variable {ε : Type u}

/-- The part of a build that changes what arithmetic does. -/
structure Profile where
  /-- Overflow panics. Otherwise it wraps. -/
  overflowChecks : Bool
deriving DecidableEq, Repr

/-- `+` and `+=` on `u64`. -/
def Profile.add64 (profile : Profile) (left right : UInt64) : Outcome ε UInt64 :=
  if profile.overflowChecks ∧ 2 ^ 64 ≤ left.toNat + right.toNat then .panic
  else .ok (left + right)

/-- `-` on `u64`. -/
def Profile.sub64 (profile : Profile) (left right : UInt64) : Outcome ε UInt64 :=
  if profile.overflowChecks ∧ left.toNat < right.toNat then .panic else .ok (left - right)

/-- `+ 1` on a `u8` counter. -/
def Profile.increment8 (profile : Profile) (count : UInt8) : Outcome ε UInt8 :=
  if profile.overflowChecks ∧ count.toNat = 255 then .panic else .ok (count + 1)

/-- `pow` on `u64`. -/
def Profile.pow64 (profile : Profile) (base : UInt64) (exponent : Nat) : Outcome ε UInt64 :=
  if profile.overflowChecks ∧ 2 ^ 64 ≤ base.toNat ^ exponent then .panic
  else .ok (UInt64.ofNat (base.toNat ^ exponent))

/-- `checked_pow` on `u64`. -/
def checkedPow64 (base : UInt64) (exponent : Nat) : Option UInt64 :=
  if base.toNat ^ exponent < 2 ^ 64 then some (UInt64.ofNat (base.toNat ^ exponent)) else none

/-- The range of `i128`. -/
def InI128 (value : Int) : Prop := -2 ^ 127 ≤ value ∧ value < 2 ^ 127

instance (value : Int) : Decidable (InI128 value) := inferInstanceAs (Decidable (_ ∧ _))

/-- The `i128` with the same 128 bits. -/
def wrapI128 (value : Int) : Int := (value + 2 ^ 127) % 2 ^ 128 - 2 ^ 127

/-- The result of an operation on `i128` whose exact value is known. -/
def Profile.i128 (profile : Profile) (exact : Int) : Outcome ε Int :=
  if InI128 exact then .ok exact
  else if profile.overflowChecks then .panic
  else .ok (wrapI128 exact)

/-- `+` and `+=` on `i128`. -/
def Profile.add128 (profile : Profile) (left right : Int) : Outcome ε Int :=
  profile.i128 (left + right)

/-- `-` on `i128`. -/
def Profile.sub128 (profile : Profile) (left right : Int) : Outcome ε Int :=
  profile.i128 (left - right)

/-- Negation on `i128`. -/
def Profile.neg128 (profile : Profile) (value : Int) : Outcome ε Int := profile.i128 (-value)

/-- `saturating_add` on `u64`. -/
def saturatingAdd (left right : UInt64) : UInt64 :=
  if left.toNat + right.toNat < 2 ^ 64 then left + right else UInt64.ofNat (2 ^ 64 - 1)

/-- `saturating_mul` on `u64`. -/
def saturatingMul (left right : UInt64) : UInt64 :=
  if left.toNat * right.toNat < 2 ^ 64 then left * right else UInt64.ofNat (2 ^ 64 - 1)

/-- `as i64` on a `u64`: the same 64 bits, read as a signed number. -/
def asI64 (value : UInt64) : Int :=
  if value.toNat < 2 ^ 63 then value.toNat else (value.toNat : Int) - 2 ^ 64

/-- `i64::try_from` on a `u64`. -/
def tryI64 (value : UInt64) : Option Int :=
  if value.toNat < 2 ^ 63 then some value.toNat else none

/-- `checked_sub` on `i64`. -/
def checkedSubI64 (left right : Int) : Option Int :=
  if -2 ^ 63 ≤ left - right ∧ left - right < 2 ^ 63 then some (left - right) else none

/-- `unsigned_abs` on an `i64`; the magnitude of every `i64` is a `u64`. -/
def unsignedAbs (value : Int) : UInt64 := UInt64.ofNat value.natAbs

/-- `abs().try_into().unwrap()` from `i64` to `u64`. The least `i64` has no
absolute value of its own type: checked arithmetic panics at `abs`, and wrapping
arithmetic leaves a negative number, at which `unwrap` panics. -/
def absIntoU64 (value : Int) : Outcome ε UInt64 :=
  if value.natAbs < 2 ^ 63 then .ok (UInt64.ofNat value.natAbs) else .panic

/-- An amount comes back from a signed integer as it was, up to the least one's magnitude. -/
theorem unsignedAbs_asI64_iff (amount : UInt64) :
    unsignedAbs (asI64 amount) = amount ↔ amount.toNat ≤ 2 ^ 63 := by
  have bounded := amount.toNat_lt
  rw [← UInt64.toNat_inj, asI64, unsignedAbs]
  split
  · next below =>
    rw [Int.natAbs_natCast, UInt64.ofNat_toNat]
    exact iff_of_true rfl (Nat.le_of_lt below)
  · next above =>
    have magnitude : ((amount.toNat : Int) - 2 ^ 64).natAbs = 2 ^ 64 - amount.toNat := by omega
    rw [magnitude, UInt64.toNat_ofNat_of_lt' (by change _ < 2 ^ 64; omega)]
    omega

/-- A sum within the range is exact in every build. -/
theorem add64_fits (profile : Profile) (left right : UInt64)
    (fits : left.toNat + right.toNat < 2 ^ 64) :
    ∃ sum, (profile.add64 left right : Outcome ε UInt64) = .ok sum ∧
      sum.toNat = left.toNat + right.toNat := by
  refine ⟨left + right, ?_, ?_⟩
  · apply if_neg
    rintro ⟨_, tooLarge⟩
    exact absurd fits (Nat.not_lt_of_le tooLarge)
  · rw [UInt64.toNat_add, Nat.mod_eq_of_lt fits]

/-- A sum that leaves its range never becomes an error. -/
theorem add64_ne_err (profile : Profile) (left right : UInt64) (error : ε) :
    profile.add64 left right ≠ .err error := by
  unfold Profile.add64
  split <;> simp

/-- A sum is returned if it is in range or nobody checks. -/
theorem add64_ok_iff (profile : Profile) (left right sum : UInt64) :
    (profile.add64 left right : Outcome ε UInt64) = .ok sum ↔
      (profile.overflowChecks = true → left.toNat + right.toNat < 2 ^ 64) ∧ left + right = sum := by
  unfold Profile.add64
  split
  · rename_i overflows
    exact iff_of_false (by simp) fun ⟨fits, _⟩ => absurd (fits overflows.1) (not_lt.mpr overflows.2)
  · rename_i fitting
    rw [Outcome.ok.injEq]
    exact (and_iff_right fun checks => by_contra fun large =>
      fitting ⟨checks, not_lt.mp large⟩).symm

/-- A value within the range is exact in every build. -/
theorem i128_fits (profile : Profile) (exact : Int) (fits : InI128 exact) :
    (profile.i128 exact : Outcome ε Int) = .ok exact := if_pos fits

/-- What an operation on `i128` returns is one. -/
theorem i128_range (profile : Profile) (exact value : Int)
    (returned : (profile.i128 exact : Outcome ε Int) = .ok value) : InI128 value := by
  unfold Profile.i128 at returned
  split at returned
  · rename_i fits
    exact Outcome.ok.inj returned ▸ fits
  · split at returned
    · simp at returned
    · obtain rfl := Outcome.ok.inj returned
      unfold InI128 wrapI128
      omega

/-- A sum within the range is never clamped. -/
theorem saturatingAdd_fits (left right : UInt64)
    (fits : left.toNat + right.toNat < 2 ^ 64) :
    (saturatingAdd left right).toNat = left.toNat + right.toNat := by
  rw [saturatingAdd, if_pos fits, UInt64.toNat_add, Nat.mod_eq_of_lt fits]

/-- Saturation clamps the exact sum once. -/
theorem saturatingAdd_toNat (left right : UInt64) :
    (saturatingAdd left right).toNat = min (left.toNat + right.toNat) (2 ^ 64 - 1) := by
  by_cases fits : left.toNat + right.toNat < 2 ^ 64
  · rw [saturatingAdd_fits left right fits]
    omega
  · rw [saturatingAdd, if_neg fits, UInt64.toNat_ofNat_of_lt' (by simp [UInt64.size])]
    omega

/-- Saturation clamps the exact product once. -/
theorem saturatingMul_toNat (left right : UInt64) :
    (saturatingMul left right).toNat = min (left.toNat * right.toNat) (2 ^ 64 - 1) := by
  by_cases fits : left.toNat * right.toNat < 2 ^ 64
  · rw [saturatingMul, if_pos fits, UInt64.toNat_mul, Nat.mod_eq_of_lt fits]
    omega
  · rw [saturatingMul, if_neg fits, UInt64.toNat_ofNat_of_lt' (by simp [UInt64.size])]
    omega

/-- A magnitude within the signed range is unwrapped. -/
theorem absIntoU64_fits (value : Int) (fits : value.natAbs < 2 ^ 63) :
    (absIntoU64 value : Outcome ε UInt64) = .ok (UInt64.ofNat value.natAbs) := if_pos fits

/-- An unwrapped magnitude is the distance from zero. -/
theorem absIntoU64_toNat (value : Int) (magnitude : UInt64)
    (unwrapped : (absIntoU64 value : Outcome ε UInt64) = .ok magnitude) :
    magnitude.toNat = value.natAbs := by
  unfold absIntoU64 at unwrapped
  split at unwrapped
  · rename_i fits
    obtain rfl := Outcome.ok.inj unwrapped
    exact UInt64.toNat_ofNat_of_lt' (by simp only [UInt64.size]; omega)
  · simp at unwrapped

/-- A difference of two non-negative `i64` values is one too, and not the least. -/
theorem checkedSubI64_range (left right difference : Int)
    (leftRange : 0 ≤ left ∧ left < 2 ^ 63) (rightRange : 0 ≤ right ∧ right < 2 ^ 63)
    (subtracted : checkedSubI64 left right = some difference) :
    difference.natAbs < 2 ^ 63 := by
  unfold checkedSubI64 at subtracted
  split at subtracted
  · obtain rfl := Option.some.inj subtracted
    omega
  · simp at subtracted

/-- A converted value is non-negative and in range. -/
theorem tryI64_range (value : UInt64) (converted : Int) (success : tryI64 value = some converted) :
    0 ≤ converted ∧ converted < 2 ^ 63 := by
  unfold tryI64 at success
  split at success
  · obtain rfl := Option.some.inj success
    omega
  · simp at success

end Graced
