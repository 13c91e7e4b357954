import Graced.Numerals
import Mathlib.Data.List.DropRight
import Mathlib.Data.Rat.Defs
import Mathlib.Tactic.FieldSimp
import Mathlib.Tactic.Ring

/-!
# Decimal numbers as text

A decimal number is a sequence of digits, which may be followed by a point and the digits of
a fraction. Zeros in front of a whole number and zeros at the end of a fraction do not change
the value, as long as the number of places is counted. For readers the whole part may be
grouped: from the right, a comma stands before every three digits that something precedes.
-/

namespace Graced.DecimalText

open Numerals

/-- The value of digits with an optional fraction. -/
def value (text : List Char) : Option ℚ :=
  match text.dropWhile (· ≠ '.') with
  | [] => (magnitude text).map (fun whole : Nat => (whole : ℚ))
  | _ :: fraction => do
    let whole ← magnitude (text.takeWhile (· ≠ '.'))
    let part ← magnitude fraction
    some (whole + part / 10 ^ fraction.length)

/-- Digits in groups of three from the right, with a comma before each group but the first,
which has one to three digits. -/
def Grouped (text : List Char) : Prop :=
  ∃ (first : List Char) (groups : List (List Char)),
    text = first ++ groups.flatMap (fun group => ',' :: group) ∧
    1 ≤ first.length ∧ first.length ≤ 3 ∧ (∀ c ∈ first, c.isDigit) ∧
    ∀ group ∈ groups, group.length = 3 ∧ ∀ c ∈ group, c.isDigit

/-- A digit is neither a comma nor a point. -/
theorem ne_mark (c : Char) (decimal : c.isDigit) : c ≠ ',' ∧ c ≠ '.' := by
  constructor <;> rintro rfl <;> exact absurd decimal (by decide)

/-! ## Values -/

section Value

variable (whole fraction : List Char) (nonempty : whole ≠ []) (decimal : ∀ c ∈ whole, c.isDigit)

include nonempty decimal

/-- Digits without a point. -/
theorem value_whole : value whole = some ((Nat.ofDigitChars 10 whole 0 : Nat) : ℚ) := by
  have noPoint : whole.dropWhile (· ≠ '.') = [] := by
    rw [List.dropWhile_eq_nil_iff]
    exact fun c member => decide_eq_true (ne_mark c (decimal c member)).2
  rw [value, noPoint]
  simp only [magnitude_eq whole nonempty decimal, Option.map_some]

/-- Digits with a fraction. -/
theorem value_fraction (places : fraction ≠ []) (decimals : ∀ c ∈ fraction, c.isDigit) :
    value (whole ++ '.' :: fraction) =
      some (((Nat.ofDigitChars 10 whole 0 : Nat) : ℚ) +
        ((Nat.ofDigitChars 10 fraction 0 : Nat) : ℚ) / 10 ^ fraction.length) := by
  have before : ∀ c ∈ whole, decide (c ≠ '.') = true :=
    fun c member => decide_eq_true (ne_mark c (decimal c member)).2
  have dropped : (whole ++ '.' :: fraction).dropWhile (· ≠ '.') = '.' :: fraction := by
    rw [List.dropWhile_append_of_pos before]
    rfl
  have taken : (whole ++ '.' :: fraction).takeWhile (· ≠ '.') = whole := by
    rw [List.takeWhile_append_of_pos before]
    exact List.append_nil whole
  rw [value, dropped]
  simp only [taken, magnitude_eq whole nonempty decimal, magnitude_eq fraction places decimals,
    Option.bind_eq_bind, Option.bind_some]

end Value

/-! ## Zeros that make no difference -/

/-- Zeros in front. -/
theorem ofDigitChars_leftpad (width : Nat) (text : List Char) :
    Nat.ofDigitChars 10 (text.leftpad width '0') 0 = Nat.ofDigitChars 10 text 0 := by
  rw [List.leftpad, Nat.ofDigitChars_append, Nat.ofDigitChars_replicate_zero, Nat.mul_zero]

/-- Zeros at the end of a fraction count for places. -/
theorem ofDigitChars_rdropWhile (text : List Char) :
    Nat.ofDigitChars 10 (text.rdropWhile (· = '0')) 0 *
        10 ^ (text.length - (text.rdropWhile (· = '0')).length) =
      Nat.ofDigitChars 10 text 0 := by
  induction text using List.reverseRecOn with
  | nil => rfl
  | append_singleton text last inductionHypothesis =>
    by_cases zero : last = '0'
    · subst zero
      have shorter := (List.rdropWhile_prefix (fun c => decide (c = '0')) text).length_le
      rw [List.rdropWhile_concat_pos _ _ _ (by decide), Nat.ofDigitChars_append,
        ← inductionHypothesis, List.length_append, List.length_singleton, Nat.succ_sub shorter,
        Nat.pow_succ, Nat.ofDigitChars_cons, Nat.ofDigitChars_nil]
      change _ = 10 * _ + 0
      ring
    · rw [List.rdropWhile_concat_neg _ _ _ (by simpa using zero), Nat.sub_self, Nat.pow_zero,
        Nat.mul_one]

/-- A whole number and a fraction, counted in the last of more places. -/
theorem add_places (whole part places decimals : Nat) (enough : places ≤ decimals) :
    (whole : ℚ) + (part : ℚ) / 10 ^ places =
      ((whole * 10 ^ decimals + part * 10 ^ (decimals - places) : Nat) : ℚ) / 10 ^ decimals := by
  obtain ⟨more, rfl⟩ := Nat.exists_eq_add_of_le enough
  rw [Nat.add_sub_cancel_left]
  push_cast
  field_simp
  ring

end Graced.DecimalText
