import Mathlib.Data.List.Basic
import Mathlib.Data.Nat.Basic
import Mathlib.Algebra.GroupWithZero.Nat
import Mathlib.Algebra.Group.Int.Defs

/-!
# Decimal numerals

Integers that travel as text. A numeral is a sequence of at least one digit, after a sign
that may be missing. Reading one into a machine integer fails on any other text and on a
value that the type cannot hold; only signed types take a minus sign.
-/

namespace Graced.Numerals

/-- The value of a decimal digit. -/
def digit (c : Char) : Option Nat :=
  if '0' ≤ c ∧ c ≤ '9' then some (c.toNat - '0'.toNat) else none

/-- Append digits to a number, most significant first. -/
def digits : Nat → List Char → Option Nat
  | value, [] => some value
  | value, c :: rest => (digit c).bind (fun d => digits (10 * value + d) rest)

/-- The value of a sequence of digits, of which there has to be one. -/
def magnitude : List Char → Option Nat
  | [] => none
  | c :: rest => digits 0 (c :: rest)

/-- The value of a numeral with its sign. -/
def signed : List Char → Option Int
  | '-' :: rest => (magnitude rest).map (fun value => -(value : Int))
  | '+' :: rest => (magnitude rest).map Int.ofNat
  | text => (magnitude text).map Int.ofNat

/-- The value of a numeral of an unsigned type, which takes a plus sign and no minus sign. -/
def unsigned : List Char → Option Nat
  | '+' :: rest => magnitude rest
  | text => magnitude text

/-- `parse::<u8>` -/
def parseU8 (text : String) : Option UInt8 :=
  (unsigned text.toList).bind (fun value => if value < 256 then some (UInt8.ofNat value) else none)

/-- `parse::<i128>` -/
def parseI128 (text : String) : Option Int :=
  (signed text.toList).bind
    (fun value => if -2 ^ 127 ≤ value ∧ value < 2 ^ 127 then some value else none)

theorem digit_of_isDigit (c : Char) (decimal : c.isDigit) :
    digit c = some (c.toNat - '0'.toNat) := by
  rw [Char.isDigit, Bool.and_eq_true, decide_eq_true_eq, decide_eq_true_eq] at decimal
  exact if_pos decimal

/-- Digits are read as the number that they spell. -/
theorem digits_eq (chars : List Char) (decimal : ∀ c ∈ chars, c.isDigit) (value : Nat) :
    digits value chars = some (Nat.ofDigitChars 10 chars value) := by
  induction chars generalizing value with
  | nil => rw [digits, Nat.ofDigitChars_nil]
  | cons c rest inductionHypothesis =>
    rw [digits, digit_of_isDigit c (decimal c List.mem_cons_self), Option.bind_some,
      inductionHypothesis fun other member => decimal other (List.mem_cons_of_mem c member),
      Nat.ofDigitChars_cons]

theorem magnitude_eq (chars : List Char) (nonempty : chars ≠ [])
    (decimal : ∀ c ∈ chars, c.isDigit) :
    magnitude chars = some (Nat.ofDigitChars 10 chars 0) := by
  cases chars with
  | nil => exact absurd rfl nonempty
  | cons c rest => exact digits_eq (c :: rest) decimal 0

/-- The digits that a number is written with. -/
theorem toDigits_isDigit (value : Nat) : ∀ c ∈ Nat.toDigits 10 value, c.isDigit :=
  fun _ member => Nat.isDigit_of_mem_toDigits (by decide) (by decide) member

theorem magnitude_toDigits (value : Nat) : magnitude (Nat.toDigits 10 value) = some value := by
  rw [magnitude_eq _ Nat.toDigits_ne_nil (toDigits_isDigit value), Nat.ofDigitChars_ten_toDigits]

/-- A number that is written out is read back. -/
theorem parseI128_toString (value : Nat) (fits : value < 2 ^ 127) :
    parseI128 (toString value) = some (value : Int) := by
  have read : signed (Nat.toDigits 10 value) = some (value : Int) := by
    have decimal := toDigits_isDigit value
    have whole := magnitude_toDigits value
    unfold signed
    split
    · exact absurd (decimal '-' (by simp_all)) (by decide)
    · exact absurd (decimal '+' (by simp_all)) (by decide)
    · rw [whole]
      rfl
  rw [parseI128, Nat.toString_eq_repr, Nat.toList_repr, read, Option.bind_some,
    if_pos (by omega)]

example : parseI128 "-120" = some (-120) := by decide

example : parseU8 "256" = none := by decide

end Graced.Numerals
