import Mathlib.Algebra.GroupWithZero.Nat
import Mathlib.Data.Nat.Basic

/-!
# Binary64 numbers

A double is its 64 bits. The operations decode them into an exact integer
multiple of a power of two, compute exactly, and round once, to nearest with ties
to the even neighbour. Only what a decimal scaling needs is here: conversion from
and to an unsigned integer, and multiplication.
-/

namespace Graced

/-- The 64 bits of a double; every pattern is a value. -/
structure Float64 where
  bits : BitVec 64
deriving DecidableEq, Repr

namespace Float64

/-- What a bit pattern stands for. A finite value is its magnitude
`mantissa * 2 ^ exponent` and a sign. -/
inductive Class where
  | nan
  | infinite (negative : Bool)
  | finite (negative : Bool) (mantissa : Nat) (exponent : Int)
deriving DecidableEq, Repr

/-- Sign bit, eleven exponent bits, fifty-two fraction bits. The lowest exponent
field is that of the subnormal numbers, the highest that of infinities and NaNs. -/
def decode (value : Float64) : Class :=
  let magnitude := value.bits.toNat % 2 ^ 63
  let negative := decide (2 ^ 63 ≤ value.bits.toNat)
  let field : Nat := magnitude / 2 ^ 52
  let fraction := magnitude % 2 ^ 52
  if field = 2047 then
    if fraction = 0 then .infinite negative else .nan
  else if field = 0 then .finite negative fraction (-1074)
  else .finite negative (fraction + 2 ^ 52) ((field : Int) - 1075)

/-- Divide by a power of two, to nearest, ties to even. -/
def roundHalfEven (mantissa shift : Nat) : Nat :=
  let quotient := mantissa / 2 ^ shift
  let remainder := mantissa % 2 ^ shift
  if 2 ^ shift < 2 * remainder ∨ (2 ^ shift = 2 * remainder ∧ quotient % 2 = 1) then quotient + 1
  else quotient

/-- The bits of infinity without its sign. -/
def infinityBits : Nat := 2047 * 2 ^ 52

/-- Round `mantissa * 2 ^ exponent`. The unit in the last place is chosen first:
fifty-three significant bits, or the least subnormal unit when that is larger.
Adding the rounded mantissa to the exponent field lets a carry out of the
mantissa raise the exponent. -/
def round (negative : Bool) (mantissa : Nat) (exponent : Int) : Float64 :=
  let unit := max (exponent + mantissa.log2 + 1 - 53) (-1074)
  let rounded :=
    if exponent ≤ unit then roundHalfEven mantissa (unit - exponent).toNat
    else mantissa * 2 ^ (exponent - unit).toNat
  let magnitude := if mantissa = 0 then 0 else (unit + 1074).toNat * 2 ^ 52 + rounded
  ⟨BitVec.ofNat 64 ((if negative then 2 ^ 63 else 0) + min magnitude infinityBits)⟩

/-- `as f64` on an unsigned integer. -/
def ofNat (value : Nat) : Float64 := round false value 0

/-- The quiet NaN that invalid operations return. -/
def nan : Float64 := ⟨BitVec.ofNat 64 (infinityBits + 2 ^ 51)⟩

/-- An infinity of the given sign. -/
def infinite (negative : Bool) : Float64 :=
  ⟨BitVec.ofNat 64 ((if negative then 2 ^ 63 else 0) + infinityBits)⟩

/-- The product, rounded once. Zero times infinity is not a number. -/
def mul (left right : Float64) : Float64 :=
  match left.decode, right.decode with
  | .nan, _ => nan
  | _, .nan => nan
  | .infinite s, .infinite t => infinite (xor s t)
  | .infinite s, .finite t mantissa _ => if mantissa = 0 then nan else infinite (xor s t)
  | .finite s mantissa _, .infinite t => if mantissa = 0 then nan else infinite (xor s t)
  | .finite s m e, .finite t n f => round (xor s t) (m * n) (e + f)

/-- `trunc() as u64`: drop the fraction, then clamp to the range. A NaN and a
negative number become zero. -/
def truncToU64 (value : Float64) : UInt64 :=
  match value.decode with
  | .nan => 0
  | .infinite negative => if negative then 0 else UInt64.ofNat (2 ^ 64 - 1)
  | .finite negative mantissa exponent =>
    if negative then 0
    else
      let whole := if exponent < 0 then mantissa / 2 ^ (-exponent).toNat
        else mantissa * 2 ^ exponent.toNat
      UInt64.ofNat (min whole (2 ^ 64 - 1))

/-- Five hundredths times a hundred is rounded to exactly five. -/
example : (mul ⟨0x3FA999999999999A#64⟩ (ofNat 100)).truncToU64 = 5 := by decide

end Float64

end Graced
