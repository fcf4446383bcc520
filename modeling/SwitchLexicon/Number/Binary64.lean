/-!
Binary floating point numbers of 64 bits, as the numbers that data files hold. Nothing is computed
with them: they are read from decimal text, compared with whole numbers, and written again. A finite
one is `mantissa * 2 ^ exponent` with a sign.
-/
namespace SwitchLexicon

structure Binary64 where
  bits : UInt64
deriving DecidableEq, Repr

namespace Binary64

def pow2 (n : Nat) : Nat :=
  Nat.pow 2 n

def pow10 (n : Nat) : Nat :=
  Nat.pow 10 n

def isNegative (x : Binary64) : Bool :=
  decide (pow2 63 ≤ x.bits.toNat)

def exponentField (x : Binary64) : Nat :=
  x.bits.toNat / pow2 52 % pow2 11

def fraction (x : Binary64) : Nat :=
  x.bits.toNat % pow2 52

def isNaN (x : Binary64) : Bool :=
  x.exponentField == 2047 && x.fraction != 0

def isInfinite (x : Binary64) : Bool :=
  x.exponentField == 2047 && x.fraction == 0

def mantissa (x : Binary64) : Nat :=
  if x.exponentField = 0 then x.fraction else pow2 52 + x.fraction

def exponent (x : Binary64) : Int :=
  if x.exponentField = 0 then -1074 else (x.exponentField : Int) - 1075

def isZero (x : Binary64) : Bool :=
  x.exponentField == 0 && x.fraction == 0

def ofFields (negative : Bool) (exponentField fraction : Nat) : Binary64 :=
  ⟨(((if negative then pow2 63 else 0) + exponentField * pow2 52 + fraction : Nat)).toUInt64⟩

def nan : Binary64 := ofFields false 2047 (pow2 51)

def infinity (negative : Bool) : Binary64 := ofFields negative 2047 0

/-- The quotient rounded to the nearest whole number, halves to the even one. -/
def roundDiv (num den : Nat) : Nat :=
  let q := num / den
  let r := num % den
  if 2 * r < den then q else if den < 2 * r then q + 1 else q + q % 2

def scaleDown (num den : Nat) (e : Int) : Nat :=
  if 0 ≤ e then roundDiv num (den * pow2 e.toNat) else roundDiv (num * pow2 (-e).toNat) den

def belowPower (num den : Nat) (e : Int) : Bool :=
  if 0 ≤ e then decide (num < den * pow2 e.toNat) else decide (num * pow2 (-e).toNat < den)

/-- Nearest number to `num / den`. The exponent of the last place is the one at which the mantissa
has 53 bits, or the least one there is; a mantissa rounded up to `2 ^ 53` carries into the exponent
field. -/
def ofRatio (negative : Bool) (num den : Nat) : Binary64 :=
  if num = 0 then ofFields negative 0 0
  else
    let guess : Int := (num.log2 : Int) - den.log2
    let low := if belowPower num den guess then guess - 53 else guess - 52
    let e := max low (-1074)
    let m := scaleDown num den e
    let packed := if m < pow2 52 then m else (e + 1074).toNat * pow2 52 + m
    if 2047 * pow2 52 ≤ packed then infinity negative
    else ⟨((if negative then pow2 63 else 0) + packed : Nat).toUInt64⟩

/-- The number written `digits * 10 ^ power`. Powers beyond the range need no computing. -/
def ofDecimal (negative : Bool) (digits : Nat) (power : Int) : Binary64 :=
  if digits = 0 then ofFields negative 0 0
  else if 400 < power then infinity negative
  else if power < -400 - (digits.log2 : Int) then ofFields negative 0 0
  else if 0 ≤ power then ofRatio negative (digits * pow10 power.toNat) 1
  else ofRatio negative digits (pow10 (-power).toNat)

def toInt? (x : Binary64) : Option Int :=
  if x.isNaN || x.isInfinite then none
  else
    let sign : Int := if x.isNegative then -1 else 1
    if 0 ≤ x.exponent then some (sign * (x.mantissa * pow2 x.exponent.toNat : Nat))
    else
      let den := pow2 (-x.exponent).toNat
      if x.mantissa % den = 0 then some (sign * (x.mantissa / den : Nat)) else none

end Binary64

end SwitchLexicon
