import SwitchLexicon.Number.Binary64

/-!
The shortest decimal that reads back as a given number, and its text. The reals that round to a
number form an interval; of the decimals with the fewest digits in it the nearest one is taken.
-/
namespace SwitchLexicon.Binary64

structure Decimal where
  digits : Nat
  power : Int
deriving DecidableEq, Repr

/-- A finite positive number and its interval as numerators over one denominator, with `closed`
telling whether the ends belong to it. -/
structure Interval where
  low : Nat
  value : Nat
  high : Nat
  den : Nat
  closed : Bool
deriving DecidableEq, Repr

/-- The gap below a power of two is half as wide as the gap above it. -/
def interval (x : Binary64) : Interval :=
  let m := x.mantissa
  let below := if x.fraction = 0 ∧ 1 < x.exponentField then 1 else 2
  let e := x.exponent - 2
  let up := pow2 e.toNat
  { low := (4 * m - below) * up, value := 4 * m * up, high := (4 * m + 2) * up
    den := pow2 (-e).toNat, closed := m % 2 == 0 }

namespace Interval

def holds (i : Interval) (d : Nat) (power : Int) : Bool :=
  let p := d * pow10 power.toNat * i.den
  let q := pow10 (-power).toNat
  if i.closed then decide (i.low * q ≤ p) && decide (p ≤ i.high * q)
  else decide (i.low * q < p) && decide (p < i.high * q)

def scaled (i : Interval) (power : Int) : Nat × Nat :=
  (i.value * pow10 (-power).toNat, i.den * pow10 power.toNat)

/-- The neighbours of the value on the grid of `10 ^ power`: the one that lies in the interval, of
two the nearer, and at equal distance the even one. -/
def onGrid? (i : Interval) (power : Int) : Option Nat :=
  let (num, den) := i.scaled power
  let d := num / den
  let r := num % den
  match i.holds d power, i.holds (d + 1) power with
  | true, true => some (if 2 * r < den then d else if den < 2 * r then d + 1 else d + d % 2)
  | true, false => some d
  | false, true => some (d + 1)
  | false, false => none

/-- The power of ten of the leading digit, from a guess that is at most one too high or low. -/
def leading (i : Interval) : Int :=
  let bits : Int := (i.value.log2 : Int) - i.den.log2
  let guess := (bits * 30103) / 100000
  let reaches (p : Int) : Bool :=
    let (num, den) := i.scaled p
    decide (den ≤ num)
  if reaches (guess + 1) then guess + 1 else if reaches guess then guess else guess - 1

/-- Tries one digit, then two, and so on; `fuel` bounds the digits still allowed. -/
def search (i : Interval) (top : Int) : Nat → Nat → Option Decimal
  | 0, _ => none
  | fuel + 1, digits =>
    let power := top - (digits : Int) + 1
    match i.onGrid? power with
    | some d => some ⟨d, power⟩
    | none => search i top fuel (digits + 1)

end Interval

def Decimal.trim : Nat → Decimal → Decimal
  | 0, d => d
  | fuel + 1, d =>
    if d.digits ≠ 0 ∧ d.digits % 10 = 0 then trim fuel ⟨d.digits / 10, d.power + 1⟩ else d

def shortest (x : Binary64) : Decimal :=
  if x.isZero then ⟨0, 0⟩
  else
    let i := x.interval
    match i.search i.leading 17 1 with
    | some d => d.trim 17
    | none => ⟨0, 0⟩

def zeros (n : Nat) : String :=
  String.ofList (List.replicate n '0')

/-- Positional between `1e-4` and `1e16`, always with a point; beyond that one digit before the
point and an exponent of at least two digits with its sign. -/
def Decimal.text (d : Decimal) : String :=
  let ds := (toString d.digits).toList
  let n := ds.length
  let exponent : Int := d.power + (n : Int) - 1
  if -4 ≤ exponent ∧ exponent < 16 then
    if 0 ≤ d.power then String.ofList ds ++ zeros d.power.toNat ++ ".0"
    else if 0 ≤ exponent then
      let k := (exponent + 1).toNat
      String.ofList (ds.take k) ++ "." ++ String.ofList (ds.drop k)
    else "0." ++ zeros (-exponent - 1).toNat ++ String.ofList ds
  else
    let tail := ds.drop 1
    let mark := if tail.isEmpty then "" else "." ++ String.ofList tail
    let e := toString exponent.natAbs
    String.ofList (ds.take 1) ++ mark ++ "e" ++ (if exponent < 0 then "-" else "+") ++
      (if e.length < 2 then "0" ++ e else e)

def text (x : Binary64) : String :=
  if x.isNaN then "nan"
  else
    (if x.isNegative then "-" else "") ++
      (if x.isInfinite then "inf" else x.shortest.text)

end SwitchLexicon.Binary64
