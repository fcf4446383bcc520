import SwitchLexicon.Limit
import SwitchLexicon.Toml.Text
import SwitchLexicon.Value.Basic

/-!
Numbers, truth values, dates and times of TOML.
-/
namespace SwitchLexicon.Toml

def isAsciiDigit (c : Char) : Bool :=
  c.isDigit

def isHexDigit (c : Char) : Bool :=
  (Text.hexValue? c).isSome

def digitsIn (base : Nat) (ds : List Char) : Nat :=
  ds.foldl (fun n c => n * base + (Text.hexValue? c).getD 0) 0

/-- Further digits of a number. One underscore may stand between two digits. -/
def moreDigits (isIn : Char → Bool) : List Char → List Char × List Char
  | [] => ([], [])
  | '_' :: d :: cs =>
    if isIn d then
      let (ds, rest) := moreDigits isIn cs
      (d :: ds, rest)
    else ([], '_' :: d :: cs)
  | c :: cs =>
    if isIn c then
      let (ds, rest) := moreDigits isIn cs
      (c :: ds, rest)
    else ([], c :: cs)

def digitRun (isIn : Char → Bool) : List Char → Read (List Char)
  | [] => none
  | c :: cs =>
    if isIn c then
      let (ds, rest) := moreDigits isIn cs
      some (c :: ds, rest)
    else none

def baseOf? (letter : Char) : Option (Nat × (Char → Bool)) :=
  if letter = 'x' then some (16, isHexDigit)
  else if letter = 'o' then some (8, fun c => decide (c.toNat < 0x38) && c.isDigit)
  else if letter = 'b' then some (2, fun c => c == '0' || c == '1')
  else none

def readBased : List Char → Option (Value × List Char)
  | '0' :: letter :: cs => do
    let (base, isIn) ← baseOf? letter
    let (ds, rest) ← digitRun isIn cs
    return (.int (digitsIn base ds), rest)
  | _ => none

def signOf : List Char → Bool × List Char
  | '-' :: cs => (true, cs)
  | '+' :: cs => (false, cs)
  | cs => (false, cs)

/-- A decimal whole number does not start with a zero, unless it is zero. -/
def wholePart : List Char → Read (List Char)
  | '0' :: cs => some (['0'], cs)
  | cs => digitRun isAsciiDigit cs

def fractionPart (cs : List Char) : List Char × List Char :=
  match cs with
  | '.' :: rest => (digitRun isAsciiDigit rest).getD ([], cs)
  | _ => ([], cs)

def exponentPart (cs : List Char) : Option Int × List Char :=
  match cs with
  | c :: rest =>
    if c = 'e' || c = 'E' then
      let (negative, rest) := signOf rest
      match digitRun isAsciiDigit rest with
      | some (ds, rest) =>
        let n : Int := digitsIn 10 ds
        (some (if negative then -n else n), rest)
      | none => (none, cs)
    else (none, cs)
  | [] => (none, [])

def readDecimal (cs : List Char) : Option (Value × List Char) := do
  let (negative, body) := signOf cs
  let (whole, afterWhole) ← wholePart body
  let (fraction, afterFraction) := fractionPart afterWhole
  let (exponent, rest) := exponentPart afterFraction
  if fraction.isEmpty && exponent.isNone then
    if digitLimit < whole.length then none
    else
      let n : Int := digitsIn 10 whole
      some (.int (if negative then -n else n), rest)
  else
    some (.float (.ofDecimal negative (digitsIn 10 (whole ++ fraction))
      (exponent.getD 0 - fraction.length)), rest)

def words : List (String × Value) :=
  [("true", .bool true), ("false", .bool false), ("inf", .float (.infinity false)),
    ("+inf", .float (.infinity false)), ("-inf", .float (.infinity true)), ("nan", .float .nan),
    ("+nan", .float .nan), ("-nan", .float .nan)]

def readWord (cs : List Char) : Read Value :=
  (words.find? fun w => w.1.toList.isPrefixOf cs).map fun w => (w.2, cs.drop w.1.length)

def readDigits : Nat → List Char → Read Nat
  | n, cs =>
    let ds := cs.take n
    if ds.length = n ∧ ds.all isAsciiDigit then some (digitsIn 10 ds, cs.drop n) else none

def readUpTo (low high : Nat) (cs : List Char) : Option (Nat × List Char) := do
  let (n, rest) ← readDigits 2 cs
  if low ≤ n ∧ n ≤ high then some (n, rest) else none

def readMark (c : Char) : List Char → Option (List Char)
  | d :: cs => if d = c then some cs else none
  | [] => none

def readDate (cs : List Char) : Option (Date × List Char) := do
  let (year, cs) ← readDigits 4 cs
  let (month, cs) ← readUpTo 1 12 (← readMark '-' cs)
  let (day, cs) ← readUpTo 1 31 (← readMark '-' cs)
  return (⟨year, month, day⟩, cs)

/-- The places of a second beyond the sixth are dropped. -/
def microsOf (ds : List Char) : Nat :=
  let kept := ds.take 6
  digitsIn 10 (kept ++ List.replicate (6 - kept.length) '0')

def readTime (cs : List Char) : Option (TimeOfDay × List Char) := do
  let (hour, cs) ← readUpTo 0 23 cs
  let (minute, cs) ← readUpTo 0 59 (← readMark ':' cs)
  let (second, cs) ← readUpTo 0 59 (← readMark ':' cs)
  match cs with
  | '.' :: rest =>
    let ds := rest.takeWhile isAsciiDigit
    if ds.isEmpty then return (⟨hour, minute, second, 0⟩, cs)
    else return (⟨hour, minute, second, microsOf ds⟩, rest.dropWhile isAsciiDigit)
  | _ => return (⟨hour, minute, second, 0⟩, cs)

def readOffset (cs : List Char) : Option Int × List Char :=
  match cs with
  | [] => (none, [])
  | c :: rest =>
    if c = 'Z' || c = 'z' then (some 0, rest)
    else if c = '+' || c = '-' then
      let read : Option (Int × List Char) := do
        let (hour, rest) ← readUpTo 0 23 rest
        let (minute, rest) ← readUpTo 0 59 (← readMark ':' rest)
        let n : Int := hour * 60 + minute
        return (if c = '-' then -n else n, rest)
      match read with
      | some (n, rest) => (some n, rest)
      | none => (none, cs)
    else (none, cs)

def readPoint (date : Date) (cs : List Char) : Moment × List Char :=
  match cs with
  | c :: rest =>
    if c = 'T' || c = 't' || c = ' ' then
      match readTime rest with
      | some (time, rest) =>
        let (offset, rest) := readOffset rest
        (.point date time offset, rest)
      | none => (.date date, cs)
    else (.date date, cs)
  | [] => (.date date, [])

def readScalar (cs : List Char) : Read Value :=
  match readDate cs with
  | some (date, rest) =>
    if date.isValid then
      let (m, rest) := readPoint date rest
      some (.moment m, rest)
    else none
  | none =>
    match readTime cs with
    | some (time, rest) => some (.moment (.time time), rest)
    | none => (readWord cs).orElse fun _ => (readBased cs).orElse fun _ => readDecimal cs

end SwitchLexicon.Toml
