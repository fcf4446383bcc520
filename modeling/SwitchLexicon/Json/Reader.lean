import SwitchLexicon.Limit
import SwitchLexicon.Text.Digit
import SwitchLexicon.Text.Surrogate
import SwitchLexicon.Value.Basic

/-!
Reading of JSON text. Numbers without fraction and exponent are whole numbers of any size up to a
bound on their digits, `NaN` and the infinities are taken, and a name that occurs twice keeps its
first place and its last value. A failure tells the place in the text where reading stopped.
-/
namespace SwitchLexicon.Json

inductive Fault where
  | byteOrderMark
  | expectedValue
  | expectedName
  | expectedColon
  | expectedComma
  | extraData
  | controlCharacter
  | unterminated
  | badEscape
  | badUnitEscape
deriving DecidableEq, Repr

def Fault.message : Fault → String
  | .byteOrderMark => "Unexpected UTF-8 BOM (decode using utf-8-sig)"
  | .expectedValue => "Expecting value"
  | .expectedName => "Expecting property name enclosed in double quotes"
  | .expectedColon => "Expecting ':' delimiter"
  | .expectedComma => "Expecting ',' delimiter"
  | .extraData => "Extra data"
  | .controlCharacter => "Invalid control character at"
  | .unterminated => "Unterminated string starting at"
  | .badEscape => "Invalid \\escape"
  | .badUnitEscape => "Invalid \\uXXXX escape"

inductive Stop where
  | fault (fault : Fault) (ahead : List Char)
  | digits (count : Nat)
  | nesting (isList : Bool)
deriving DecidableEq, Repr

abbrev Read (α : Type) := Except Stop (α × List Char)

def isSpace (c : Char) : Bool :=
  c = ' ' || c = '\t' || c = '\n' || c = '\r'

def skipSpace (cs : List Char) : List Char :=
  cs.dropWhile isSpace

def isAsciiDigit (c : Char) : Bool :=
  decide (0x30 ≤ c.toNat) && decide (c.toNat ≤ 0x39)

def digitsValue (ds : List Char) : Nat :=
  ds.foldl (fun n d => 10 * n + (d.toNat - 0x30)) 0

def unit? (a b c d : Char) : Option Nat := do
  let a ← Text.hexValue? a
  let b ← Text.hexValue? b
  let c ← Text.hexValue? c
  let d ← Text.hexValue? d
  return ((a * 16 + b) * 16 + c) * 16 + d

def simpleEscape? (c : Char) : Option Char :=
  if c = '"' then some c
  else if c = '\\' then some c
  else if c = '/' then some c
  else if c = 'b' then some (Char.ofNat 8)
  else if c = 'f' then some (Char.ofNat 12)
  else if c = 'n' then some '\n'
  else if c = 'r' then some '\r'
  else if c = 't' then some '\t'
  else none

/-- One more unit from an escape; `high` is the unit just before it, if that was an escape too and
the first half of a pair. -/
def pushUnit (high : Option Nat) (n : Nat) (acc : List Char) : List Char :=
  match high with
  | some h =>
    if Text.isLowSurrogate n then Char.ofNat (Text.joinSurrogates h n) :: acc.drop 1
    else Text.ofCode n :: acc
  | none => Text.ofCode n :: acc

/-- The text after an opening quote. `opening` is the text from that quote on and `acc` what was
read, last character first. -/
def readText (opening acc : List Char) (high : Option Nat) : List Char → Read String
  | [] => .error (.fault .unterminated opening)
  | '"' :: rest => .ok (String.ofList acc.reverse, rest)
  | '\\' :: rest =>
    match rest with
    | [] => .error (.fault .unterminated opening)
    | 'u' :: a :: b :: c :: d :: tail =>
      match unit? a b c d with
      | none => .error (.fault .badUnitEscape ('u' :: a :: b :: c :: d :: tail))
      | some n =>
        if tail.isEmpty then .error (.fault .badUnitEscape ['u', a, b, c, d])
        else
          readText opening (pushUnit high n acc) (if Text.isHighSurrogate n then some n else none)
            tail
    | e :: tail =>
      if e = 'u' then .error (.fault .badUnitEscape (e :: tail))
      else
        match simpleEscape? e with
        | some c => readText opening (c :: acc) none tail
        | none => .error (.fault .badEscape ('\\' :: e :: tail))
  | c :: rest =>
    if c.toNat < 0x20 then .error (.fault .controlCharacter (c :: rest))
    else readText opening (c :: acc) none rest

def fractionOf : List Char → List Char × List Char
  | '.' :: cs =>
    let ds := cs.takeWhile isAsciiDigit
    if ds.isEmpty then ([], '.' :: cs) else (ds, cs.dropWhile isAsciiDigit)
  | cs => ([], cs)

def exponentOf (cs : List Char) : Option Int × List Char :=
  match cs with
  | c :: rest =>
    if c = 'e' || c = 'E' then
      let negative := rest.head? == some '-'
      let body := if negative || rest.head? == some '+' then rest.drop 1 else rest
      let ds := body.takeWhile isAsciiDigit
      if ds.isEmpty then (none, cs)
      else
        let n : Int := digitsValue ds
        (some (if negative then -n else n), body.dropWhile isAsciiDigit)
    else (none, cs)
  | [] => (none, [])

def readNumber (cs : List Char) : Read Value :=
  let negative := cs.head? == some '-'
  let body := if negative then cs.drop 1 else cs
  let whole := if body.head? == some '0' then ['0'] else body.takeWhile isAsciiDigit
  if whole.isEmpty then .error (.fault .expectedValue cs)
  else
    let (fraction, afterFraction) := fractionOf (body.drop whole.length)
    let (exponent, rest) := exponentOf afterFraction
    if fraction.isEmpty && exponent.isNone then
      if digitLimit < whole.length then .error (.digits whole.length)
      else
        let n : Int := digitsValue whole
        .ok (.int (if negative then -n else n), rest)
    else
      .ok (.float (.ofDecimal negative (digitsValue (whole ++ fraction))
        (exponent.getD 0 - fraction.length)), rest)

def literals : List (String × Value) :=
  [("null", .null), ("true", .bool true), ("false", .bool false), ("NaN", .float .nan),
    ("Infinity", .float (.infinity false)), ("-Infinity", .float (.infinity true))]

def readScalar (cs : List Char) : Read Value :=
  match literals.find? fun l => l.1.toList.isPrefixOf cs with
  | some (word, v) => .ok (v, cs.drop word.length)
  | none => readNumber cs

def depthLimit : Nat := Stack.levels 1

mutual

def readValue (depth : Nat) : Nat → List Char → Read Value
  | 0, cs => .error (.fault .expectedValue cs)
  | fuel + 1, cs =>
    match cs with
    | '"' :: rest =>
      match readText cs [] none rest with
      | .error e => .error e
      | .ok (s, rest) => .ok (.text s, rest)
    | '[' :: rest =>
      if depth = 0 then .error (.nesting true)
      else
        match skipSpace rest with
        | ']' :: rest => .ok (.list [], rest)
        | rest => readItems (depth - 1) fuel [] rest
    | '{' :: rest =>
      if depth = 0 then .error (.nesting false)
      else
        match skipSpace rest with
        | '}' :: rest => .ok (.map [], rest)
        | rest => readEntries (depth - 1) fuel [] rest
    | _ => readScalar cs

def readItems (depth : Nat) : Nat → List Value → List Char → Read Value
  | 0, _, cs => .error (.fault .expectedValue cs)
  | fuel + 1, acc, cs =>
    match readValue depth fuel cs with
    | .error e => .error e
    | .ok (v, rest) =>
      match skipSpace rest with
      | ']' :: rest => .ok (.list (v :: acc).reverse, rest)
      | ',' :: rest => readItems depth fuel (v :: acc) (skipSpace rest)
      | rest => .error (.fault .expectedComma rest)

def readEntries (depth : Nat) : Nat → List (Key × Value) → List Char → Read Value
  | 0, _, cs => .error (.fault .expectedName cs)
  | fuel + 1, acc, cs =>
    match cs with
    | '"' :: rest =>
      match readText cs [] none rest with
      | .error e => .error e
      | .ok (name, rest) =>
        match skipSpace rest with
        | ':' :: rest =>
          match readValue depth fuel (skipSpace rest) with
          | .error e => .error e
          | .ok (v, rest) =>
            match skipSpace rest with
            | '}' :: rest => .ok (.map (Entries.ofPairs ((.text name, v) :: acc).reverse), rest)
            | ',' :: rest => readEntries depth fuel ((.text name, v) :: acc) (skipSpace rest)
            | rest => .error (.fault .expectedComma rest)
        | rest => .error (.fault .expectedColon rest)
    | _ => .error (.fault .expectedName cs)

end

def readDocument (cs : List Char) : Except Stop Value :=
  if cs.head? == some (Char.ofNat 0xFEFF) then .error (.fault .byteOrderMark cs)
  else
    match readValue depthLimit (2 * cs.length + 2) (skipSpace cs) with
    | .error e => .error e
    | .ok (v, rest) =>
      match skipSpace rest with
      | [] => .ok v
      | rest => .error (.fault .extraData rest)

structure Position where
  offset : Nat
  line : Nat
  column : Nat
deriving DecidableEq, Repr

def positionOf (cs : List Char) (offset : Nat) : Position :=
  let before := cs.take offset
  { offset := offset, line := before.count '\n' + 1
    column := (before.reverse.takeWhile (· != '\n')).length + 1 }

inductive Error where
  | malformed (fault : Fault) (position : Position)
  | tooManyDigits (count : Nat)
  | tooDeep (isList : Bool)
deriving DecidableEq, Repr

def Error.message : Error → String
  | .malformed fault position =>
    fault.message ++ ": line " ++ toString position.line ++
      " column " ++ toString position.column ++ " (char " ++ toString position.offset ++ ")"
  | .tooManyDigits count =>
    "Exceeds the limit (" ++ toString digitLimit ++
      " digits) for integer string conversion: value has " ++
      toString count ++ " digits; use sys.set_int_max_str_digits() to increase the limit"
  | .tooDeep isList =>
    "maximum recursion depth exceeded while decoding a JSON " ++
      (if isList then "array" else "object") ++
      " from a unicode string"

def read (s : String) : Except Error Value :=
  match readDocument s.toList with
  | .ok v => .ok v
  | .error (.fault fault ahead) =>
    .error (.malformed fault (positionOf s.toList (s.toList.length - ahead.length)))
  | .error (.digits count) => .error (.tooManyDigits count)
  | .error (.nesting isList) => .error (.tooDeep isList)

end SwitchLexicon.Json
