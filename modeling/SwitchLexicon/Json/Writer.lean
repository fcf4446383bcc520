import SwitchLexicon.Number.Shortest
import SwitchLexicon.Text.Digit
import SwitchLexicon.Text.Surrogate
import SwitchLexicon.Value.Basic

/-!
Values as JSON text in ASCII, on one line or with two spaces of indentation a level. Keys that are
not texts are written as the texts of their values.
-/
namespace SwitchLexicon.Json

def unitEscape (n : Nat) : List Char :=
  '\\' :: 'u' :: Text.hexDigits 4 n

def escapedChar (c : Char) : List Char :=
  let n := c.toNat
  if n = 0x22 then ['\\', c]
  else if c = '\\' then ['\\', c]
  else if n = 0x08 then ['\\', 'b']
  else if n = 0x0C then ['\\', 'f']
  else if c = '\n' then ['\\', 'n']
  else if c = '\r' then ['\\', 'r']
  else if c = '\t' then ['\\', 't']
  else if 0x20 ≤ n ∧ n < 0x7F then [c]
  else
    match Text.surrogate? c with
    | some u => unitEscape u
    | none =>
      if n < 0x10000 then unitEscape n
      else
        unitEscape (0xD800 + (n - 0x10000) / 0x400) ++
          unitEscape (0xDC00 + (n - 0x10000) % 0x400)

def textLiteral (s : String) : String :=
  "\"" ++ String.ofList (s.toList.flatMap escapedChar) ++ "\""

def floatLiteral (x : Binary64) : String :=
  if x.isNaN then "NaN"
  else if x.isInfinite then if x.isNegative then "-Infinity" else "Infinity"
  else x.text

def keyText : Key → String
  | .null => "null"
  | .bool b => if b then "true" else "false"
  | .int n => toString n
  | .float x => floatLiteral x
  | .text s => s

/-- Where a container breaks its lines; `none` keeps all on one line. -/
abbrev Indent := Option Nat

def Indent.deeper (i : Indent) : Indent :=
  i.map (· + 1)

def Indent.newline : Indent → String
  | none => ""
  | some level => "\n" ++ String.ofList (List.replicate (2 * level) ' ')

def container (i : Indent) (opening closing : String) (parts : List String) : String :=
  if parts.isEmpty then opening ++ closing
  else
    opening ++ i.deeper.newline ++ ("," ++ i.deeper.newline).intercalate parts ++ i.newline ++
      closing

mutual

def write (i : Indent) : Value → String
  | .null => "null"
  | .bool b => if b then "true" else "false"
  | .int n => toString n
  | .float x => floatLiteral x
  | .text s => textLiteral s
  | .moment m => textLiteral m.text
  | .list xs => container i "[" "]" (writeItems i.deeper xs)
  | .map es => container i "\x7b" "\x7d" (writeEntries i.deeper es)

def writeItems (i : Indent) : List Value → List String
  | [] => []
  | v :: vs => write i v :: writeItems i vs

def writeEntries (i : Indent) : List (Key × Value) → List String
  | [] => []
  | (k, v) :: es =>
    (textLiteral (keyText k) ++ (if i.isSome then ": " else ":") ++ write i v) :: writeEntries i es

end

def compact (v : Value) : String :=
  write none v

def pretty (v : Value) : String :=
  write (some 0) v

end SwitchLexicon.Json
