import SwitchLexicon.Number.Shortest
import SwitchLexicon.Text.Utf8
import SwitchLexicon.Toml.Scalar
import SwitchLexicon.Value.Basic

/-!
Writing of TOML documents. In a table the keys with plain values come first and the tables below it
after them, each under a header with its full path. Lists are written one item a line. TOML has no
null value and only texts as keys, and a document is written piece by piece, so one that cannot be
written whole is written up to the piece that fails.
-/
namespace SwitchLexicon.Toml

def escapedChar (c : Char) : List Char :=
  let n := c.toNat
  if n = 0x08 then ['\\', 'b']
  else if c = '\n' then ['\\', 'n']
  else if n = 0x0C then ['\\', 'f']
  else if c = '\r' then ['\\', 'r']
  else if n = 0x22 then ['\\', c]
  else if c = '\\' then ['\\', c]
  else if isControl c then '\\' :: 'u' :: Text.hexDigits 4 n
  else [c]

def textLiteral (s : String) : String :=
  "\"" ++ String.ofList (s.toList.flatMap escapedChar) ++ "\""

def nameText (s : String) : String :=
  if s.toList.all isBareKeyChar && !s.isEmpty then s else textLiteral s

def keyText? : Key → Option String
  | .text s => some (nameText s)
  | _ => none

def indent (level : Nat) : String :=
  String.ofList (List.replicate (4 * level) ' ')

def intText? (n : Int) : Option String :=
  if digitLimit < (toString n.natAbs).length then none else some (toString n)

mutual

/-- A value after an equals sign, at a level of lists in lists; `none` if TOML has no such value. -/
def inline? (level : Nat) : Value → Option String
  | .null => none
  | .bool b => some (if b then "true" else "false")
  | .int n => intText? n
  | .float x => some x.text
  | .text s => some (textLiteral s)
  | .moment m => some m.text
  | .list [] => some "[]"
  | .list items =>
    (inlineItems? (level + 1) items).map fun lines =>
      "[\n" ++ String.join (lines.map fun l => indent (level + 1) ++ l ++ ",\n") ++
        indent level ++ "]"
  | .map [] => some "\x7b\x7d"
  | .map es => (inlineEntries? es).map fun pairs => "\x7b " ++ ", ".intercalate pairs ++ " \x7d"

def inlineItems? (level : Nat) : List Value → Option (List String)
  | [] => some []
  | v :: vs =>
    match inline? level v, inlineItems? level vs with
    | some l, some ls => some (l :: ls)
    | _, _ => none

def inlineEntries? : List (Key × Value) → Option (List String)
  | [] => some []
  | (k, v) :: es =>
    match keyText? k, inline? 0 v, inlineEntries? es with
    | some name, some l, some ls => some ((name ++ " = " ++ l) :: ls)
    | _, _, _ => none

end

def lineLimit : Nat := 100

def fitsLine (text : String) : Bool :=
  let line := indent 1 ++ text ++ ","
  decide (line.length ≤ lineLimit) && !line.toList.contains '\n'

def allFitLine? : List Value → Option Bool
  | [] => some true
  | v :: vs =>
    match inline? 0 v with
    | none => none
    | some text => if fitsLine text then allFitLine? vs else some false

/-- Where an entry of a table is written: on a line of its table, as a table with a header, or as
tables with one header each. -/
inductive Style where
  | line
  | table
  | tables
deriving DecidableEq, Repr

def isTable : Value → Bool
  | .map _ => true
  | _ => false

def styleOf : Value → Option Style
  | .map _ => some .table
  | .list items =>
    if !items.isEmpty && items.all isTable then
      (allFitLine? items).map fun fit => if fit then .line else .tables
    else some .line
  | _ => some .line

structure Written where
  text : String
  complete : Bool
deriving DecidableEq, Repr

namespace Written

def done : Written := ⟨"", true⟩

def failed : Written := ⟨"", false⟩

def piece (s : String) : Written :=
  if (Text.encodeUtf8? s).isSome then ⟨s, true⟩ else failed

def followedBy (a b : Written) : Written :=
  if a.complete then ⟨a.text ++ b.text, b.complete⟩ else a

end Written

def entryLine : Key × Value → Written
  | (k, v) =>
    match keyText? k, inline? 0 v with
    | some name, some l => .piece (name ++ " = " ++ l ++ "\n")
    | _, _ => .failed

def entryLines (es : List (Key × Value)) : Written :=
  (es.filter fun e => styleOf e.2 == some .line).foldr (fun e w => (entryLine e).followedBy w) .done

/-- The header of a table. A table that only leads to other tables needs none. -/
def header (path : String) (inList : Bool) (styles : List Style) : String :=
  if inList then "[[" ++ path ++ "]]\n"
  else if !path.isEmpty && (styles.contains .line || styles.all (· == .line)) then
    "[" ++ path ++ "]\n"
  else ""

def gap (begun : Bool) : Written :=
  if begun then .piece "\n" else .done

def pathTo (path name : String) : String :=
  if path.isEmpty then name else path ++ "." ++ name

def writeOwn (path : String) (inList : Bool) (es : List (Key × Value)) : Written × Bool :=
  match es.mapM fun e => styleOf e.2 with
  | none => (.failed, false)
  | some styles =>
    let head := header path inList styles
    let start := if head.isEmpty then Written.done else .piece head
    (start.followedBy (entryLines es), !head.isEmpty || styles.contains .line)

/-- A blank line, unless nothing stands before it, and then what comes under the name of a key. -/
def underKey (path : String) (begun : Bool) (k : Key) (w : String → Written) : Written :=
  (gap begun).followedBy
    (match keyText? k with
    | some name => w (pathTo path name)
    | none => .failed)

mutual

/-- The tables below a table; `begun` tells that something stands before them. -/
def writeSections (path : String) (begun : Bool) : List (Key × Value) → Written
  | [] => .done
  | (k, v) :: es =>
    let own := styleOf v != some .line
    (writeSection path begun k v).followedBy (writeSections path (begun || own) es)

def writeSection (path : String) (begun : Bool) (k : Key) : Value → Written
  | .map es =>
    underKey path begun k fun path =>
      let (own, begun) := writeOwn path false es
      own.followedBy (writeSections path begun es)
  | .list items =>
    if styleOf (.list items) = some .tables then writeItems path begun k items else .done
  | _ => .done

def writeItems (path : String) (begun : Bool) (k : Key) : List Value → Written
  | [] => .done
  | v :: vs => (writeItem path begun k v).followedBy (writeItems path true k vs)

def writeItem (path : String) (begun : Bool) (k : Key) : Value → Written
  | .map es =>
    underKey path begun k fun path =>
      let (own, begun) := writeOwn path true es
      own.followedBy (writeSections path begun es)
  | _ => .failed

end

def write : Value → Written
  | .map es =>
    let (own, begun) := writeOwn "" false es
    own.followedBy (writeSections "" begun es)
  | _ => .failed

end SwitchLexicon.Toml
