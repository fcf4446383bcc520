import SwitchLexicon.Number.Binary64
import SwitchLexicon.Value.Moment

/-!
Data as it stands in dictionary and settings files, before anything is known about its shape.
Mappings keep their entries in order, one entry a key. Keys are not always texts, and two keys are
the same when they are equal as numbers, a truth value counting as 0 or 1.
-/
namespace SwitchLexicon

inductive Key where
  | null
  | bool (b : Bool)
  | int (n : Int)
  | float (x : Binary64)
  | text (s : String)
deriving DecidableEq, Repr

inductive Value where
  | null
  | bool (b : Bool)
  | int (n : Int)
  | float (x : Binary64)
  | text (s : String)
  | moment (m : Moment)
  | list (items : List Value)
  | map (entries : List (Key × Value))
deriving Repr

abbrev Entries := List (Key × Value)

instance : Inhabited Value := ⟨.null⟩

namespace Key

def whole? : Key → Option Int
  | .bool b => some (if b then 1 else 0)
  | .int n => some n
  | .float x => x.toInt?
  | _ => none

def same (a b : Key) : Bool :=
  match a.whole?, b.whole? with
  | some m, some n => m == n
  | none, none =>
    match a with
    | .float x => !x.isNaN && a == b
    | _ => a == b
  | _, _ => false

def toValue : Key → Value
  | .null => .null
  | .bool b => .bool b
  | .int n => .int n
  | .float x => .float x
  | .text s => .text s

def ofValue? : Value → Option Key
  | .null => some .null
  | .bool b => some (.bool b)
  | .int n => some (.int n)
  | .float x => some (.float x)
  | .text s => some (.text s)
  | _ => none

end Key

namespace Entries

/-- A key keeps its first place and takes its last value. -/
def insert (k : Key) (v : Value) : Entries → Entries
  | [] => [(k, v)]
  | (l, w) :: rest => if l.same k then (l, v) :: rest else (l, w) :: insert k v rest

def ofPairs (pairs : List (Key × Value)) : Entries :=
  pairs.foldl (fun es p => insert p.1 p.2 es) []

def get? (name : String) : Entries → Option Value
  | [] => none
  | (k, v) :: rest => if k = .text name then some v else get? name rest

def put (name : String) (v : Value) (es : Entries) : Entries :=
  insert (.text name) v es

end Entries

namespace Value

def ofEntries (named : List (String × Value)) : Value :=
  .map (named.map fun e => (.text e.1, e.2))

def text? : Value → Option String
  | .text s => some s
  | _ => none

def get? (name : String) : Value → Option Value
  | .map es => Entries.get? name es
  | _ => none

/-- Empty texts, lists and mappings, zeros, `false` and the null value do not hold. -/
def holds : Value → Bool
  | .null => false
  | .bool b => b
  | .int n => n != 0
  | .float x => !x.isZero
  | .text s => !s.isEmpty
  | .moment _ => true
  | .list xs => !xs.isEmpty
  | .map es => !es.isEmpty

def kindName : Value → String
  | .null => "NoneType"
  | .bool _ => "bool"
  | .int _ => "int"
  | .float _ => "float"
  | .text _ => "str"
  | .moment (.date _) => "datetime.date"
  | .moment (.time _) => "datetime.time"
  | .moment (.point ..) => "datetime.datetime"
  | .list _ => "list"
  | .map _ => "dict"

def bareKindName : Value → String
  | .moment (.date _) => "date"
  | .moment (.time _) => "time"
  | .moment (.point ..) => "datetime"
  | v => v.kindName

end Value

end SwitchLexicon
