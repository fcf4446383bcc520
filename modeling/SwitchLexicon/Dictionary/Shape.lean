import SwitchLexicon.Detail.Basic

/-!
The three shapes of a command dictionary: a mapping from commands to records, a list of records that
name their commands, and nested mappings with one or more words a level.
-/
namespace SwitchLexicon

inductive Shape where
  | flat
  | records
  | nested
deriving DecidableEq, Repr

def Shape.name : Shape → String
  | .flat => "flat"
  | .records => "records"
  | .nested => "nested"

inductive BuildError where
  | noContainer (kind : String)
  | recordsNotList
  | flatNotMapping
  | nestedNotMapping
deriving DecidableEq, Repr

def BuildError.message : BuildError → String
  | .noContainer kind => "Command dictionary must be a mapping or a list, got " ++ kind
  | .recordsNotList => "Record-shaped dictionary must be a list"
  | .flatNotMapping => "Flat dictionary must be a mapping"
  | .nestedNotMapping => "Nested dictionary must be a mapping"

def isFieldKey : Key → Bool
  | .text s => Detail.fieldNames.contains s
  | _ => false

/-- Texts and nothing at all; they would stand for a command of their own in a nested level. -/
def isBareRecord : Value → Bool
  | .null => true
  | .text _ => true
  | _ => false

/-- A bare description, nothing, or a mapping that names a section and has no other key with a bare
record. -/
def isRecord : Value → Bool
  | .map es =>
    es.any (fun e => isFieldKey e.1) && es.all fun e => isFieldKey e.1 || !isBareRecord e.2
  | v => isBareRecord v

def isReserved (key : String) : Bool :=
  key.toList.head? == some '_'

def isFlatEntry (e : Key × Value) : Bool :=
  match e.1 with
  | .text key => !isReserved key && isRecord e.2
  | _ => false

def Shape.detect : Value → Except BuildError Shape
  | .list _ => .ok .records
  | .map es => .ok (if es.all isFlatEntry then .flat else .nested)
  | v => .error (.noContainer v.kindName)

end SwitchLexicon
