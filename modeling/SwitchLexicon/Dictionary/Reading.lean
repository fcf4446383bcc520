import SwitchLexicon.Detail.Record
import SwitchLexicon.Dictionary.Shape
import SwitchLexicon.Journal.Row
import SwitchLexicon.Tree.Path
import SwitchLexicon.Value.Quoted

/-!
What a dictionary says, entry by entry in its own order: commands with their reference entries,
paths that are only opened, entries that are skipped because they make no sense, and reserved keys
that mean nothing here. One bad entry never stops the reading.
-/
namespace SwitchLexicon

inductive SkipReason where
  | recordNotMapping
  | badCommand
  | invalidRecord
  | keyNotText
  | emptyKey
  | listValue
  | optionsNotList
  | invalidOption (option : Value)
  | misplacedDescription
deriving Repr

def optionsKey : String := "_options"

def descriptionKey : String := "_desc"

def SkipReason.message : SkipReason → String
  | .recordNotMapping => "record is not a mapping"
  | .badCommand => "empty or non-string command"
  | .invalidRecord => "invalid detail record"
  | .keyNotText => "non-string key"
  | .emptyKey => "empty key"
  | .listValue => "list value outside " ++ Text.quoted optionsKey
  | .optionsNotList => Text.quoted optionsKey ++ " is not a list"
  | .invalidOption option => "invalid option " ++ option.quoted
  | .misplacedDescription => "misplaced " ++ Text.quoted descriptionKey

inductive Reading where
  | command (path : List String) (detail : Detail)
  | opened (path : List String)
  | skipped (entry : String) (reason : SkipReason)
  | ignored (key : String) (under : List String)
deriving Repr

namespace Reading

/-- A command with its record; the name in the entry has single spaces and its own letter case. -/
def ofCommand (command record : Value) : Reading :=
  match command with
  | .text name =>
    if Text.isBlankText name then .skipped command.quoted .badCommand
    else
      match Detail.ofRecord (Text.unwords (Text.words name)) record with
      | .ok d => .command (tokenize name) d
      | .error _ => .skipped name .invalidRecord
  | _ => .skipped command.quoted .badCommand

def ofFlat (es : Entries) : List Reading :=
  es.map fun e => ofCommand e.1.toValue e.2

def ofRecord (position : Nat) (record : Value) : Reading :=
  match record with
  | .map es => ofCommand ((Entries.get? "command" es).getD .null) record
  | _ => .skipped ("#" ++ toString position) .recordNotMapping

def ofRecords (position : Nat) : List Value → List Reading
  | [] => []
  | record :: rest => ofRecord position record :: ofRecords (position + 1) rest

def placeName (path : List String) : String :=
  if path.isEmpty then "<root>" else Text.unwords path

def ofOption (path : List String) : Value → Reading
  | .text option =>
    if Text.isBlankText option then .skipped (placeName path) (.invalidOption (.text option))
    else .opened (path ++ tokenize option)
  | v => .skipped (placeName path) (.invalidOption v)

def ofOptions (path : List String) : Value → List Reading
  | .list options => options.map (ofOption path)
  | _ => [.skipped (placeName path) .optionsNotList]

def ofDescription (path : List String) : Value → Reading
  | .text description =>
    if path.isEmpty then .skipped (placeName path) .misplacedDescription
    else .command path { command := Text.unwords path, description := description }
  | _ => .skipped (placeName path) .misplacedDescription

/-- A nested key with a value that is no mapping; `path` includes the words of the key. -/
def ofLeaf (path : List String) : Value → Reading
  | .list _ => .skipped (Text.unwords path) .listValue
  | v =>
    match Detail.ofRecord (Text.unwords path) v with
    | .ok d => .command path d
    | .error _ => .skipped (Text.unwords path) .invalidRecord

mutual

def ofLevel (path : List String) : List (Key × Value) → List Reading
  | [] => []
  | (k, v) :: rest => ofEntry path k v ++ ofLevel path rest

def ofEntry (path : List String) (k : Key) (v : Value) : List Reading :=
  match k with
  | .text key =>
    if key = optionsKey then ofOptions path v
    else if key = descriptionKey then [ofDescription path v]
    else if isReserved key then [.ignored key path]
    else if (tokenize key).isEmpty then [.skipped (placeName path) .emptyKey]
    else
      match v with
      | .map es => .opened (path ++ tokenize key) :: ofLevel (path ++ tokenize key) es
      | v => [ofLeaf (path ++ tokenize key) v]
  | _ => [.skipped k.quoted .keyNotText]

end

def skip? : Reading → Option String
  | .skipped entry _ => some entry
  | _ => none

def row? : Reading → Option Journal.Row
  | .skipped entry reason =>
    some ⟨Journal.debug, Journal.builder,
      "Skipping dictionary entry " ++ entry ++ ": " ++ reason.message⟩
  | .ignored key under =>
    some ⟨Journal.debug, Journal.builder,
      "Ignoring unknown reserved key " ++ Text.quoted key ++ " under " ++
        Text.quoted (Text.unwords under)⟩
  | _ => none

def ofDictionary (shape : Shape) (raw : Value) : Except BuildError (List Reading) :=
  match shape, raw with
  | .records, .list rs => .ok (ofRecords 0 rs)
  | .records, _ => .error .recordsNotList
  | .flat, .map es => .ok (ofFlat es)
  | .flat, _ => .error .flatNotMapping
  | .nested, .map es => .ok (ofLevel [] es)
  | .nested, _ => .error .nestedNotMapping

end Reading

end SwitchLexicon
