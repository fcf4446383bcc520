import SwitchLexicon.Dictionary.Build
import SwitchLexicon.Failure
import SwitchLexicon.Line.Suggestion

/-!
The index of all commands: the tree, the commands by name, and what was skipped. Without a usable
dictionary the index is disabled and tells why; it then answers every question as if it were empty.
-/
namespace SwitchLexicon

structure Index where
  tree : Option CommandTree
  skipped : List String := []
  error : String := ""
deriving Repr

structure LongestCommand where
  detail : Option Detail
  rest : List String
deriving DecidableEq, Repr

structure Stats where
  enabled : Bool
  commands : Nat
  nodes : Nat
  skipped : Nat
  error : String
deriving DecidableEq, Repr

namespace Index

def disabled (error : String) : Index :=
  { tree := none, error := error }

def ofBuild (b : Build) : Index :=
  { tree := some b.tree, skipped := b.skipped }

def isEnabled (i : Index) : Bool :=
  i.tree.isSome

def entries (i : Index) : List (String × Detail) :=
  match i.tree with
  | some t => t.commands.map fun c => (Text.unwords c.1, c.2)
  | none => []

def commands (i : Index) : List Detail :=
  i.entries.map Prod.snd

def size (i : Index) : Nat :=
  i.entries.length

def find? (i : Index) (command : String) : Option Detail :=
  (i.entries.find? fun e => e.1 == canonical command).map Prod.snd

def get (i : Index) (command : String) : Except Failure Detail :=
  match i.find? command with
  | some d => .ok d
  | none => .error (.notFound command)

def contains (i : Index) : Value → Bool
  | .text command => (i.find? command).isSome
  | _ => false

def suggest (i : Index) (line : String) (cursor : Option Int) : Except CursorError Suggestion :=
  SwitchLexicon.suggest i.tree line (cursor.getD line.length)

def describe (i : Index) (line : String) (cursor : Option Int) :
    Except CursorError (List (String × String)) :=
  SwitchLexicon.describe i.tree line (cursor.getD line.length)

def topLevel (i : Index) : List (String × String) :=
  match i.tree with
  | some t => t.children.map fun c => (c.1, ((c.2.detail).map Detail.description).getD "")
  | none => []

def longestFrom (t : CommandTree) (best : LongestCommand) : List String → LongestCommand
  | [] => best
  | w :: ws =>
    match t.child? (Text.lower w) with
    | none => best
    | some c => longestFrom c (if c.isComplete then ⟨c.detail, ws⟩ else best) ws

def longestCommand (i : Index) (line : String) : LongestCommand :=
  let words := Text.words line
  match i.tree with
  | some t => longestFrom t ⟨none, words⟩ words
  | none => ⟨none, words⟩

def nodeCount (i : Index) : Nat :=
  match i.tree with
  | some t => t.count
  | none => 0

def stats (i : Index) : Stats :=
  ⟨i.isEnabled, i.size, i.nodeCount, i.skipped.length, i.error⟩

end Index

def Stats.toValue (s : Stats) : Value :=
  .ofEntries
    [("enabled", .bool s.enabled), ("commands", .int s.commands), ("nodes", .int s.nodes),
      ("skipped", .int s.skipped), ("error", .text s.error)]

end SwitchLexicon
