import SwitchLexicon.Value.Basic

/-!
A TOML document while it is read. Beside what it holds stand the paths that must not be opened
again: tables with a header of their own, and tables and lists that were written as one value.
-/
namespace SwitchLexicon.Toml

abbrev KeyPath := List String

structure Document where
  entries : Entries := []
  /-- Paths that no header opens any more. -/
  declared : List KeyPath := []
  /-- Paths of values that are complete: nothing is added to them or below them. -/
  closed : List KeyPath := []
  /-- Paths that are declared as soon as the next header comes. -/
  pending : List KeyPath := []

/-- Changes the table at a path. Missing tables are made, and a list of tables stands for its last
one; any other value on the way is in the way. -/
def alterAt (f : Entries → Option Entries) : KeyPath → Entries → Option Entries
  | [], es => f es
  | name :: path, es =>
    match Entries.get? name es with
    | none => (alterAt f path []).map fun t => Entries.put name (.map t) es
    | some (.map t) => (alterAt f path t).map fun t => Entries.put name (.map t) es
    | some (.list items) =>
      match items.getLast? with
      | some (.map t) =>
        (alterAt f path t).map fun t => Entries.put name (.list (items.dropLast ++ [.map t])) es
      | _ => none
    | some _ => none

def addEntry (name : String) (v : Value) (es : Entries) : Option Entries :=
  match Entries.get? name es with
  | some _ => none
  | none => some (es ++ [(.text name, v)])

def addTable (name : String) (es : Entries) : Option Entries :=
  match Entries.get? name es with
  | none => some (es ++ [(.text name, .list [.map []])])
  | some (.list items) => some (Entries.put name (.list (items ++ [.map []])) es)
  | some _ => none

namespace Document

def isDeclared (d : Document) (path : KeyPath) : Bool :=
  d.declared.contains path

def isClosed (d : Document) (path : KeyPath) : Bool :=
  d.closed.any fun p => p.isPrefixOf path

def settlePending (d : Document) : Document :=
  { d with declared := d.pending ++ d.declared, pending := [] }

def free (d : Document) (path : KeyPath) : Document :=
  { d with
    declared := d.declared.filter fun p => !path.isPrefixOf p
    closed := d.closed.filter fun p => !path.isPrefixOf p }

def openTable (d : Document) (path : KeyPath) : Option Document :=
  if d.isDeclared path || d.isClosed path then none
  else
    (alterAt some path d.entries).map fun es =>
      { d with entries := es, declared := path :: d.declared }

def appendTable (d : Document) (path : KeyPath) : Option Document :=
  if d.isClosed path then none
  else
    let d := d.free path
    match path.getLast? with
    | none => none
    | some name =>
      (alterAt (addTable name) path.dropLast d.entries).map fun es =>
        { d with entries := es, declared := path :: d.declared }

def tablesOf (header key : KeyPath) : List KeyPath :=
  ((List.range key.length).drop 1).map fun n => header ++ key.take n

def isContainer : Value → Bool
  | .list _ => true
  | .map _ => true
  | _ => false

def setKey (d : Document) (header key : KeyPath) (v : Value) : Option Document :=
  let through := tablesOf header key
  if through.any d.isDeclared || d.isClosed (header ++ key.dropLast) then none
  else
    match key.getLast? with
    | none => none
    | some name =>
      (alterAt (addEntry name v) (header ++ key.dropLast) d.entries).map fun es =>
        { d with
          entries := es
          pending := through ++ d.pending
          closed := if isContainer v then (header ++ key) :: d.closed else d.closed }

end Document

end SwitchLexicon.Toml
