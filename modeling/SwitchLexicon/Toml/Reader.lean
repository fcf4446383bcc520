import SwitchLexicon.Toml.Document
import SwitchLexicon.Toml.Scalar

/-!
Reading of TOML documents. A document that breaks any rule is refused as a whole.
-/
namespace SwitchLexicon.Toml

def skipLines (inComment : Bool) : List Char → Option (List Char)
  | [] => some []
  | c :: cs =>
    if inComment then
      if c = '\n' then skipLines false cs
      else if isControl c then none
      else skipLines true cs
    else if isSpaceOrLine c then skipLines false cs
    else if c = '#' then skipLines true cs
    else some (c :: cs)

def endLine (cs : List Char) : Option (List Char) :=
  let cs := skipSpace cs
  let comment := if cs.head? == some '#' then cs.takeWhile (· != '\n') else []
  if comment.any isControl then none
  else
    match cs.drop comment.length with
    | [] => some []
    | '\n' :: rest => some rest
    | _ => none

def depthLimit : Nat := Stack.levels 2

mutual

def readValue (depth : Nat) : Nat → List Char → Read Value
  | 0, _ => none
  | fuel + 1, cs =>
    match cs with
    | '[' :: rest =>
      if depth = 0 then none
      else
        match skipLines false rest with
        | none => none
        | some (']' :: rest) => some (.list [], rest)
        | some rest => readItems (depth - 1) fuel [] rest
    | '{' :: rest =>
      if depth = 0 then none
      else
        match skipSpace rest with
        | '}' :: rest => some (.map [], rest)
        | rest => readPairs (depth - 1) fuel {} rest
    | c :: _ =>
      if c = '"' || c = Text.singleQuote then (readText cs).map fun (s, rest) => (.text s, rest)
      else readScalar cs
    | [] => none

def readItems (depth : Nat) : Nat → List Value → List Char → Read Value
  | 0, _, _ => none
  | fuel + 1, acc, cs =>
    match readValue depth fuel cs with
    | none => none
    | some (v, rest) =>
      match skipLines false rest with
      | some (']' :: rest) => some (.list (v :: acc).reverse, rest)
      | some (',' :: rest) =>
        match skipLines false rest with
        | none => none
        | some (']' :: rest) => some (.list (v :: acc).reverse, rest)
        | some rest => readItems depth fuel (v :: acc) rest
      | _ => none

def readPairs (depth : Nat) : Nat → Document → List Char → Read Value
  | 0, _, _ => none
  | fuel + 1, table, cs =>
    match readKey cs with
    | some (key, '=' :: rest) =>
      match readValue depth fuel (skipSpace rest) with
      | none => none
      | some (v, rest) =>
        match table.setKey [] key v with
        | none => none
        | some table =>
          match skipSpace rest with
          | '}' :: rest => some (.map table.entries, rest)
          | ',' :: rest => readPairs depth fuel table (skipSpace rest)
          | _ => none
    | _ => none

end

def readPair (cs : List Char) : Read (KeyPath × Value) :=
  match readKey cs with
  | some (key, '=' :: rest) =>
    (readValue depthLimit (2 * rest.length + 2) (skipSpace rest)).map fun (v, rest) =>
      ((key, v), rest)
  | _ => none

def readHeader (cs : List Char) : Read KeyPath :=
  match readKey (skipSpace cs) with
  | some (key, ']' :: rest) => some (key, rest)
  | _ => none

def readListHeader (cs : List Char) : Read KeyPath :=
  match readKey (skipSpace cs) with
  | some (key, ']' :: ']' :: rest) => some (key, rest)
  | _ => none

def readStatement (d : Document) (header : KeyPath) (cs : List Char) :
    Option ((Document × KeyPath) × List Char) :=
  match cs with
  | [] => some ((d, header), [])
  | '\n' :: _ => some ((d, header), cs)
  | '#' :: _ => some ((d, header), cs)
  | '[' :: '[' :: rest => do
    let (path, rest) ← readListHeader rest
    let d ← d.settlePending.appendTable path
    return ((d, path), rest)
  | '[' :: rest => do
    let (path, rest) ← readHeader rest
    let d ← d.settlePending.openTable path
    return ((d, path), rest)
  | _ => do
    let ((key, v), rest) ← readPair cs
    let d ← d.setKey header key v
    return ((d, header), rest)

def readStatements : Nat → Document → KeyPath → List Char → Option Document
  | _, d, _, [] => some d
  | 0, _, _, _ => none
  | fuel + 1, d, header, cs => do
    let ((d, header), rest) ← readStatement d header (skipSpace cs)
    readStatements fuel d header (← endLine rest)

def joinLineEnds : List Char → List Char
  | [] => []
  | '\r' :: '\n' :: cs => '\n' :: joinLineEnds cs
  | c :: cs => c :: joinLineEnds cs

def read (s : String) : Option Entries :=
  let cs := joinLineEnds s.toList
  (readStatements (cs.length + 1) {} [] cs).map Document.entries

end SwitchLexicon.Toml
