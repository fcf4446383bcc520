import SwitchLexicon.Index.Basic
import SwitchLexicon.Text.Find

/-!
Completions for the popup of a line editor. The line is the part of the text before the cursor that
follows its last line feed.
-/
namespace SwitchLexicon

structure Completion where
  text : String
  startPosition : Int
  display : String
  note : String
deriving DecidableEq, Repr

/-- Settings are kept as they stand in the settings file. -/
structure PopupSettings where
  showDescriptions : Value := .bool true
  maxSuggestions : Value := .int 0
deriving Repr

def PopupSettings.limit? (s : PopupSettings) : Except Failure (Option Int) :=
  if s.maxSuggestions.holds then
    match s.maxSuggestions with
    | .int n => .ok (some n)
    | .bool _ => .ok (some 1)
    | _ => .error .badSliceEnd
  else .ok none

def lineBefore (text : String) (cursor : Option Int) : Except Failure String :=
  match cursor with
  | some c =>
    if text.length < c then .error (.outsideDocument c text.length)
    else .ok (afterLastLine (Text.frontSlice text.toList c))
  | none => .ok (afterLastLine text.toList)
where
  afterLastLine (cs : List Char) : String :=
    String.ofList (cs.reverse.takeWhile (· != '\n')).reverse

namespace Index

def completionOf (query : String) (pair : String × String) : Completion :=
  { text := (accept pair.1 0).text, startPosition := -(query.length : Int), display := pair.1
    note := pair.2 }

def completePairs (i : Index) (settings : PopupSettings) (line : String) (s : Suggestion) :
    Except Failure (List (String × String)) :=
  if settings.showDescriptions.holds then (i.describe line none).mapError .cursor
  else .ok (s.tokens.map fun w => (w, ""))

def complete (i : Index) (settings : PopupSettings) (line : String) :
    Except Failure (List Completion) := do
  let s ← (i.suggest line none).mapError .cursor
  if !s.triggered then return []
  let pairs ← i.completePairs settings line s
  let shown ← match ← settings.limit? with
    | some n => pure (Text.frontSlice pairs n)
    | none => pure pairs
  return shown.map (completionOf s.query)

end Index

end SwitchLexicon
