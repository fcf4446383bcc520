import SwitchLexicon.Line.Split
import SwitchLexicon.Tree.Basic

/-!
Suggestions for the word under the cursor: the words that can follow the complete words and start
with what was typed so far. A line with nothing but blanks before the cursor asks for nothing.
-/
namespace SwitchLexicon

structure Suggestion where
  triggered : Bool
  tokens : List String
  query : String
  start : Nat
  stop : Nat
deriving DecidableEq, Repr

namespace Suggestion

def idle : Suggestion := ⟨false, [], "", 0, 0⟩

end Suggestion

namespace CommandTree

def candidates (t : CommandTree) (query : String) : List String :=
  t.tokens.filter fun w => Text.startsWith w (Text.lower query)

def descriptionOf (t : CommandTree) (token : String) : String :=
  (((t.child? token).bind detail).map Detail.description).getD ""

end CommandTree

def lookup (root : Option CommandTree) (line : String) (cursor : Int) :
    Except CursorError (Suggestion × Option CommandTree) := do
  let before ← beforeCursor line cursor
  if before.all Text.isBlank then return (.idle, none)
  let split := splitBefore before
  let node := root.bind (CommandTree.resolve split.completed)
  let tokens := (node.map (·.candidates split.query)).getD []
  return (⟨true, tokens, split.query, split.start, cursor.toNat⟩, node)

def suggest (root : Option CommandTree) (line : String) (cursor : Int) :
    Except CursorError Suggestion :=
  (lookup root line cursor).map Prod.fst

/-- Each suggested word with its description, which is empty where no command ends. -/
def describe (root : Option CommandTree) (line : String) (cursor : Int) :
    Except CursorError (List (String × String)) :=
  (lookup root line cursor).map fun (s, node) =>
    match node with
    | some t => s.tokens.map fun w => (w, t.descriptionOf w)
    | none => []

structure Acceptance where
  text : String
  cursor : Int
deriving DecidableEq, Repr

/-- One space follows the word, so that the next one can be typed at once. -/
def accept (token : String) (start : Int) : Acceptance :=
  let text := token ++ " "
  { text := text, cursor := start + text.length }

end SwitchLexicon
