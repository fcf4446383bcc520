import SwitchLexicon.Text.Blank

/-!
A command line that is being typed. The text before the cursor is cut into the words that are
complete and the word under the cursor, which is the run without blanks at its end. A line feed at
the very end still belongs to the word before it.
-/
namespace SwitchLexicon

structure CursorError where
  cursor : Int
  length : Nat
deriving DecidableEq, Repr

def CursorError.message (e : CursorError) : String :=
  "cursor offset " ++ toString e.cursor ++ " outside line of length " ++ toString e.length

def beforeCursor (line : String) (cursor : Int) : Except CursorError (List Char) :=
  if 0 ≤ cursor ∧ cursor ≤ line.length then .ok (line.toList.take cursor.toNat)
  else .error ⟨cursor, line.length⟩

structure LineSplit where
  completed : List String
  query : String
  start : Nat
deriving DecidableEq, Repr

def trailingRun (cs : List Char) : Nat :=
  (cs.reverse.takeWhile fun c => !Text.isBlank c).length

def partialLength (before : List Char) : Nat :=
  let run := trailingRun before
  if run = 0 ∧ before.getLast? = some '\n' then
    let inner := trailingRun before.dropLast
    if inner = 0 then 0 else inner + 1
  else run

def splitBefore (before : List Char) : LineSplit :=
  let start := before.length - partialLength before
  { completed := Text.words (String.ofList (before.take start))
    query := String.ofList (before.drop start)
    start := start }

def splitLine (line : String) (cursor : Int) : Except CursorError LineSplit :=
  (beforeCursor line cursor).map splitBefore

end SwitchLexicon
