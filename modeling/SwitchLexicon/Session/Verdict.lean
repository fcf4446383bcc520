import SwitchLexicon.Index.Basic

/-!
The verdict on a line that was entered: the longest command it starts with and the words that are
left as arguments, or else whether more words could still make it a command.
-/
namespace SwitchLexicon

inductive Verdict where
  | command (detail : Detail) (arguments : List String)
  | incomplete
  | unknown
deriving DecidableEq, Repr

def Index.canContinue (i : Index) (line : String) : Bool :=
  match i.suggest (line ++ " ") none with
  | .ok s => !s.tokens.isEmpty
  | .error _ => false

def Index.verdict (i : Index) (line : String) : Verdict :=
  let longest := i.longestCommand line
  match longest.detail with
  | some d => .command d longest.rest
  | none => if i.canContinue line then .incomplete else .unknown

end SwitchLexicon
