import SwitchLexicon.Limit
import SwitchLexicon.Text.Blank
import SwitchLexicon.Text.Digit

/-!
Whole numbers as people type them: digits of any script, one underscore between two digits at most,
a sign before them and blanks around them.
-/
namespace SwitchLexicon.Whole

/-- The four separators of ASCII do not count as blanks here. -/
def isMargin (c : Char) : Bool :=
  Text.isBlank c && !(decide (0x1C ≤ c.toNat) && decide (c.toNat ≤ 0x1F))

def trimmed (cs : List Char) : List Char :=
  ((cs.dropWhile isMargin).reverse.dropWhile isMargin).reverse

/-- Reads on after a digit; `n` is the number so far and `count` its digits. -/
def continueFrom (n count : Nat) : List Char → Option (Nat × Nat)
  | [] => some (n, count)
  | '_' :: c :: cs =>
    match Text.digitValue? c with
    | some d => continueFrom (n * 10 + d) (count + 1) cs
    | none => none
  | c :: cs =>
    match Text.digitValue? c with
    | some d => continueFrom (n * 10 + d) (count + 1) cs
    | none => none

def magnitude? : List Char → Option Nat
  | [] => none
  | c :: cs => do
    let d ← Text.digitValue? c
    let (n, count) ← continueFrom d 1 cs
    if digitLimit < count then none else some n

def ofText? (s : String) : Option Int :=
  match trimmed s.toList with
  | '-' :: cs => (magnitude? cs).map fun n => -(n : Int)
  | '+' :: cs => (magnitude? cs).map Int.ofNat
  | cs => (magnitude? cs).map Int.ofNat

end SwitchLexicon.Whole
