import SwitchLexicon.Console.Renderable

/-!
Screens. A screen may refuse an act of output, and then tells why; nothing is drawn after that.
-/
namespace SwitchLexicon

namespace Renderable

mutual

def markups : Renderable → List String
  | .markup s => [s]
  | .text _ => []
  | .table t => t.title :: (t.columns.map Column.header ++ t.rows.flatten)
  | .panel content title _ => title.toList ++ markups content
  | .group parts => allMarkups parts

def allMarkups : List Renderable → List String
  | [] => []
  | r :: rs => markups r ++ allMarkups rs

end

mutual

def literals : Renderable → List String
  | .text t => [t.plain]
  | .panel content _ _ => literals content
  | .group parts => allLiterals parts
  | _ => []

def allLiterals : List Renderable → List String
  | [] => []
  | r :: rs => literals r ++ allLiterals rs

end

end Renderable

namespace OutputEvent

def markups : OutputEvent → List String
  | .draw r => r.markups
  | .drawError r => r.markups
  | _ => []

def literals : OutputEvent → List String
  | .draw r => r.literals
  | .drawError r => r.literals
  | .blankLine => []
  | .print s => [s]

end OutputEvent

structure Screen where
  fault? : OutputEvent → Option String

/-- What is drawn before the first act that is refused, and the reason if there is one. -/
def Screen.draw (screen : Screen) : List OutputEvent → List OutputEvent × Option String
  | [] => ([], none)
  | e :: es =>
    match screen.fault? e with
    | some reason => ([], some reason)
    | none =>
      let (drawn, reason) := screen.draw es
      (e :: drawn, reason)

end SwitchLexicon
