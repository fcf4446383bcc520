import SwitchLexicon.Console.Screen
import SwitchLexicon.Index.Popup
import SwitchLexicon.Session.Basic
import SwitchLexicon.Settings.Store

/-!
A whole session. At each prompt stands what was put out since the prompt before; the line editor may
ask for completions while it waits, and the session ends with its input at the latest.
-/
namespace SwitchLexicon.Session

/-- What comes from the line editor: an entered line, a key that gives the line up, or a question
for the completions of a text with the cursor somewhere in it. -/
inductive Input where
  | line (text : String)
  | interrupt
  | complete (text : String) (cursor : Option Int)
deriving DecidableEq, Repr

inductive Step where
  | prompt (before : List OutputEvent)
  | completions (answer : Except Failure (List Completion))

structure Transcript where
  steps : List Step
  closing : List OutputEvent
  failure : Option Failure := none

/-- The steps before the first that a screen refuses, what was drawn of that one, and the reason. -/
def drawSteps (screen : Screen) : List Step → List Step × List OutputEvent × Option String
  | [] => ([], [], none)
  | .completions answer :: steps =>
    let (done, drawn, reason) := drawSteps screen steps
    (.completions answer :: done, drawn, reason)
  | .prompt before :: steps =>
    match screen.draw before with
    | (drawn, some reason) => ([], drawn, some reason)
    | (_, none) =>
      let (done, drawn, reason) := drawSteps screen steps
      (.prompt before :: done, drawn, reason)

def completionsAt (s : Setup) (popup : PopupSettings) (text : String) (cursor : Option Int) :
    Except Failure (List Completion) := do
  s.index.complete popup (← lineBefore text cursor)

def Transcript.after (step : Step) (t : Transcript) : Transcript :=
  { t with steps := step :: t.steps }

def wait (s : Setup) (popup : PopupSettings) : List Input → Transcript
  | [] => ⟨[], farewell, none⟩
  | .complete text cursor :: inputs =>
    (wait s popup inputs).after (.completions (completionsAt s popup text cursor))
  | .interrupt :: inputs => (wait s popup inputs).after (.prompt [])
  | .line text :: inputs =>
    match reply s text with
    | .none => (wait s popup inputs).after (.prompt [])
    | .output events => (wait s popup inputs).after (.prompt events)
    | .leave => ⟨[], farewell, none⟩

def popupSettings (config : Value) : Except Failure PopupSettings := do
  let descriptions ← Settings.lookup config "display" "show_descriptions" (.bool true)
  let limit ← Settings.lookup config "display" "max_suggestions" (.int 0)
  return ⟨descriptions, limit⟩

/-- A session after its banner. `history` is what making its history file came to. -/
def start (s : Setup) (config : Value) (history : Except Failure Path) (inputs : List Input) :
    Transcript :=
  let opening := banner ++ unavailable s
  match popupSettings config with
  | .error e => ⟨[], opening, some e⟩
  | .ok popup =>
    match history with
    | .error e => ⟨[], opening, some e⟩
    | .ok _ => (wait s popup inputs).after (.prompt opening)

end SwitchLexicon.Session
