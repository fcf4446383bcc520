import SwitchLexicon.Bundled
import SwitchLexicon.CommandLine.Answer
import SwitchLexicon.Journal.Basic
import SwitchLexicon.Session.Transcript

/-!
A run of the program from its arguments to its exit code. The settings are loaded and the journal is
set up before a command is looked at; without a command an interactive session starts. A screen that
cannot draw what the run puts out ends it.
-/
namespace SwitchLexicon.CommandLine

structure Scene where
  args : List String
  standardInput : List UInt8 := []
  session : List Session.Input := []
  files : Files := {}
  surroundings : Surroundings

structure Outcome where
  exit : Nat
  events : List OutputEvent := []
  session : List Session.Step := []
  browse : Option String := none
  notices : List String := []
  usage : Option UsageError := none
  failure : Option Failure := none
  files : Files
  journal : Journal := {}

def version : String := "0.1.0"

def versionText : String := "aoshelper, version " ++ version ++ "\n"

def helpText : String :=
  "Usage: aoshelper [OPTIONS] COMMAND [ARGS]...\n\nCommands: " ++
    ", ".intercalate (Command.all.map Command.name) ++ "\n"

def usageExit : Nat := 2

def early {α : Type} (files : Files) : Parsed α → Option Outcome
  | .wrong e => some { exit := usageExit, usage := some e, files := files }
  | .failed e => some { exit := 1, failure := some e, files := files }
  | .version => some { exit := 0, events := [.print versionText], files := files }
  | .help => some { exit := 0, events := [.print helpText], files := files }
  | .done _ => none

structure Started where
  mode : Mode
  surroundings : Surroundings
  dictionary : Option Path
  config : Value
  notices : List String
  files : Files
  journal : Journal

def Started.outcome (s : Started) (exit : Nat) : Outcome :=
  { exit := exit, notices := s.notices, files := s.files, journal := s.journal }

def Started.fail (s : Started) (e : Failure) : Outcome :=
  { s.outcome 1 with failure := some e }

def Started.answered (s : Started) (a : Answer) : Outcome :=
  { s.outcome a.exit with events := a.events, browse := a.browse }

/-- Settings that cannot be read are told of and left aside. -/
def settingsOr (r : Except Failure Entries) : Except Failure (Value × List String) :=
  match r with
  | .ok es => .ok (.map es, [])
  | .error .settingsUnreadable =>
    .ok (.map [], ["Warning: " ++ Failure.settingsUnreadable.message ++ "; using defaults."])
  | .error e => .error e

def journalSettings (config : Value) (verbose : Bool) : Except Failure (Value × Value) := do
  let level ← Settings.lookup config "logging" "level" (.text "WARNING")
  let file ← Settings.lookup config "logging" "file" (.text "")
  return (if verbose then .text "DEBUG" else level, file)

def start (scene : Scene) (g : General) : Except Outcome Started :=
  let (loaded, files) := (Settings.load scene.surroundings).run.run scene.files
  match settingsOr loaded with
  | .error e => .error { exit := 1, failure := some e, files := files }
  | .ok (config, notices) =>
    match journalSettings config g.verbose with
    | .error e => .error { exit := 1, notices := notices, failure := some e, files := files }
    | .ok (level, file) =>
      let set := Journal.setUp level file files {}
      match set.failure with
      | some e =>
        .error { exit := 1, notices := notices, failure := some e, files := set.files
                 journal := set.journal }
      | none =>
        .ok
          { mode := if g.json then .script else .human
            surroundings := scene.surroundings
            dictionary := g.dictionary.map Path.ofText
            config := config
            notices := notices
            files := set.files
            journal := set.journal }

def Started.openIndex (s : Started) : Started × Except Failure Index :=
  let path : Except Failure (Option Path) :=
    match s.dictionary with
    | some path => .ok (some path)
    | none => Settings.dictionaryPath s.surroundings s.config
  match path with
  | .error e => (s, .error e)
  | .ok path =>
    let loaded := Index.open s.files path
    ({ s with journal := s.journal.writeAll loaded.log }, loaded.result)

def Started.respond (s : Started) (r : Request) : Outcome :=
  let (s, index) := if r.needsIndex then s.openIndex else (s, .ok (.disabled ""))
  match index.bind fun i => r.answer s.mode i with
  | .ok a => s.answered a
  | .error e => s.fail e

def Started.converse (s : Started) (inputs : List Session.Input) : Outcome :=
  match s.openIndex with
  | (s, .error e) => { s.fail e with events := Session.banner }
  | (s, .ok index) =>
    let (history, files) := (Settings.historyPath s.surroundings).run.run s.files
    let t := Session.start ⟨s.mode, index⟩ s.config history inputs
    { s.outcome (if t.failure.isSome then 1 else 0) with
      events := t.closing, session := t.steps, failure := t.failure, files := files }

def Started.command (s : Started) (scene : Scene) (c : Command) (args : List String) : Outcome :=
  match c.read s.files scene.standardInput args with
  | .done r => s.respond r
  | .wrong e => { s.outcome usageExit with usage := some e }
  | .failed e => s.fail e
  | .version => { s.outcome 0 with events := [.print versionText] }
  | .help => { s.outcome 0 with events := [.print helpText] }

/-- An unknown name that looks like an option is read as one, so that it is refused as one. -/
def unknownCommand (files : Files) (name : String) (args : List String) : Outcome :=
  let unknown : Outcome :=
    { exit := usageExit, usage := some (.noSuchCommand name), files := files }
  if name.toList.head? == some '-' then
    (early files (readGeneral files (name :: args))).getD unknown
  else unknown

def run (scene : Scene) : Outcome :=
  match readGeneral scene.files scene.args with
  | .done g =>
    match g.rest with
    | [] =>
      match start scene g with
      | .error o => o
      | .ok s => s.converse scene.session
    | name :: args =>
      match Command.ofName? name with
      | none => unknownCommand scene.files name args
      | some c =>
        match start scene g with
        | .error o => o
        | .ok s => s.command scene c args
  | ended => (early scene.files ended).getD { exit := 0, files := scene.files }

/-- What comes of an outcome on a screen. The run ends where something cannot be drawn. -/
def Outcome.shownOn (screen : Screen) (o : Outcome) : Outcome :=
  match Session.drawSteps screen o.session with
  | (steps, drawn, some reason) =>
    { o with exit := 1, session := steps, events := drawn, failure := some (.undrawable reason) }
  | (_, _, none) =>
    match screen.draw o.events with
    | (drawn, some reason) =>
      { o with exit := 1, events := drawn, failure := some (.undrawable reason) }
    | (_, none) => o

def runOn (screen : Screen) (scene : Scene) : Outcome :=
  (run scene).shownOn screen

end SwitchLexicon.CommandLine
