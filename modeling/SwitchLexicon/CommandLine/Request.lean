import SwitchLexicon.CommandLine.Arguments
import SwitchLexicon.Index.Search
import SwitchLexicon.Number.Whole

/-!
Requests: what a command line asks for, once its options are read and its values have their types.
-/
namespace SwitchLexicon.CommandLine

inductive Command where
  | complete
  | search
  | show
  | stats
  | highlight
  | browse
deriving DecidableEq, Repr

def Command.name : Command → String
  | .complete => "complete"
  | .search => "search"
  | .show => "show"
  | .stats => "stats"
  | .highlight => "highlight"
  | .browse => "browse"

def Command.all : List Command := [.complete, .search, .show, .stats, .highlight, .browse]

def Command.ofName? (name : String) : Option Command :=
  Command.all.find? fun c => c.name == name

inductive Request where
  | complete (line : String) (cursor : Option Int)
  | search (query : String) (limit : Int)
  | show (words : List String)
  | stats
  | highlight (content : List UInt8)
  | browse (query : String)
deriving DecidableEq, Repr

inductive Parsed (α : Type) where
  | wrong (e : UsageError)
  | failed (e : Failure)
  | version
  | help
  | done (value : α)

def helpOption : OptionSpec := ⟨["--help"], false⟩

def cursorOption : OptionSpec := ⟨["--cursor"], true⟩

def limitOption : OptionSpec := ⟨["--limit", "-n"], true⟩

def jsonOption : OptionSpec := ⟨["--json"], false⟩

def dictionaryOption : OptionSpec := ⟨["--dictionary"], true⟩

def verboseOption : OptionSpec := ⟨["-v", "--verbose"], false⟩

def versionOption : OptionSpec := ⟨["--version"], false⟩

structure General where
  json : Bool
  verbose : Bool
  dictionary : Option String
  rest : List String
deriving DecidableEq, Repr

def generalOptions : List OptionSpec :=
  [jsonOption, dictionaryOption, verboseOption, versionOption, helpOption]

/-- A dictionary that is a directory is refused at once, a missing one is not. -/
def readGeneral (files : Files) (args : List String) : Parsed General :=
  match readArguments generalOptions false args with
  | .error e => .wrong e
  | .ok a =>
    match a.options.find? fun u => u.spec == versionOption || u.spec == helpOption with
    | some u => if u.spec = versionOption then .version else .help
    | none =>
      let dictionary := a.value? dictionaryOption
      match dictionary.map files.stat, dictionary with
      | some (.ok .directory), some path => .wrong (.isDirectory dictionaryOption.names path)
      | some (.error .nullInPath), _ => .failed (.file .nullInPath)
      | some (.error (.unencodable position count code)), _ =>
        .failed (.file (.unencodable position count code))
      | _, _ => .done ⟨a.uses jsonOption, a.uses verboseOption, dictionary, a.others⟩

def readWhole (a : Arguments) (spec : OptionSpec) (f : Option Int → Request) : Parsed Request :=
  match a.value? spec with
  | none => .done (f none)
  | some s =>
    match Whole.ofText? s with
    | some n => .done (f (some n))
    | none => .wrong (.notWhole spec.names s)

def readSource (files : Files) (standardInput : List UInt8) (source : String) :
    Except FileError (List UInt8) :=
  if source = "-" then .ok standardInput else files.read source

def noMore (others : List String) (r : Request) : Parsed Request :=
  if others.isEmpty then .done r else .wrong (.extraArguments others)

def Command.options : Command → List OptionSpec
  | .complete => [cursorOption, helpOption]
  | .search => [limitOption, helpOption]
  | _ => [helpOption]

def Command.request (files : Files) (standardInput : List UInt8) (a : Arguments) :
    Command → Parsed Request
  | .complete => readWhole a cursorOption (.complete (Text.unwords a.others))
  | .search =>
    readWhole a limitOption fun n => .search (Text.unwords a.others) (n.getD Index.defaultLimit)
  | .show =>
    if a.others.isEmpty then .wrong (.missingArgument "COMMAND...") else .done (.show a.others)
  | .stats => noMore a.others .stats
  | .highlight =>
    let source := a.others.headD "-"
    match readSource files standardInput source with
    | .error (.fault f _) => .wrong (.cannotOpen "[SOURCE]" source f.reason)
    | .error e => .failed (.file e)
    | .ok bytes => noMore a.others.tail (.highlight bytes)
  | .browse => .done (.browse (Text.unwords a.others))

def Command.read (files : Files) (standardInput : List UInt8) (c : Command) (args : List String) :
    Parsed Request :=
  match readArguments c.options true args with
  | .error e => .wrong e
  | .ok a => if a.uses helpOption then .help else c.request files standardInput a

def asksForInput : List String → Bool
  | name :: args =>
    match readArguments (Command.options .highlight) true args with
    | .ok a => name == Command.name .highlight && a.others.headD "-" == "-"
    | .error _ => false
  | [] => false

end SwitchLexicon.CommandLine
