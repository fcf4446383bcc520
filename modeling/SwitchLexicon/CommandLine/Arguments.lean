import SwitchLexicon.CommandLine.Usage

/-!
Options and other arguments told apart. Long options may have their value after an equals sign,
short ones may share one dash, and two dashes alone end the options.
-/
namespace SwitchLexicon.CommandLine

structure OptionSpec where
  names : List String
  takesValue : Bool
deriving DecidableEq, Repr

/-- One use of an option; the value of an option that takes none is empty. -/
structure OptionUse where
  spec : OptionSpec
  value : String
deriving DecidableEq, Repr

structure Arguments where
  options : List OptionUse
  others : List String
deriving DecidableEq, Repr

namespace Arguments

/-- The last use counts. -/
def value? (a : Arguments) (spec : OptionSpec) : Option String :=
  ((a.options.filter fun u => u.spec == spec).getLast?).map OptionUse.value

def uses (a : Arguments) (spec : OptionSpec) : Bool :=
  a.options.any fun u => u.spec == spec

end Arguments

def specNamed? (specs : List OptionSpec) (name : String) : Option OptionSpec :=
  specs.find? fun s => s.names.contains name

/-- What one argument says: options that are complete, and the name of one that waits for the next
argument as its value. -/
structure Reading where
  uses : List OptionUse
  waiting : Option (OptionSpec × String)

/-- Options that share one dash. What follows an option with a value is its value. -/
def readShort (specs : List OptionSpec) : List Char → Except UsageError Reading
  | [] => .ok ⟨[], none⟩
  | c :: cs =>
    let name := String.ofList ['-', c]
    match specNamed? specs name with
    | none => .error (.noSuchOption name)
    | some spec =>
      if spec.takesValue then
        if cs.isEmpty then .ok ⟨[], some (spec, name)⟩
        else .ok ⟨[⟨spec, String.ofList cs⟩], none⟩
      else
        match readShort specs cs with
        | .error e => .error e
        | .ok r => .ok { r with uses := ⟨spec, ""⟩ :: r.uses }

def splitValue (cs : List Char) : String × Option String :=
  let name := cs.takeWhile (· != '=')
  match cs.drop name.length with
  | _ :: value => (String.ofList name, some (String.ofList value))
  | [] => (String.ofList name, none)

def readLong (specs : List OptionSpec) (cs : List Char) : Except UsageError Reading :=
  let (name, value) := splitValue cs
  match specNamed? specs name, value with
  | none, _ => .error (.noSuchOption name)
  | some spec, some v =>
    if spec.takesValue then .ok ⟨[⟨spec, v⟩], none⟩ else .error (.takesNoValue name)
  | some spec, none =>
    if spec.takesValue then .ok ⟨[], some (spec, name)⟩ else .ok ⟨[⟨spec, ""⟩], none⟩

def readOption (specs : List OptionSpec) (cs : List Char) : Except UsageError Reading :=
  match cs with
  | '-' :: '-' :: _ => readLong specs cs
  | _ => readShort specs (cs.drop 1)

def isOption (cs : List Char) : Bool :=
  cs.head? == some '-' && decide (1 < cs.length)

def Arguments.after (uses : List OptionUse) (a : Arguments) : Arguments :=
  { a with options := uses ++ a.options }

/-- Options may stand anywhere if they are `scattered`, and else only before all other arguments. -/
def readArguments (specs : List OptionSpec) (scattered : Bool) :
    List String → Except UsageError Arguments
  | [] => .ok ⟨[], []⟩
  | arg :: rest =>
    if arg = "--" then .ok ⟨[], rest⟩
    else if isOption arg.toList then
      match readOption specs arg.toList with
      | .error e => .error e
      | .ok ⟨uses, none⟩ => (readArguments specs scattered rest).map (Arguments.after uses)
      | .ok ⟨uses, some (spec, name)⟩ =>
        match rest with
        | [] => .error (.needsValue name)
        | value :: rest =>
          (readArguments specs scattered rest).map (Arguments.after (uses ++ [⟨spec, value⟩]))
    else if scattered then
      (readArguments specs scattered rest).map fun a => { a with others := arg :: a.others }
    else .ok ⟨[], arg :: rest⟩

end SwitchLexicon.CommandLine
