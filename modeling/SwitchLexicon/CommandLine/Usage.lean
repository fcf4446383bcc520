import SwitchLexicon.Text.Blank
import SwitchLexicon.Text.Quoted

/-!
The ways in which a command line can be wrong, each with the text that tells of it.
-/
namespace SwitchLexicon.CommandLine

inductive UsageError where
  | noSuchOption (name : String)
  | needsValue (name : String)
  | takesNoValue (name : String)
  | noSuchCommand (name : String)
  | extraArguments (arguments : List String)
  | missingArgument (name : String)
  | notWhole (names : List String) (value : String)
  | isDirectory (names : List String) (value : String)
  | cannotOpen (name value reason : String)
deriving DecidableEq, Repr

def hint (names : List String) : String :=
  " / ".intercalate (names.map fun n => "'" ++ n ++ "'")

def invalid (names : List String) (reason : String) : String :=
  "Invalid value for " ++ hint names ++ ": " ++ reason

def UsageError.message : UsageError → String
  | .noSuchOption name => "No such option " ++ Text.quoted name ++ "."
  | .needsValue name => "Option " ++ Text.quoted name ++ " requires an argument."
  | .takesNoValue name => "Option " ++ Text.quoted name ++ " does not take a value."
  | .noSuchCommand name => "No such command " ++ Text.quoted name ++ "."
  | .extraArguments [a] => "Got unexpected extra argument (" ++ a ++ ")"
  | .extraArguments arguments =>
    "Got unexpected extra arguments (" ++ Text.unwords arguments ++ ")"
  | .missingArgument name => "Missing argument '" ++ name ++ "'."
  | .notWhole names value => invalid names (Text.quoted value ++ " is not a valid integer.")
  | .isDirectory names value => invalid names ("File " ++ Text.quoted value ++ " is a directory.")
  | .cannotOpen name value reason => invalid [name] ("'" ++ value ++ "': " ++ reason)

end SwitchLexicon.CommandLine
