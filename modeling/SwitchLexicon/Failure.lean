import SwitchLexicon.Detail.Record
import SwitchLexicon.Dictionary.Shape
import SwitchLexicon.Files.Basic
import SwitchLexicon.Json.Reader
import SwitchLexicon.Line.Split

/-!
The failures that leave an operation, each with the text that tells of it.
-/
namespace SwitchLexicon

inductive Failure where
  | cursor (e : CursorError)
  | record (e : RecordError)
  | shape (e : BuildError)
  | limit (l : Limit)
  | notFound (command : String)
  | unreadable (e : FileError)
  | malformed (source : String) (e : Json.Error)
  | data (e : Json.Error)
  | undecodable (e : Text.Utf8Error)
  | file (e : FileError)
  | noAttribute (kind name : String)
  | notPath (kind : String)
  | noHome
  | badSliceEnd
  | outsideDocument (cursor : Int) (length : Nat)
  | unknownGrade (name : String)
  | settingsUnreadable
  | settingsUnwritable
  | undrawable (message : String)
deriving Repr

def Failure.message : Failure → String
  | .cursor e => e.message
  | .record e => e.message
  | .shape e => e.message
  | .limit l => l.message
  | .notFound command => "Command not found: " ++ command
  | .unreadable e => "Cannot read command dictionary: " ++ e.message
  | .malformed source e =>
    "Command dictionary " ++ source ++ " is not valid JSON: " ++ e.message
  | .data e => e.message
  | .undecodable e => e.message
  | .file e => e.message
  | .noAttribute kind name => "'" ++ kind ++ "' object has no attribute '" ++ name ++ "'"
  | .notPath kind => "expected str, bytes or os.PathLike object, not " ++ kind
  | .noHome => "Could not determine home directory."
  | .badSliceEnd => "slice indices must be integers or None or have an __index__ method"
  | .outsideDocument c length =>
    "cursor_position=" ++ toString c ++ ", len_text=" ++ toString length
  | .unknownGrade name => "Unknown level: " ++ Text.quoted name
  | .settingsUnreadable => "Failed to load config"
  | .settingsUnwritable => "Failed to save config"
  | .undrawable message => message

end SwitchLexicon
