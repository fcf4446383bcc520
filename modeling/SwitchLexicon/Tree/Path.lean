import SwitchLexicon.Text.Blank
import SwitchLexicon.Text.Lowercase

/-!
Paths of commands: the words of a command in lowercase.
-/
namespace SwitchLexicon

def tokenize (command : String) : List String :=
  (Text.words command).map Text.lower

def canonical (command : String) : String :=
  Text.unwords (tokenize command)

end SwitchLexicon
