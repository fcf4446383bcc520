import SwitchLexicon.Bundled.Interfaces
import SwitchLexicon.Bundled.Ip
import SwitchLexicon.Bundled.Management
import SwitchLexicon.Bundled.Security
import SwitchLexicon.Bundled.Switching
import SwitchLexicon.Bundled.Vlan
import SwitchLexicon.Dictionary.Load

/-!
The dictionary that comes with the program.
-/
namespace SwitchLexicon

namespace Bundled

def details : List Detail :=
  vlanCommands ++ interfacesCommands ++ ipCommands ++ switchingCommands ++ managementCommands ++
    securityCommands

def dictionary : Value :=
  .ofEntries (details.map fun d => (d.command, d.toValue))

def source : String := "bundled commands_r8.json"

def load : Logged Value :=
  ⟨.ok dictionary, Dictionary.loadedRows source dictionary⟩

end Bundled

def Index.open (files : Files) : Option Path → Logged Index
  | some path => Index.load files path.text
  | none => Index.ofLoaded Bundled.load

end SwitchLexicon
