import SwitchLexicon.Detail.Basic

/-!
The platforms that the bundled dictionary speaks of.
-/
namespace SwitchLexicon.Bundled

def allPlatforms : List (String × String) :=
  [("OmniSwitch 6860, 6865, 6900, 9900", "Yes")]

end SwitchLexicon.Bundled
