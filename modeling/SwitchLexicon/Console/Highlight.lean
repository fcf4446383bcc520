import SwitchLexicon.Console.Renderable
import SwitchLexicon.Highlight.Classify

/-!
A configuration line in the styles of its segments.
-/
namespace SwitchLexicon

def highlight (line : String) : StyledText :=
  (classifyLine line).foldl (fun t s => t.append s.1 s.2.style) {}

end SwitchLexicon
