import SwitchLexicon.Text.Find
import SwitchLexicon.Text.Lowercase
import SwitchLexicon.Value.Basic

/-!
The reference entry of one switch command. A dictionary writes the placeholder `N/A` where a section
has nothing to say; such items count as not documented.
-/
namespace SwitchLexicon

structure Gloss where
  term : String
  description : String
deriving DecidableEq, Repr

structure Detail where
  command : String
  description : String := ""
  form : String := ""
  parameters : List Gloss := []
  defaults : String := ""
  platforms : List (String × String) := []
  guidelines : List String := []
  examples : List String := []
  history : List String := []
  related : List Gloss := []
  mibObjects : List String := []
  outputs : List Gloss := []
deriving DecidableEq, Repr

instance : Inhabited Detail := ⟨{ command := "" }⟩

namespace Detail

def fieldNames : List String :=
  ["command", "description", "syntax", "parameters", "defaults", "platforms_supported",
    "usage_guidelines", "examples", "release_history", "related_commands", "mib_objects",
    "output_definitions"]

def placeholder : String := "N/A"

def documentedParameters (d : Detail) : List Gloss :=
  d.parameters.filter (·.term != placeholder)

def documentedGuidelines (d : Detail) : List String :=
  d.guidelines.filter (· != placeholder)

def nameContains (d : Detail) (needle : String) : Bool :=
  Text.contains (Text.lower d.command) needle

def descriptionContains (d : Detail) (needle : String) : Bool :=
  Text.contains (Text.lower d.description) needle

def isMatch (d : Detail) (query : String) : Bool :=
  d.nameContains (Text.lower query) || d.descriptionContains (Text.lower query)

def texts (ss : List String) : Value :=
  .list (ss.map .text)

def glosses (termName : String) (gs : List Gloss) : Value :=
  .list (gs.map fun g =>
    .ofEntries [(termName, .text g.term), ("description", .text g.description)])

def toValue (d : Detail) : Value :=
  .ofEntries
    [("command", .text d.command), ("description", .text d.description), ("syntax", .text d.form),
      ("parameters", glosses "name" d.parameters), ("defaults", .text d.defaults),
      ("platforms_supported", .ofEntries (d.platforms.map fun p => (p.1, .text p.2))),
      ("usage_guidelines", texts d.guidelines), ("examples", texts d.examples),
      ("release_history", texts d.history), ("related_commands", glosses "command" d.related),
      ("mib_objects", texts d.mibObjects), ("output_definitions", glosses "field" d.outputs)]

end Detail

end SwitchLexicon
