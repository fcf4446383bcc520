import SwitchLexicon.Console.Highlight
import SwitchLexicon.Detail.Basic

/-!
The full view of a reference entry. Sections that say nothing are left out.
-/
namespace SwitchLexicon

namespace Detail

def plainPart (s : String) : Renderable :=
  .text (.ofText s "")

def headingPart (s : String) : Renderable :=
  .text (.ofText s "bold")

def block (parts : List Renderable) : List Renderable :=
  plainPart "" :: parts

def glossTable (title term : String) (gs : List Gloss) : Renderable :=
  .table
    { title := title
      columns := [⟨term, "bright_blue"⟩, ⟨"Description", ""⟩]
      rows := gs.map fun g => [g.term, g.description]
      titleJustify := .left }

def whenAny {α : Type} (xs : List α) (parts : List α → List Renderable) : List Renderable :=
  if xs.isEmpty then [] else block (parts xs)

def viewParts (d : Detail) : List Renderable :=
  [.text (.ofText d.command "bold cyan"), plainPart d.description, plainPart "",
      headingPart "Syntax", .text (highlight (if d.form.isEmpty then d.command else d.form))] ++
    whenAny d.documentedParameters (fun ps => [glossTable "Parameters" "Parameter" ps]) ++
    (if d.defaults.isEmpty || d.defaults == placeholder then []
      else block [headingPart "Defaults", plainPart d.defaults]) ++
    whenAny d.documentedGuidelines
      (fun gs => headingPart "Usage Guidelines" :: gs.map fun g => plainPart ("  • " ++ g)) ++
    whenAny d.examples
      (fun es => headingPart "Examples" ::
        es.map fun e => .text ((StyledText.ofText "  " "").appendText (highlight e))) ++
    whenAny d.outputs (fun os => [glossTable "Output Definitions" "Field" os]) ++
    whenAny d.related
      (fun rs => headingPart "Related Commands" ::
        rs.map fun r => plainPart ("  " ++ r.term ++ " — " ++ r.description)) ++
    whenAny d.history (fun hs => [.text (.ofText (", ".intercalate hs) "dim")])

def view (d : Detail) : Renderable :=
  .group d.viewParts

end Detail

end SwitchLexicon
