import SwitchLexicon.Console.Plain
import SwitchLexicon.Console.Report
import SwitchLexicon.Proofs.Console.Markup
import SwitchLexicon.Proofs.Json.Written

/-!
What can be drawn. A text is inert if every tag in it is escaped and if it can be encoded, as an
escaped text can. Output is tame if its tags are the signs of the program, closed as they were
opened, with nothing but inert texts besides. A screen may refuse other output, but it is expected
to draw what is tame.
-/
namespace SwitchLexicon

namespace Markup

/-! ## Tags that are not escaped -/

/-- Every tag is escaped, and the text can be encoded. -/
structure IsInert (s : String) : Prop where
  guarded : isGuarded s = true
  encodable : Text.isEncodable s = true

theorem IsInert.append {s t : String} (hs : IsInert s) (h : isBracketFree t.toList = true)
    (hencodable : Text.isEncodable t = true) : IsInert (s ++ t) := by
  refine ⟨?_, by rw [Text.isEncodable_append, hs.encodable, hencodable]; rfl⟩
  rw [isGuarded, String.toList_append, guardsFrom_append h]
  exact hs.guarded

end Markup

/-! ## Screens -/

namespace Screen

def Draws (screen : Screen) (es : List OutputEvent) : Prop :=
  ∀ e ∈ es, screen.fault? e = none

theorem draw_cases (screen : Screen) (es : List OutputEvent) :
    screen.Draws es ∧ screen.draw es = (es, none) ∨
      ¬screen.Draws es ∧ ∃ drawn reason, screen.draw es = (drawn, some reason) := by
  induction es with
  | nil => exact .inl ⟨nofun, rfl⟩
  | cons e es ih =>
    rw [Draws, List.forall_mem_cons, draw]
    cases he : screen.fault? e with
    | some reason => exact .inr ⟨fun h => (by cases h.1), [], reason, rfl⟩
    | none =>
      rcases ih with ⟨hdraws, hdraw⟩ | ⟨hdraws, drawn, reason, hdraw⟩
      · exact .inl ⟨⟨rfl, hdraws⟩, by rw [hdraw]⟩
      · exact .inr ⟨fun h => hdraws h.2, e :: drawn, reason, by rw [hdraw]⟩

end Screen

namespace Report

end Report

end SwitchLexicon
