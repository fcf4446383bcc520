import SwitchLexicon.Proofs.Bundled
import SwitchLexicon.Proofs.CommandLine.Course
import SwitchLexicon.Proofs.Journal.SetUp
import SwitchLexicon.Proofs.Settings.Durable
import SwitchLexicon.Proofs.Settings.Overlay

/-!
What a settings file does to a run that completes a line. A file that cannot be read is left aside.
A file that can be read is taken at its word: a section that is no table, a level that names no
grade, and a file or a dictionary that cannot be opened end the run before the line is looked at.
The answer must then be drawn, which a screen may refuse if the dictionary brings markup of its own.
-/
namespace SwitchLexicon

namespace Settings

/-! ## What the user says -/

end Settings

namespace CommandLine

/-! ## Settings that serve -/

variable {s : Surroundings} {files : Files} {verbose : Bool}

structure Outcome.Completes (o : Outcome) (mode : Mode) (i : Index) (line : String) : Prop where
  events : o.events = (complete mode i line none).events
  session : o.session = []
  exit : o.exit = 0
  failure : o.failure = none
  usage : o.usage = none

structure Outcome.Crashes (o : Outcome) : Prop where
  exit : o.exit = 1
  failure : o.failure ≠ none

theorem Outcome.Crashes.shownOn {o : Outcome} (h : o.Crashes) (screen : Screen) :
    (o.shownOn screen).Crashes := by
  rw [Outcome.shownOn]
  split
  · exact ⟨rfl, nofun⟩
  · split
    · exact ⟨rfl, nofun⟩
    · exact h

namespace Outcome.Completes

variable {o : Outcome} {mode : Mode} {i : Index} {line : String}

theorem shownOn (h : o.Completes mode i line) (screen : Screen) :
    screen.Draws o.events ∧ (o.shownOn screen).Completes mode i line ∨
      ¬screen.Draws o.events ∧ (o.shownOn screen).Crashes := by
  rw [Outcome.shownOn, h.session, Session.drawSteps]
  rcases screen.draw_cases o.events with ⟨hdraws, hdraw⟩ | ⟨hdraws, drawn, reason, hdraw⟩
  · rw [hdraw]
    exact .inl ⟨hdraws, h⟩
  · rw [hdraw]
    exact .inr ⟨hdraws, rfl, nofun⟩

end Outcome.Completes

end CommandLine

end SwitchLexicon
