import SwitchLexicon.Proofs.Dictionary.Construct
import SwitchLexicon.Proofs.Line.Suggestion
import SwitchLexicon.Session.Transcript

/-!
An index without commands. Whether there is no tree at all or one without branches, a line is cut in
the same way and nothing can be found at the end of it, so no question tells the two apart.
-/
namespace SwitchLexicon

def Bare (root : Option CommandTree) : Prop :=
  ∀ t ∈ root, t = .empty

def bareSuggestion (cursor : Int) (before : List Char) : Suggestion :=
  if before.all Text.isBlank then .idle else suggestionAt none (splitBefore before) cursor

theorem bareSuggestion_tokens (cursor : Int) (before : List Char) :
    (bareSuggestion cursor before).tokens = [] := by
  unfold bareSuggestion
  split <;> rfl

theorem bareSuggestion_triggered (cursor : Int) (before : List Char) :
    (bareSuggestion cursor before).triggered = true ↔ ∃ c ∈ before, Text.isBlank c = false := by
  unfold bareSuggestion
  split
  next hblank =>
    have hall : ∀ c ∈ before, Text.isBlank c = true := List.all_eq_true.mp hblank
    constructor
    · intro htriggered
      cases htriggered
    · rintro ⟨c, hc, hsolid⟩
      rw [hall c hc] at hsolid
      cases hsolid
  next hblank =>
    have hsolid : ∃ c ∈ before, Text.isBlank c = false := by simpa using hblank
    exact ⟨fun _ => hsolid, fun _ => rfl⟩

namespace Bare

variable {root : Option CommandTree}

theorem resolve (h : Bare root) (ws : List String) :
    Bare (root.bind (CommandTree.resolve ws)) := by
  intro t ht
  obtain ⟨r, hr, hrt⟩ := Option.bind_eq_some_iff.mp ht
  rw [h r hr, CommandTree.resolve, CommandTree.get?_empty] at hrt
  split at hrt
  · exact (Option.some.inj hrt).symm
  · cases hrt

theorem candidates (h : Bare root) (query : String) :
    (root.map (·.candidates query)).getD [] = [] := by
  cases root with
  | none => rfl
  | some t =>
    rw [h t rfl]
    rfl

theorem suggestionAt_eq (h : Bare root) (split : LineSplit) (cursor : Int) :
    suggestionAt root split cursor = suggestionAt none split cursor := by
  rw [suggestionAt, h.candidates]
  rfl

/-- The words lead to some node or to none, and the suggestion is the same either way. -/
theorem lookup_eq (h : Bare root) (line : String) (cursor : Int) :
    ∃ node : List Char → Option CommandTree, lookup root line cursor =
      (beforeCursor line cursor).map fun before => (bareSuggestion cursor before, node before) := by
  refine ⟨fun before => if before.all Text.isBlank then none
    else root.bind (CommandTree.resolve (splitBefore before).completed), ?_⟩
  rw [lookup]
  cases beforeCursor line cursor with
  | error e => rfl
  | ok before =>
    have hsuggestion := (h.resolve (splitBefore before).completed).suggestionAt_eq
      (splitBefore before) cursor
    simp only [Except.map, bind, Except.bind, pure, Except.pure, bareSuggestion]
    split
    · rfl
    · rw [← hsuggestion]
      rfl

theorem suggest_eq (h : Bare root) (line : String) (cursor : Int) :
    suggest root line cursor = (beforeCursor line cursor).map (bareSuggestion cursor) := by
  obtain ⟨node, hlookup⟩ := h.lookup_eq line cursor
  rw [suggest, hlookup]
  cases beforeCursor line cursor <;> rfl

theorem describe_eq (h : Bare root) (line : String) (cursor : Int) :
    describe root line cursor = (beforeCursor line cursor).map fun _ => [] := by
  obtain ⟨node, hlookup⟩ := h.lookup_eq line cursor
  rw [describe, hlookup]
  cases beforeCursor line cursor with
  | error e => rfl
  | ok before =>
    simp only [Except.map, bareSuggestion_tokens, List.map_nil]
    cases node before <;> rfl

end Bare

namespace Index

structure AnswersAlike (i j : Index) : Prop where
  suggest : ∀ line cursor, i.suggest line cursor = j.suggest line cursor
  describe : ∀ line cursor, i.describe line cursor = j.describe line cursor
  find? : ∀ command, i.find? command = j.find? command
  contains : ∀ v, i.contains v = j.contains v
  get : ∀ command, i.get command = j.get command
  topLevel : i.topLevel = j.topLevel
  longestCommand : ∀ line, i.longestCommand line = j.longestCommand line
  commands : i.commands = j.commands
  size : i.size = j.size
  search : ∀ query limit, i.search query limit = j.search query limit
  completionsAt : ∀ mode popup text cursor,
    Session.completionsAt ⟨mode, i⟩ popup text cursor =
      Session.completionsAt ⟨mode, j⟩ popup text cursor

theorem find?_congr {i j : Index} (h : i.entries = j.entries) (command : String) :
    i.find? command = j.find? command := by
  rw [Index.find?, Index.find?, h]

theorem commands_congr {i j : Index} (h : i.entries = j.entries) : i.commands = j.commands := by
  rw [Index.commands, Index.commands, h]

theorem complete_congr {i j : Index} {line : String}
    (hsuggest : i.suggest line none = j.suggest line none)
    (hdescribe : i.describe line none = j.describe line none) (popup : PopupSettings) :
    i.complete popup line = j.complete popup line := by
  have hpairs (s : Suggestion) : i.completePairs popup line s = j.completePairs popup line s := by
    rw [completePairs, completePairs, hdescribe]
  simp only [complete, hsuggest, hpairs]

section

variable {i j : Index}

theorem entries_of_bare (h : Bare i.tree) : i.entries = [] := by
  rw [entries]
  split
  next t ht =>
    rw [h t ht]
    rfl
  next => rfl

theorem topLevel_of_bare (h : Bare i.tree) : i.topLevel = [] := by
  rw [topLevel]
  split
  next t ht =>
    rw [h t ht]
    rfl
  next => rfl

theorem longestCommand_of_bare (h : Bare i.tree) (line : String) :
    i.longestCommand line = ⟨none, Text.words line⟩ := by
  rw [longestCommand]
  split
  next t ht =>
    rw [h t ht]
    cases Text.words line <;> rfl
  next => rfl

theorem get_of_bare (h : Bare i.tree) (command : String) :
    i.get command = .error (.notFound command) := by
  rw [get, find?, entries_of_bare h]
  rfl

theorem answersAlike_of_bare (hi : Bare i.tree) (hj : Bare j.tree) : AnswersAlike i j := by
  have hentries : i.entries = j.entries := (entries_of_bare hi).trans (entries_of_bare hj).symm
  have hsuggest (line : String) (cursor : Option Int) :
      i.suggest line cursor = j.suggest line cursor :=
    (hi.suggest_eq line _).trans (hj.suggest_eq line _).symm
  have hdescribe (line : String) (cursor : Option Int) :
      i.describe line cursor = j.describe line cursor :=
    (hi.describe_eq line _).trans (hj.describe_eq line _).symm
  refine ⟨hsuggest, hdescribe, find?_congr hentries, fun v => ?_,
    fun command => (get_of_bare hi command).trans (get_of_bare hj command).symm,
    (topLevel_of_bare hi).trans (topLevel_of_bare hj).symm,
    fun line => (longestCommand_of_bare hi line).trans (longestCommand_of_bare hj line).symm,
    commands_congr hentries, congrArg List.length hentries, fun query limit => ?_,
    fun mode popup text cursor => ?_⟩
  · cases v with
    | text command => exact congrArg Option.isSome (find?_congr hentries command)
    | _ => rfl
  · rw [search, search, matching, matching, commands_congr hentries]
  · simp only [Session.completionsAt]
    cases lineBefore text cursor with
    | error e => rfl
    | ok line => exact complete_congr (hsuggest line none) (hdescribe line none) popup

end

theorem bare_disabled (error : String) : Bare (disabled error).tree := by
  intro t ht
  cases ht

theorem ofValue_nothing :
    ∃ i, (ofValue (.map []) none).result = .ok i ∧ i.tree = some .empty :=
  ⟨_, result_ofValue_of_isOk rfl (by rfl), rfl⟩

theorem disabled_answers_empty (error : String) :
    ∃ i, (ofValue (.map []) none).result = .ok i ∧ AnswersAlike (disabled error) i ∧
      (∀ command, (disabled error).get command = .error (.notFound command) ∧
        i.get command = .error (.notFound command) ∧
        (Failure.notFound command).message = "Command not found: " ++ command) ∧
      (∀ line cursor, ¬(0 ≤ cursor ∧ cursor ≤ line.length) →
        (disabled error).suggest line (some cursor) = .error ⟨cursor, line.length⟩ ∧
        (disabled error).describe line (some cursor) = .error ⟨cursor, line.length⟩) ∧
      ∀ line cursor, 0 ≤ cursor → cursor ≤ line.length →
        (disabled error).describe line (some cursor) = .ok [] ∧
        ∃ s, (disabled error).suggest line (some cursor) = .ok s ∧ s.tokens = [] ∧
          (s.triggered = true ↔
            ∃ c ∈ line.toList.take cursor.toNat, Text.isBlank c = false) := by
  obtain ⟨i, hi, htree⟩ := ofValue_nothing
  have hempty : Bare i.tree := fun t ht => (Option.some.inj (htree.symm.trans ht)).symm
  have hnone := bare_disabled error
  refine ⟨i, hi, answersAlike_of_bare hnone hempty,
    fun command => ⟨get_of_bare hnone command, get_of_bare hempty command, rfl⟩,
    fun line cursor hout => ?_, fun line cursor hlow hhigh => ?_⟩
  · have hbefore : beforeCursor line cursor = .error ⟨cursor, line.length⟩ := by
      rw [beforeCursor, if_neg hout]
    constructor
    · exact (hnone.suggest_eq line cursor).trans (by rw [hbefore]; rfl)
    · exact (hnone.describe_eq line cursor).trans (by rw [hbefore]; rfl)
  · have hbefore := beforeCursor_eq_ok_iff.mpr ⟨hlow, hhigh, rfl⟩
    refine ⟨(hnone.describe_eq line cursor).trans (by rw [hbefore]; rfl),
      bareSuggestion cursor (line.toList.take cursor.toNat), ?_, bareSuggestion_tokens _ _,
      bareSuggestion_triggered _ _⟩
    exact (hnone.suggest_eq line cursor).trans (by rw [hbefore]; rfl)

theorem disabled_answers_empty_show :
    ∃ i s, (ofValue (.map []) none).result = .ok i ∧ AnswersAlike (disabled "no file") i ∧
      (disabled "no file").suggest "show ip" (some 8) = .error ⟨8, 7⟩ ∧
      (disabled "no file").suggest "show ip" (some 7) = .ok s ∧ s.tokens = [] ∧
      s.triggered = true := by
  obtain ⟨i, hi, halike, -, hout, hin⟩ := disabled_answers_empty "no file"
  have hlength : "show ip".length = 7 := rfl
  have herror := (hout "show ip" 8 (by rw [hlength]; decide)).1
  obtain ⟨-, s, hs, htokens, htriggered⟩ := hin "show ip" 7 (by decide) (by rw [hlength]; decide)
  exact ⟨i, s, hi, halike, herror, hs, htokens, htriggered.mpr ⟨'s', by decide, by decide⟩⟩

end Index

end SwitchLexicon
