import SwitchLexicon.CommandLine.Run

/-!
The course of a run. Once arguments and settings are read, a run has stopped, has a request to
answer, or goes into a session; a run that stops draws nothing.
-/
namespace SwitchLexicon.CommandLine

inductive Course where
  | stopped
  | request (s : Started) (r : Request)
  | session (s : Started)

def Scene.course (scene : Scene) : Course :=
  match readGeneral scene.files scene.args with
  | .done g =>
    match g.rest with
    | [] =>
      match start scene g with
      | .ok s => .session s
      | .error _ => .stopped
    | name :: args =>
      match Command.ofName? name, start scene g with
      | some c, .ok s =>
        match c.read s.files scene.standardInput args with
        | .done r => .request s r
        | _ => .stopped
      | _, _ => .stopped
  | _ => .stopped

structure Outcome.IsBare (o : Outcome) : Prop where
  session : o.session = []
  printed : ∀ e ∈ o.events, ∃ text, e = .print text

theorem isBare_early {α : Type} {files : Files} {p : Parsed α} {o : Outcome}
    (h : early files p = some o) : o.IsBare := by
  cases p with
  | done value => cases h
  | wrong e =>
    obtain rfl := Option.some.inj h
    exact ⟨rfl, by simp⟩
  | failed e =>
    obtain rfl := Option.some.inj h
    exact ⟨rfl, by simp⟩
  | version =>
    obtain rfl := Option.some.inj h
    exact ⟨rfl, by simp⟩
  | help =>
    obtain rfl := Option.some.inj h
    exact ⟨rfl, by simp⟩

/-- A start in its three steps: the settings, what they say about the journal, and its set-up. -/
inductive Starts (scene : Scene) (g : General) (loaded : Except Failure Entries × Files) :
    Except Outcome Started → Prop
  | unloaded {e : Failure} (settings : settingsOr loaded.1 = .error e) :
      Starts scene g loaded (.error { exit := 1, failure := some e, files := loaded.2 })
  | unusable {config : Value} {notices : List String} {e : Failure}
      (settings : settingsOr loaded.1 = .ok (config, notices))
      (journal : journalSettings config g.verbose = .error e) :
      Starts scene g loaded
        (.error { exit := 1, notices := notices, failure := some e, files := loaded.2 })
  | refused {config level file : Value} {notices : List String} {e : Failure}
      (settings : settingsOr loaded.1 = .ok (config, notices))
      (journal : journalSettings config g.verbose = .ok (level, file))
      (setUp : (Journal.setUp level file loaded.2 {}).failure = some e) :
      Starts scene g loaded
        (.error
          { exit := 1, notices := notices, failure := some e
            files := (Journal.setUp level file loaded.2 {}).files
            journal := (Journal.setUp level file loaded.2 {}).journal })
  | ready {config level file : Value} {notices : List String}
      (settings : settingsOr loaded.1 = .ok (config, notices))
      (journal : journalSettings config g.verbose = .ok (level, file))
      (setUp : (Journal.setUp level file loaded.2 {}).failure = none) :
      Starts scene g loaded
        (.ok
          { mode := if g.json then .script else .human
            surroundings := scene.surroundings
            dictionary := g.dictionary.map Path.ofText
            config := config
            notices := notices
            files := (Journal.setUp level file loaded.2 {}).files
            journal := (Journal.setUp level file loaded.2 {}).journal })

theorem starts (scene : Scene) (g : General) :
    Starts scene g ((Settings.load scene.surroundings).run.run scene.files) (start scene g) := by
  rw [start]
  rcases (Settings.load scene.surroundings).run.run scene.files with ⟨loaded, files⟩
  dsimp only
  cases hsettings : settingsOr loaded with
  | error e => exact .unloaded hsettings
  | ok found =>
    obtain ⟨config, notices⟩ := found
    dsimp only
    cases hjournal : journalSettings config g.verbose with
    | error e => exact .unusable hsettings hjournal
    | ok found =>
      obtain ⟨level, file⟩ := found
      dsimp only
      cases hset : (Journal.setUp level file files {}).failure with
      | some e => exact .refused hsettings hjournal hset
      | none => exact .ready hsettings hjournal hset

theorem isBare_of_start {scene : Scene} {g : General} {o : Outcome} (h : start scene g = .error o) :
    o.IsBare := by
  have hstarts := starts scene g
  rw [h] at hstarts
  cases hstarts with
  | unloaded settings => exact ⟨rfl, by simp⟩
  | unusable settings journal => exact ⟨rfl, by simp⟩
  | refused settings journal setUp => exact ⟨rfl, by simp⟩

theorem isBare_unknownCommand (files : Files) (name : String) (args : List String) :
    (unknownCommand files name args).IsBare := by
  rw [unknownCommand]
  split
  · cases hearly : early files (readGeneral files (name :: args)) with
    | none => exact ⟨rfl, by simp⟩
    | some o => exact isBare_early hearly
  · exact ⟨rfl, by simp⟩

/-- What a run comes to on each course. -/
inductive Runs (scene : Scene) : Course → Outcome → Prop
  | stopped {o : Outcome} (bare : o.IsBare) : Runs scene .stopped o
  | request (s : Started) (r : Request) : Runs scene (.request s r) (s.respond r)
  | session (s : Started) : Runs scene (.session s) (s.converse scene.session)

theorem runs (scene : Scene) : Runs scene scene.course (run scene) := by
  rw [Scene.course, run]
  cases readGeneral scene.files scene.args with
  | wrong e => exact .stopped (isBare_early (p := Parsed.wrong (α := General) e) rfl)
  | failed e => exact .stopped (isBare_early (p := Parsed.failed (α := General) e) rfl)
  | version => exact .stopped (isBare_early (p := Parsed.version (α := General)) rfl)
  | help => exact .stopped (isBare_early (p := Parsed.help (α := General)) rfl)
  | done g =>
    dsimp only
    cases g.rest with
    | nil =>
      dsimp only
      cases hstart : start scene g with
      | error o => exact .stopped (isBare_of_start hstart)
      | ok s => exact .session s
    | cons name args =>
      dsimp only
      cases Command.ofName? name with
      | none => exact .stopped (isBare_unknownCommand scene.files name args)
      | some c =>
        cases hstart : start scene g with
        | error o => exact .stopped (isBare_of_start hstart)
        | ok s =>
          dsimp only
          rw [Started.command]
          cases c.read s.files scene.standardInput args with
          | done r => exact .request s r
          | wrong e => exact .stopped ⟨rfl, by simp [Started.outcome]⟩
          | failed e => exact .stopped ⟨rfl, by simp [Started.fail, Started.outcome]⟩
          | version => exact .stopped ⟨rfl, by simp⟩
          | help => exact .stopped ⟨rfl, by simp⟩

variable {scene : Scene} {s : Started} {r : Request}

theorem run_of_request (h : scene.course = .request s r) : run scene = s.respond r := by
  have hruns := runs scene
  rw [h] at hruns
  generalize run scene = o at hruns ⊢
  cases hruns with
  | request => rfl

/-! ## The index of a run -/

def Started.opened (s : Started) (r : Request) : Started × Except Failure Index :=
  if r.needsIndex then s.openIndex else (s, .ok (.disabled ""))

theorem exists_opened_eq (s : Started) (r : Request) :
    ∃ journal, (s.opened r).1 = { s with journal := journal } := by
  rw [Started.opened]
  split
  · rw [Started.openIndex]
    dsimp only
    split
    · exact ⟨s.journal, rfl⟩
    · exact ⟨_, rfl⟩
  · exact ⟨s.journal, rfl⟩

theorem mode_opened (s : Started) (r : Request) : (s.opened r).1.mode = s.mode := by
  obtain ⟨journal, h⟩ := exists_opened_eq s r
  rw [h]

theorem respond_eq (s : Started) (r : Request) : s.respond r =
    match (s.opened r).2.bind (r.answer s.mode) with
    | .ok a => (s.opened r).1.answered a
    | .error e => (s.opened r).1.fail e := by
  rw [← mode_opened s r]
  rfl

theorem respond_of_answer {i : Index} {a : Answer} (hi : (s.opened r).2 = .ok i)
    (ha : r.answer s.mode i = .ok a) : s.respond r = (s.opened r).1.answered a := by
  rw [respond_eq, hi]
  simp only [Except.bind, ha]

end SwitchLexicon.CommandLine
