import SwitchLexicon.Journal.Basic
import SwitchLexicon.Proofs.Dictionary.Load

/-!
Setting up the journal. It succeeds exactly if the level names a grade and the file, if there is to
be one, can be opened, and does to the files no more than to make that file.
-/
namespace SwitchLexicon.Journal

variable {level file : Value} {files : Files}

def NamesGrade (v : Value) : Prop :=
  ∃ name, v = .text name ∧ (gradeOf? (Text.upper name)).isSome = true

def OpensFile (files : Files) (v : Value) : Prop :=
  v.holds = true → ∃ path opened, v = .text path ∧ openFile files path = .ok opened

theorem files_openFile {path : String} {after : Files} {place : Place}
    (h : openFile files path = .ok (after, place)) :
    after = files ∨ files.node? place = none ∧ after = files.put place (.file []) := by
  unfold openFile at h
  split at h
  · cases h
  next found hfound =>
    split at h
    next node hnode =>
      cases h
      exact .inl rfl
    next hnone =>
      cases h
      exact .inr ⟨hnone, rfl⟩

def gradeNamed? : Value → Option Int
  | .text name => gradeOf? (Text.upper name)
  | _ => none

theorem namesGrade_iff (v : Value) : NamesGrade v ↔ ∃ grade, gradeNamed? v = some grade := by
  cases v <;> simp [NamesGrade, gradeNamed?, Option.isSome_iff_exists]

/-- The ways in which a set-up ends. The file is touched only once the level is known, and the
journal gets its grade only once the file is open. -/
inductive Ends (level file : Value) (files : Files) (j : Journal) : SetUp → Prop where
  | nameless (hlevel : ∀ name, level ≠ .text name) :
      Ends level file files j ⟨files, j, some (.noAttribute level.kindName "upper")⟩
  | unknown {name : String} (hlevel : level = .text name) (hgrade : gradeNamed? level = none) :
      Ends level file files j
        ⟨files, { j with sinks := [] }, some (.unknownGrade (Text.upper name))⟩
  | refused {name : String} {grade : Int} {e : Failure} (hlevel : level = .text name)
      (hgrade : gradeNamed? level = some grade) (hfile : ¬OpensFile files file) :
      Ends level file files j ⟨files, { j with sinks := [.console grade] }, some e⟩
  | console {name : String} {grade : Int} (hlevel : level = .text name)
      (hgrade : gradeNamed? level = some grade) (hfile : file.holds = false) :
      Ends level file files j ⟨files, { j with grade := grade, sinks := [.console grade] }, none⟩
  | opened {name path : String} {grade : Int} {after : Files} {place : Place}
      (hlevel : level = .text name) (hgrade : gradeNamed? level = some grade)
      (hfile : file = .text path) (hpath : path.isEmpty = false)
      (hopen : openFile files path = .ok (after, place)) :
      Ends level file files j
        ⟨after, { j with grade := grade, sinks := [.console grade, .file grade place] }, none⟩

theorem setUp_ends (level file : Value) (files : Files) (j : Journal) :
    Ends level file files j (setUp level file files j) := by
  cases level with
  | text name =>
    cases hgrade : gradeOf? (Text.upper name) with
    | none =>
      simp only [setUp, hgrade]
      exact .unknown rfl hgrade
    | some grade =>
      cases file with
      | text path =>
        cases hpath : path.isEmpty with
        | true =>
          simp only [setUp, hgrade, hpath]
          exact .console rfl hgrade (by simp [Value.holds, hpath])
        | false =>
          cases hopen : openFile files path with
          | error e =>
            simp only [setUp, hgrade, hpath, hopen]
            exact .refused rfl hgrade (by simp [OpensFile, Value.holds, hpath, hopen])
          | ok opened =>
            simp only [setUp, hgrade, hpath, hopen]
            exact .opened rfl hgrade rfl hpath hopen
      | _ =>
        simp only [setUp, hgrade]
        split
        next hholds => exact .refused rfl hgrade (by simp [OpensFile, hholds])
        next hholds => exact .console rfl hgrade (Bool.eq_false_iff.mpr hholds)
  | _ => exact .nameless (by simp)

theorem setUp_spec (level file : Value) (files : Files) (j : Journal) :
    ((setUp level file files j).failure = none ↔ NamesGrade level ∧ OpensFile files file) ∧
      ((setUp level file files j).files = files ∨
        ∃ place, files.node? place = none ∧
          (setUp level file files j).files = files.put place (.file [])) := by
  have hends := setUp_ends level file files j
  generalize setUp level file files j = result at hends ⊢
  rw [namesGrade_iff]
  cases hends with
  | nameless hlevel =>
    refine ⟨iff_of_false (by simp) fun h => ?_, .inl rfl⟩
    obtain ⟨name, hname, -⟩ := (namesGrade_iff level).mpr h.1
    exact hlevel name hname
  | unknown _ hgrade => exact ⟨iff_of_false (by simp) (by simp [hgrade]), .inl rfl⟩
  | refused _ _ hfile => exact ⟨iff_of_false (by simp) fun h => hfile h.2, .inl rfl⟩
  | console _ hgrade hfile =>
    exact ⟨iff_of_true rfl ⟨⟨_, hgrade⟩, fun hholds => by simp [hfile] at hholds⟩, .inl rfl⟩
  | opened _ hgrade hfile _ hopen =>
    refine ⟨iff_of_true rfl ⟨⟨_, hgrade⟩, fun _ => ⟨_, _, hfile, hopen⟩⟩, ?_⟩
    exact (files_openFile hopen).imp_right fun h => ⟨_, h⟩

end SwitchLexicon.Journal
