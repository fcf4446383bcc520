import SwitchLexicon.Proofs.Files.Join
import SwitchLexicon.Proofs.Journal.SetUp

/-!
Sinks of the journal over many set-ups. A set-up changes the journal in small steps: it takes off
the sinks one by one, adds a sink for the console, adds one for the file once that is open, and
gives the journal its grade last. It can fail between any two of these. What it adds never depends
on what it found, so from every journal that a broken set-up leaves behind the next one starts
afresh.
-/
namespace SwitchLexicon

def Sink.isConsole : Sink → Bool
  | .console _ => true
  | .file _ _ => false

namespace Journal

def placeOf (path : String) : Place :=
  Files.destination (Files.startOf (straightPath path))
    (Path.namesBetween [] (straightPath path).toList)

theorem place_of_openFile {files after : Files} {path : String} {place : Place}
    (h : openFile files path = .ok (after, place)) : place = placeOf path := by
  have hwriting : files.locateForWriting (straightPath path) = .ok place := by
    unfold openFile at h
    split at h
    · cases h
    next found hfound =>
      rw [hfound]
      split at h
      · cases h
        rfl
      · cases h
        rfl
  have hlocate := Files.locate_of_locateForWriting hwriting
  exact Files.eq_destination_of_walk (Files.locate_eq_ok_iff.mp hlocate).2.2

inductive Change where
  | remove
  | add (sink : Sink)
  | regrade (grade : Int)

def Change.apply (j : Journal) : Change → Journal
  | .remove => { j with sinks := j.sinks.tail }
  | .add sink => { j with sinks := j.sinks ++ [sink] }
  | .regrade grade => { j with grade := grade }

def Change.added? : Change → Option Sink
  | .add sink => some sink
  | _ => none

def lastChanges (grade : Int) (files : Files) (file : Value) : List Change :=
  if file.holds then
    match file with
    | .text path =>
      match openFile files path with
      | .ok opened => [.add (.file grade opened.2), .regrade grade]
      | .error _ => []
    | _ => []
  else [.regrade grade]

def additions (level file : Value) (files : Files) : List Change :=
  match gradeNamed? level with
  | some grade => .add (.console grade) :: lastChanges grade files file
  | none => []

/-- The changes that a set-up makes, in their order and up to where it fails. -/
def changes (level file : Value) (files : Files) (j : Journal) : List Change :=
  match level with
  | .text _ => List.replicate j.sinks.length .remove ++ additions level file files
  | _ => []

theorem foldl_remove (n : Nat) (j : Journal) :
    (List.replicate n Change.remove).foldl Change.apply j = { j with sinks := j.sinks.drop n } := by
  induction n generalizing j with
  | zero => rfl
  | succ n ih =>
    rw [List.replicate_succ, List.foldl_cons, ih]
    simp [Change.apply]

theorem foldl_remove_all (j : Journal) :
    (List.replicate j.sinks.length Change.remove).foldl Change.apply j =
      { j with sinks := [] } := by
  rw [foldl_remove, List.drop_length]

theorem lastChanges_of_refused {files : Files} {file : Value} (h : ¬OpensFile files file)
    (grade : Int) : lastChanges grade files file = [] := by
  have hholds : file.holds = true := by
    by_contra hfalse
    exact h fun htrue => absurd htrue hfalse
  cases file with
  | text path =>
    cases hopen : openFile files path with
    | error e => simp [lastChanges, hopen, hholds]
    | ok opened => exact absurd (fun _ => ⟨path, opened, rfl, hopen⟩) h
  | _ => simp [lastChanges, hholds]

theorem setUp_journal (level file : Value) (files : Files) (j : Journal) :
    (setUp level file files j).journal = (changes level file files j).foldl Change.apply j := by
  have hchanges : ∀ name, level = .text name → (changes level file files j).foldl Change.apply j =
      (additions level file files).foldl Change.apply { j with sinks := [] } := by
    rintro name rfl
    rw [changes, List.foldl_append, foldl_remove_all]
  have hends := setUp_ends level file files j
  generalize setUp level file files j = result at hends ⊢
  cases hends with
  | nameless hlevel =>
    cases level with
    | text name => exact absurd rfl (hlevel name)
    | _ => rfl
  | unknown hlevel hgrade => rw [hchanges _ hlevel, additions, hgrade, List.foldl_nil]
  | refused hlevel hgrade hfile =>
    simp [hchanges _ hlevel, additions, hgrade, lastChanges_of_refused hfile, Change.apply]
  | console hlevel hgrade hfile =>
    simp [hchanges _ hlevel, additions, hgrade, lastChanges, hfile, Change.apply]
  | opened hlevel hgrade hfile hpath hopen =>
    rw [hchanges _ hlevel, hfile]
    simp [additions, hgrade, lastChanges, Value.holds, hpath, hopen, Change.apply]

/-- At most one sink for the console and at most one for a file. -/
def Uncrowded (sinks : List Sink) : Prop :=
  sinks.countP (·.isConsole) ≤ 1 ∧ sinks.countP (!·.isConsole) ≤ 1

theorem Uncrowded.sublist {few many : List Sink} (h : Uncrowded many) (hfew : few.Sublist many) :
    Uncrowded few :=
  ⟨hfew.countP_le.trans h.1, hfew.countP_le.trans h.2⟩

theorem uncrowded_pair (grade : Int) (place : Place) :
    Uncrowded [.console grade, .file grade place] := by
  simp [Uncrowded, Sink.isConsole]

theorem sinks_foldl {cs : List Change} (h : .remove ∉ cs) (j : Journal) :
    (cs.foldl Change.apply j).sinks = j.sinks ++ cs.filterMap Change.added? := by
  induction cs generalizing j with
  | nil => simp
  | cons c cs ih =>
    rw [List.foldl_cons, ih fun hmem => h (List.mem_cons_of_mem _ hmem)]
    cases c with
    | remove => exact absurd List.mem_cons_self h
    | add sink => simp [Change.apply, Change.added?]
    | regrade grade => simp [Change.apply, Change.added?, List.filterMap_cons]

theorem lastChanges_cases (grade : Int) (files : Files) (file : Value) :
    lastChanges grade files file = [] ∨ lastChanges grade files file = [.regrade grade] ∨
      ∃ place, lastChanges grade files file = [.add (.file grade place), .regrade grade] := by
  unfold lastChanges
  split
  · split
    · split
      · exact Or.inr (Or.inr ⟨_, rfl⟩)
      · exact Or.inl rfl
    · exact Or.inl rfl
  · exact Or.inr (Or.inl rfl)

theorem added_sublist (level file : Value) (files : Files) :
    .remove ∉ additions level file files ∧
      ∃ grade place, ((additions level file files).filterMap Change.added?).Sublist
        [.console grade, .file grade place] := by
  rw [additions]
  cases gradeNamed? level with
  | none => exact ⟨by simp, 0, [], by simp⟩
  | some grade =>
    rcases lastChanges_cases grade files file with h | h | ⟨place, h⟩
    · exact ⟨by simp [h], grade, [], by simp [h, Change.added?]⟩
    · exact ⟨by simp [h], grade, [], by simp [h, Change.added?, List.filterMap_cons]⟩
    · exact ⟨by simp [h], grade, place, by simp [h, Change.added?, List.filterMap_cons]⟩

/-- The journal in the middle of a set-up, after so many of its changes. -/
def midway (level file : Value) (files : Files) (j : Journal) (k : Nat) : Journal :=
  ((changes level file files j).take k).foldl Change.apply j

theorem uncrowded_midway (level file : Value) (files : Files) {j : Journal}
    (h : Uncrowded j.sinks) (k : Nat) : Uncrowded (midway level file files j k).sinks := by
  rw [midway]
  cases level with
  | text name =>
    obtain ⟨hremove, grade, place, hadded⟩ := added_sublist (.text name) file files
    rw [changes, List.take_append, List.length_replicate, List.foldl_append, List.take_replicate,
      foldl_remove, sinks_foldl fun hmem => hremove (List.mem_of_mem_take hmem)]
    by_cases hk : k ≤ j.sinks.length
    · -- no sink was added yet, so those that are left are some of the old ones
      rw [Nat.sub_eq_zero_of_le hk, List.take_zero, List.filterMap_nil, List.append_nil]
      exact h.sublist (List.drop_sublist _ _)
    · -- all old sinks are off, and those that are there are a beginning of the new ones
      rw [Nat.min_eq_right (by omega), List.drop_length, List.nil_append]
      exact (uncrowded_pair grade place).sublist
        (((List.take_sublist _ _).filterMap _).trans hadded)
  | _ => simpa [changes] using h

theorem midway_length (level file : Value) (files : Files) (j : Journal) :
    midway level file files j (changes level file files j).length =
      (setUp level file files j).journal := by
  rw [midway, List.take_length, setUp_journal]

def sinksFor (grade : Int) : Value → List Sink
  | .text path =>
    if path.isEmpty then [.console grade] else [.console grade, .file grade (placeOf path)]
  | _ => [.console grade]

theorem setUp_of_success {level file : Value} {files : Files} {j : Journal}
    (h : (setUp level file files j).failure = none) :
    ∃ grade, gradeNamed? level = some grade ∧ (setUp level file files j).journal.grade = grade ∧
      (setUp level file files j).journal.sinks = sinksFor grade file := by
  have hends := setUp_ends level file files j
  generalize setUp level file files j = result at hends h ⊢
  cases hends with
  | nameless hlevel => cases h
  | unknown hlevel hgrade => cases h
  | refused hlevel hgrade hfile => cases h
  | console hlevel hgrade hfile =>
    refine ⟨_, hgrade, rfl, ?_⟩
    cases file with
    | text path =>
      have hpath : path.isEmpty = true := by simpa [Value.holds] using hfile
      rw [sinksFor, if_pos hpath]
    | _ => rfl
  | opened hlevel hgrade hfile hpath hopen =>
    refine ⟨_, hgrade, rfl, ?_⟩
    rw [hfile, sinksFor, if_neg (by simp [hpath]), place_of_openFile hopen]

/-- A set-up on the files as it finds them. Between two set-ups they may change in any way. -/
structure Call where
  level : Value
  file : Value
  files : Files

def Call.outcome (c : Call) (j : Journal) : SetUp :=
  setUp c.level c.file c.files j

def Call.midway (c : Call) (j : Journal) (k : Nat) : Journal :=
  Journal.midway c.level c.file c.files j k

def afterCalls (calls : List Call) (j : Journal) : Journal :=
  calls.foldl (fun j c => (c.outcome j).journal) j

theorem uncrowded_afterCalls (calls : List Call) {j : Journal} (h : Uncrowded j.sinks) :
    Uncrowded (afterCalls calls j).sinks := by
  induction calls generalizing j with
  | nil => exact h
  | cons c calls ih =>
    have hcall : Uncrowded (c.outcome j).journal.sinks := by
      rw [Call.outcome, ← midway_length]
      exact uncrowded_midway c.level c.file c.files h _
    exact ih hcall

theorem setUps_never_crowd (start : Journal) (hstart : start.sinks = []) (earlier : List Call)
    (call : Call) :
    (∀ k, Uncrowded (call.midway (afterCalls earlier start) k).sinks) ∧
    (∃ last, call.midway (afterCalls earlier start) last = afterCalls (earlier ++ [call]) start) ∧
    ((call.outcome (afterCalls earlier start)).failure = none ↔
      NamesGrade call.level ∧ OpensFile call.files call.file) ∧
    ((call.outcome (afterCalls earlier start)).failure = none →
      ∃ grade, gradeNamed? call.level = some grade ∧
        (afterCalls (earlier ++ [call]) start).grade = grade ∧
        (afterCalls (earlier ++ [call]) start).sinks = sinksFor grade call.file) := by
  have hafter : afterCalls (earlier ++ [call]) start =
      (call.outcome (afterCalls earlier start)).journal := by
    rw [afterCalls, List.foldl_append]
    rfl
  have huncrowded : Uncrowded (afterCalls earlier start).sinks :=
    uncrowded_afterCalls earlier (by rw [hstart]; simp [Uncrowded])
  rw [hafter]
  refine ⟨fun k => uncrowded_midway _ _ _ huncrowded k, ⟨_, midway_length _ _ _ _⟩,
    (setUp_spec _ _ _ _).1, fun hsuccess => setUp_of_success hsuccess⟩

/-- A level that nobody knows, a file in a directory that is not there, and then neither. -/
theorem setUps_never_crowd_third_call :
    ∃ calls : List Call, calls.length = 2 ∧
      (afterCalls calls {}).sinks = [.console info] ∧
      (afterCalls (calls ++ [⟨.text "debug", .text "app.log", {}⟩]) {}).grade = debug ∧
      (afterCalls (calls ++ [⟨.text "debug", .text "app.log", {}⟩]) {}).sinks =
        [.console debug, .file debug ["app.log"]] := by
  let calls : List Call :=
    [⟨.text "loud", .text "app.log", {}⟩, ⟨.text "Info", .text "logs/app.log", {}⟩]
  obtain ⟨-, -, hreturns, hset⟩ := setUps_never_crowd {} rfl calls
    ⟨.text "debug", .text "app.log", {}⟩
  obtain ⟨grade, hgrade, hlevel, hsinks⟩ := hset (hreturns.mpr
    ⟨⟨"debug", rfl, by rfl⟩, fun _ => ⟨"app.log", _, rfl, rfl⟩⟩)
  obtain rfl : debug = grade := Option.some.inj (hgrade.symm.trans (by rfl)).symm
  exact ⟨calls, rfl, by decide, hlevel, hsinks.trans (by rfl)⟩

end Journal

end SwitchLexicon
