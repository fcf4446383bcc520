import Mathlib.Data.List.Basic
import SwitchLexicon.Files.Basic

/-!
What a change of the store leaves as it was. A way to a place leads through directories only, so a
node that is put where no directory was is on no way to another place.
-/
namespace SwitchLexicon.Files

variable {files : Files} {place goal : Place} {path : String}

theorem isGiven_eq_false (h : files.node? place ≠ some .directory) : isGiven place = false := by
  rw [← Bool.not_eq_true]
  intro hgiven
  exact h (by rw [node?, if_pos hgiven])

theorem node?_put (h : files.node? place ≠ some .directory) (node : FileNode) (other : Place) :
    (files.put place node).node? other =
      if other = place then some node else files.node? other := by
  by_cases hother : other = place
  · rw [node?, hother, isGiven_eq_false h]
    simp [put]
  · have hfind : ((files.put place node).nodes.find? fun n => n.1 == other) =
        files.nodes.find? fun n => n.1 == other := by
      rw [put, List.find?_cons_of_neg (by simpa using Ne.symm hother), List.find?_filter]
      congr 1
      funext n
      by_cases hn : n.1 = other
      · simp [hn, hother]
      · simp [hn]
    rw [node?, node?, hfind, if_neg hother]

theorem walk_put (hplace : files.node? place ≠ some .directory) (node : FileNode) {here : Place}
    {names : List String} (h : files.walk here names = .ok goal) :
    (files.put place node).walk here names = .ok goal := by
  induction names generalizing here with
  | nil => exact h
  | cons name names ih =>
    rw [walk] at h ⊢
    cases hhere : files.node? here with
    | none => simp [hhere] at h
    | some n =>
      cases n with
      | file bytes => simp [hhere] at h
      | directory =>
        have hne : here ≠ place := by
          rintro rfl
          exact hplace hhere
        rw [node?_put hplace, if_neg hne, hhere]
        simp only [hhere] at h ⊢
        split_ifs at h ⊢
        · exact ih h
        · exact ih h
        · exact ih h

def startOf (path : String) : Place :=
  if path.toList.head? == some '/' then ["/"] else []

theorem locate_eq_ok_iff : files.locate path = .ok goal ↔
    pathError? path = none ∧ path.toList ≠ [] ∧
      files.walk (startOf path) (Path.namesBetween [] path.toList) = .ok goal := by
  rw [locate, startOf]
  generalize (if path.toList.head? == some '/' then ["/"] else []) = start
  cases pathError? path with
  | some e => simp
  | none =>
    cases hempty : path.toList.isEmpty with
    | true => simp [List.isEmpty_iff.mp hempty]
    | false =>
      have hne : path.toList ≠ [] := by simpa using hempty
      cases files.walk start (Path.namesBetween [] path.toList) <;> simp [hne]

theorem locate_put (hplace : files.node? place ≠ some .directory) (node : FileNode)
    (h : files.locate path = .ok goal) : (files.put place node).locate path = .ok goal := by
  obtain ⟨hpath, hne, hwalk⟩ := locate_eq_ok_iff.mp h
  exact locate_eq_ok_iff.mpr ⟨hpath, hne, walk_put hplace node hwalk⟩

theorem stat_eq_ok_iff {node : FileNode} :
    files.stat path = .ok node ↔ ∃ place, files.locate path = .ok place ∧
      files.node? place = some node := by
  rw [stat]
  cases files.locate path with
  | error e => simp
  | ok place => cases hnode : files.node? place <;> simp [hnode]

theorem isDirectory_iff : files.isDirectory path = true ↔ files.stat path = .ok .directory := by
  rw [isDirectory]
  split
  next h => simp [h]
  next h => simpa using h

theorem isDirectory_put (hplace : files.node? place ≠ some .directory) (node : FileNode)
    (h : files.isDirectory path = true) : (files.put place node).isDirectory path = true := by
  obtain ⟨goal, hgoal, hnode⟩ := stat_eq_ok_iff.mp (isDirectory_iff.mp h)
  have hne : goal ≠ place := by
    rintro rfl
    exact hplace hnode
  refine isDirectory_iff.mpr (stat_eq_ok_iff.mpr ⟨goal, locate_put hplace node hgoal, ?_⟩)
  rw [node?_put hplace, if_neg hne, hnode]

theorem stat_put (hplace : files.node? place ≠ some .directory) (node : FileNode)
    (h : files.locate path = .ok place) : (files.put place node).stat path = .ok node := by
  refine stat_eq_ok_iff.mpr ⟨place, locate_put hplace node h, ?_⟩
  rw [node?_put hplace, if_pos rfl]

/-! ## A new file -/

theorem read_eq_ok_iff {bytes : List UInt8} : files.read path = .ok bytes ↔
    ∃ place, files.locate path = .ok place ∧ files.node? place = some (.file bytes) := by
  rw [← stat_eq_ok_iff, read]
  cases files.stat path with
  | error e => simp
  | ok node => cases node <;> simp

theorem write_eq_ok_iff {bytes : List UInt8} {after : Files} :
    files.write path bytes = .ok after ↔ ∃ place, files.locate path = .ok place ∧
      files.node? place ≠ some .directory ∧ files.put place (.file bytes) = after := by
  rw [write, locateForWriting]
  cases files.locate path with
  | error e => simp
  | ok place =>
    cases hnode : files.node? place with
    | none => simp [hnode]
    | some node => cases node <;> simp [hnode]

theorem read_write {bytes : List UInt8} {after : Files} (h : files.write path bytes = .ok after) :
    after.read path = .ok bytes := by
  obtain ⟨place, hplace, hnode, rfl⟩ := write_eq_ok_iff.mp h
  rw [read, stat_put hnode _ hplace]

theorem isDirectory_write {bytes : List UInt8} {after : Files} {other : String}
    (h : files.write path bytes = .ok after) (hother : files.isDirectory other = true) :
    after.isDirectory other = true := by
  obtain ⟨place, -, hnode, rfl⟩ := write_eq_ok_iff.mp h
  exact isDirectory_put hnode _ hother

theorem isDirectory_makeDirectory {after : Files} (h : files.makeDirectory path = .ok after) :
    after.isDirectory path = true := by
  rw [makeDirectory] at h
  cases hplace : files.locate path with
  | error e => simp [hplace] at h
  | ok place =>
    cases hnode : files.node? place with
    | some node => simp [hplace, hnode] at h
    | none =>
      obtain rfl : files.put place .directory = after := by simpa [hplace, hnode] using h
      exact isDirectory_iff.mpr (stat_put (by simp [hnode]) _ hplace)

theorem makeDirectory_of_isDirectory (h : files.isDirectory path = true) :
    files.makeDirectory path = .error (.fault .alreadyExists path) := by
  obtain ⟨place, hplace, hnode⟩ := stat_eq_ok_iff.mp (isDirectory_iff.mp h)
  simp [makeDirectory, hplace, hnode]

theorem isDirectory_ensureDirectory {path : Path} {after : Files}
    (h : files.ensureDirectory path = .ok after) : after.isDirectory path.text = true := by
  rw [ensureDirectory] at h
  split at h
  next made hmade =>
    obtain rfl : made = after := by simpa using h
    exact isDirectory_makeDirectory hmade
  next =>
    split at h
    next hthere =>
      obtain rfl : files = after := by simpa using h
      exact hthere
    next => simp at h

theorem isDirectory_ensureDirectories {fuel : Nat} {path : Path} {after : Files}
    (h : ensureDirectories fuel files path = (after, none)) :
    after.isDirectory path.text = true := by
  rw [ensureDirectories.eq_def] at h
  dsimp only at h
  split at h
  next made hmade =>
    obtain rfl : made = after := by simpa using h
    exact isDirectory_makeDirectory hmade
  next e he =>
    split at h
    · split at h
      · simp at h
      · split at h
        · simp at h
        next made hparents =>
          split at h
          next all hall =>
            obtain rfl : all = after := by simpa using h
            exact isDirectory_ensureDirectory hall
          next => simp at h
    · split at h
      next hthere =>
        obtain rfl : files = after := by simpa using h
        exact hthere
      next => simp at h

theorem makeDirectories_of_isDirectory {path : Path} (h : files.isDirectory path.text = true) :
    files.makeDirectories path = (files, none) := by
  rw [makeDirectories, ensureDirectories.eq_def]
  simp [makeDirectory_of_isDirectory h, h]

end SwitchLexicon.Files
