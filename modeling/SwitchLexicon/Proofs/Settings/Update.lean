import SwitchLexicon.Proofs.Files.Join
import SwitchLexicon.Proofs.Toml.Complete
import SwitchLexicon.Settings.Store

/-!
Updates of the settings. An update that the sections do not allow leaves the file as it was. A value
without a TOML form is found only while the file is being written, and what would have come after it
is lost.
-/
namespace SwitchLexicon

namespace FileWork

theorem run_bind {α β : Type} (x : FileWork α) (f : α → FileWork β) (files : Files) :
    (x >>= f).run.run files =
      match x.run.run files with
      | (.ok a, after) => (f a).run.run after
      | (.error e, after) => (.error e, after) := by
  simp only [ExceptT.run_bind, StateT.run_bind]
  rcases StateT.run (ExceptT.run x) files with ⟨result, after⟩
  cases result <;> rfl

theorem run_get_bind {β : Type} (f : Files → FileWork β) (files : Files) :
    (get >>= f).run.run files = (f files).run.run files :=
  rfl

theorem run_set_bind {β : Type} (f : PUnit → FileWork β) (next files : Files) :
    (set next >>= f).run.run files = (f ⟨⟩).run.run next :=
  rfl

end FileWork

namespace Settings

variable {s : Surroundings} {files before : Files} {dir : Path} {config : Entries}

theorem run_directory (s : Surroundings) (files : Files) :
    (directory s).run.run files =
      match expand s (s.settingsDirectory.getD usualDirectory) with
      | .error e => (.error e, files)
      | .ok dir =>
        match files.makeDirectories dir with
        | (after, none) => (.ok dir, after)
        | (after, some e) => (.error (.file e), after) := by
  rw [directory, FileWork.run_bind]
  cases expand s (s.settingsDirectory.getD usualDirectory) with
  | error e => rfl
  | ok dir =>
    refine (FileWork.run_get_bind _ files).trans ?_
    dsimp only
    rcases files.makeDirectories dir with ⟨after, fault⟩
    cases fault <;> rfl

structure IsReady (s : Surroundings) (files : Files) (dir : Path) : Prop where
  named : expand s (s.settingsDirectory.getD usualDirectory) = .ok dir
  there : files.isDirectory dir.text = true

theorem isReady_of_directory {after : Files} (h : (directory s).run.run files = (.ok dir, after)) :
    IsReady s after dir := by
  rw [run_directory] at h
  split at h
  · cases h
  next path hpath =>
    split at h
    next made hmade =>
      cases h
      exact ⟨hpath, Files.isDirectory_ensureDirectories hmade⟩
    next => cases h

theorem IsReady.run_directory (h : IsReady s files dir) :
    (directory s).run.run files = (.ok dir, files) := by
  rw [Settings.run_directory, h.named]
  simp only [Files.makeDirectories_of_isDirectory h.there]

theorem IsReady.isRead (h : IsReady s files dir) : dir.IsRead := by
  have hnamed := h.named
  rw [expand] at hnamed
  split at hnamed
  next path hpath =>
    obtain rfl : path = dir := by simpa using hnamed
    exact (Path.isRead_ofText _).expandHome hpath
  next => simp at hnamed

abbrev fileIn (dir : Path) : String :=
  (dir.join "config.toml").text

def loaded (files : Files) (path : String) : Except Failure Entries :=
  if files.pathExists path then
    match ofFile files path with
    | some user => .ok (merge defaults user)
    | none => .error .settingsUnreadable
  else .ok defaults

theorem run_load (s : Surroundings) (files : Files) :
    (load s).run.run files =
      match (directory s).run.run files with
      | (.ok dir, after) => (loaded after (fileIn dir), after)
      | (.error e, after) => (.error e, after) := by
  rw [load, FileWork.run_bind, filePath, FileWork.run_bind]
  rcases (directory s).run.run files with ⟨result, after⟩
  cases result with
  | error e => rfl
  | ok dir =>
    refine (FileWork.run_get_bind _ after).trans ?_
    dsimp only [loaded, fileIn]
    by_cases hexists : after.pathExists (dir.join "config.toml").text = true
    · rw [if_pos hexists, if_pos hexists]
      cases ofFile after (dir.join "config.toml").text <;> rfl
    · rw [if_neg hexists, if_neg hexists]
      rfl

theorem IsReady.run_load (h : IsReady s files dir) :
    (load s).run.run files = (loaded files (fileIn dir), files) := by
  rw [Settings.run_load, h.run_directory]

theorem exists_isReady (h : (load s).run.run files = (.ok config, before)) :
    ∃ dir, IsReady s before dir ∧ loaded before (fileIn dir) = .ok config := by
  rw [Settings.run_load] at h
  split at h
  next dir after hdirectory =>
    obtain ⟨hloaded, rfl⟩ := Prod.mk.inj h
    exact ⟨dir, isReady_of_directory hdirectory, hloaded⟩
  next => cases h

theorem IsReady.run_save (h : IsReady s files dir) (v : Value) :
    (save s v).run.run files =
      match files.write (fileIn dir) (Text.encodeUtf8 (Toml.write v).text) with
      | .error _ => (.error .settingsUnwritable, files)
      | .ok after =>
        (if (Toml.write v).complete then .ok () else .error .settingsUnwritable, after) := by
  rw [save, FileWork.run_bind, filePath, FileWork.run_bind, h.run_directory]
  refine (FileWork.run_get_bind _ files).trans ?_
  rw [fileIn]
  cases files.write (dir.join "config.toml").text (Text.encodeUtf8 (Toml.write v).text) with
  | error e => rfl
  | ok after =>
    refine (FileWork.run_set_bind _ after files).trans ?_
    cases (Toml.write v).complete <;> rfl

theorem isFileName_config : IsFileName "config.toml" :=
  ⟨by decide, by decide, by decide, List.all_eq_true.mp (by decide)⟩

/-- Settings that were read stand in a file or nowhere, so the file can be opened for writing. -/
theorem IsReady.exists_write (h : IsReady s files dir)
    (hloaded : loaded files (fileIn dir) = .ok config) (bytes : List UInt8) :
    ∃ after, files.write (fileIn dir) bytes = .ok after := by
  obtain ⟨place, hplace⟩ := Files.locate_join h.isRead isFileName_config h.there
  refine ⟨_, Files.write_eq_ok_iff.mpr ⟨place, hplace, fun hnode => ?_, rfl⟩⟩
  have hstat : files.stat (fileIn dir) = .ok .directory :=
    Files.stat_eq_ok_iff.mpr ⟨place, hplace, hnode⟩
  simp [loaded, Files.pathExists, ofFile, Files.read, hstat] at hloaded

theorem run_update_error (h : (load s).run.run files = (.ok config, before)) {updates : Entries}
    {failure : Failure} (hupdate : updateSections config updates = .error failure) :
    (update s updates).run.run files = (.error failure, before) := by
  rw [update, FileWork.run_bind, h]
  simp only [hupdate]
  rfl

theorem run_update_ok (h : (load s).run.run files = (.ok config, before)) {updates next : Entries}
    (hupdate : updateSections config updates = .ok next) :
    (update s updates).run.run files =
      match (save s (.map next)).run.run before with
      | (.ok _, after) => (.ok next, after)
      | (.error e, after) => (.error e, after) := by
  rw [update, FileWork.run_bind, h]
  simp only [hupdate]
  refine (FileWork.run_bind (save s (.map next)) _ before).trans ?_
  rcases (save s (.map next)).run.run before with ⟨result, after⟩
  cases result <;> rfl

/-- The file holds the updated settings, or as much of them as could be written. -/
theorem update_written (h : (load s).run.run files = (.ok config, before)) {updates next : Entries}
    (hupdate : updateSections config updates = .ok next) :
    ∃ dir after, IsReady s after dir ∧
      after.read (fileIn dir) = .ok (Text.encodeUtf8 (Toml.write (.map next)).text) ∧
      (update s updates).run.run files =
        (if Toml.hasForm (.map next) then .ok next else .error .settingsUnwritable, after) := by
  obtain ⟨dir, hready, hloaded⟩ := exists_isReady h
  obtain ⟨after, hwrite⟩ :=
    hready.exists_write hloaded (Text.encodeUtf8 (Toml.write (.map next)).text)
  refine ⟨dir, after, ⟨hready.named, Files.isDirectory_write hwrite hready.there⟩,
    Files.read_write hwrite, ?_⟩
  rw [run_update_ok h hupdate, hready.run_save, hwrite, ← Toml.complete_write]
  cases (Toml.write (.map next)).complete <;> rfl

theorem failed_update (hload : (load s).run.run files = (.ok config, before)) (updates : Entries) :
    (∀ failure after, (update s updates).run.run files = (.error failure, after) →
      (∀ next, updateSections config updates = .ok next → Toml.hasForm (.map next) = true) →
      (load s).run.run after = (.ok config, after)) ∧
    ∀ next, updateSections config updates = .ok next →
      ∃ dir after, IsReady s after dir ∧
        after.read (fileIn dir) = .ok (Text.encodeUtf8 (Toml.write (.map next)).text) ∧
        (update s updates).run.run files =
          (if Toml.hasForm (.map next) then .ok next else .error .settingsUnwritable, after) := by
  refine ⟨fun failure after hfailed hform => ?_, fun next hupdate => update_written hload hupdate⟩
  cases hupdate : updateSections config updates with
  | error fault =>
    rw [run_update_error hload hupdate] at hfailed
    obtain ⟨-, rfl⟩ := Prod.mk.inj hfailed
    obtain ⟨dir, hready, hloaded⟩ := exists_isReady hload
    rw [hready.run_load, hloaded]
  | ok next =>
    obtain ⟨dir, written, -, -, hrun⟩ := update_written hload hupdate
    rw [hrun, hform next hupdate] at hfailed
    cases hfailed

def filesWith (text : String) : Files :=
  { nodes := [(["cfg"], .directory), (["cfg", "config.toml"], .file (Text.encodeUtf8 text))] }

def surroundings : Surroundings := { settingsDirectory := some "cfg", home := "home" }

def levelUpdate : Entries := [(.text "logging", .ofEntries [("level", .text "DEBUG")])]

/-- A section that is a number takes no entries, and stays what it is. -/
theorem failed_update_number :
    ∃ config failure after,
      ((load surroundings).run.run (filesWith "logging = 3\n")).1 = .ok config ∧
      (update surroundings levelUpdate).run.run (filesWith "logging = 3\n") =
        (.error failure, after) ∧
      (load surroundings).run.run after = (.ok config, after) := by
  have hrefused : ((load surroundings).run.run (filesWith "logging = 3\n")).1.toOption.any
      (fun config => (updateSections config levelUpdate).toOption.isNone) = true := by
    decide +kernel
  rcases hload : (load surroundings).run.run (filesWith "logging = 3\n") with ⟨result, before⟩
  rw [hload] at hrefused
  cases result with
  | error e => cases hrefused
  | ok config =>
    cases hupdate : updateSections config levelUpdate with
    | ok next => simp [Except.toOption, hupdate] at hrefused
    | error failure =>
      have hfailed := run_update_error hload hupdate
      refine ⟨config, failure, before, rfl, hfailed, ?_⟩
      refine (failed_update hload levelUpdate).1 failure before hfailed fun next hnext => ?_
      cases hupdate.symm.trans hnext

def textAt (name field : String) (config : Except Failure Entries) : Option String :=
  match config with
  | .ok es => ((Entries.get? name es).bind (Value.get? field)).bind Value.text?
  | .error _ => none

def nullUpdate : Entries := [(.text "display", .ofEntries [("max_suggestions", .null)])]

theorem null_loses_level :
    let files := filesWith "[logging]\nlevel = \"DEBUG\"\n"
    let outcome := (update surroundings nullUpdate).run.run files
    textAt "logging" "level" ((load surroundings).run.run files).1 = some "DEBUG" ∧
      outcome.1.toOption.isNone = true ∧
      textAt "logging" "level" ((load surroundings).run.run outcome.2).1 = some "WARNING" := by
  decide +kernel

end Settings

end SwitchLexicon
