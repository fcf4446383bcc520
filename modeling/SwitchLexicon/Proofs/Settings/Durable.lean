import SwitchLexicon.Proofs.Settings.Merge
import SwitchLexicon.Proofs.Settings.Update
import SwitchLexicon.Proofs.Text.Utf8
import SwitchLexicon.Proofs.Toml.Proper

/-!
An update that succeeds lasts. The settings loaded next are those it returned, it changes the fields
it names and nothing else, and so after any number of updates each place of the settings shows what
the last update that speaks of it said there.
-/
namespace SwitchLexicon

def Toml.ReadsBack (es : Entries) : Prop :=
  ∃ fs, Toml.read (Toml.write (.map es)).text = some fs ∧ (Value.map fs).Same (.map es)

namespace Settings

open Value (Step Face)

theorem find?_foldl_insert (k : Key) {us : Entries} (h : us.Distinct) (es : Entries) :
    find? k (us.foldl (fun es u => Entries.insert u.1 u.2 es) es) =
      (find? k us).or (find? k es) := by
  induction us generalizing es with
  | nil => rfl
  | cons u us ih =>
    obtain ⟨l, v⟩ := u
    rw [List.foldl_cons, ih (List.pairwise_cons.mp h).2, find?_insert, find?]
    cases hlk : l.same k with
    | true => rw [h.find?_tail hlk]; rfl
    | false => rfl

inductive Revised (old : Option Value) : Value → Value → Prop
  | replaced {v : Value} (plain : ∀ us, v ≠ .map us) : Revised old v v
  | changed {us es : Entries} (was : old.getD (.map []) = .map es) :
      Revised old (.map us) (.map (us.foldl (fun es u => Entries.insert u.1 u.2 es) es))

theorem revised_of_updateSection {config next : Entries} {name : Key} {u : Value}
    (h : updateSection config name u = .ok next) :
    ∃ v, Revised (find? name config) u v ∧ next = Entries.insert name v config := by
  cases u with
  | map us =>
    simp only [updateSection] at h
    split at h
    next es hes => exact ⟨_, .changed hes, (Except.ok.inj h).symm⟩
    next => cases h
  | _ => exact ⟨_, .replaced (by simp), (Except.ok.inj h).symm⟩

/-- Each section by itself, whatever the others are. -/
structure Revises (config updates r : Entries) : Prop where
  untouched : ∀ k, find? k updates = none → find? k r = find? k config
  revised : ∀ k u, find? k updates = some u → ∃ v, find? k r = some v ∧ Revised (find? k config) u v

theorem revises_of_updateSections {config updates r : Entries} (hupdates : updates.Distinct)
    (h : updateSections config updates = .ok r) : Revises config updates r := by
  induction updates generalizing config with
  | nil =>
    obtain rfl := Except.ok.inj h
    exact ⟨fun k _ => rfl, fun k u hu => by cases hu⟩
  | cons update updates ih =>
    obtain ⟨name, u⟩ := update
    rw [updateSections] at h
    cases hsection : updateSection config name u with
    | error e =>
      rw [hsection] at h
      cases h
    | ok middle =>
      rw [hsection] at h
      obtain ⟨v, hv, rfl⟩ := revised_of_updateSection hsection
      have hrest := ih (List.pairwise_cons.mp hupdates).2 h
      refine ⟨fun k hk => ?_, fun k w hw => ?_⟩
      · rw [find?] at hk
        split at hk
        next => cases hk
        next hname => rw [hrest.untouched k hk, find?_insert, if_neg hname]
      · rw [find?] at hw
        split at hw
        next hname =>
          obtain rfl := Option.some.inj hw
          refine ⟨v, ?_, find?_congr hname config ▸ hv⟩
          rw [hrest.untouched k (hupdates.find?_tail hname), find?_insert, if_pos hname]
        next hname =>
          have hrevised := hrest.revised k w hw
          rwa [find?_insert, if_neg hname] at hrevised

/-! ## What the update says -/

structure Follows (config updates r : Entries) : Prop where
  untouched : ∀ k, find? k updates = none → find? k r = find? k config
  replaced : ∀ k v, find? k updates = some v → (∀ us, v ≠ .map us) → find? k r = some v
  changed : ∀ k us, find? k updates = some (.map us) → ∃ es, find? k r = some (.map es) ∧
    ∀ j, find? j es = (find? j us).or ((find? k config).bind (Value.step? (.entry j)))

theorem Revises.follows {config updates r : Entries} (h : Revises config updates r)
    (hupdates : (Value.map updates).Proper) : Follows config updates r := by
  refine ⟨h.untouched, fun k v hk hplain => ?_, fun k us hk => ?_⟩
  · obtain ⟨w, hw, hrevised⟩ := h.revised k v hk
    cases hrevised with
    | replaced plain => exact hw
    | changed was => exact absurd rfl (hplain _)
  · obtain ⟨w, hw, hrevised⟩ := h.revised k _ hk
    cases hrevised with
    | replaced plain => exact absurd rfl (plain us)
    | @changed _ es was =>
      refine ⟨_, hw, fun j => ?_⟩
      rw [find?_foldl_insert j (hupdates.find? hk).distinct]
      congr 1
      cases hold : find? k config with
      | none =>
        rw [hold] at was
        cases was
        rfl
      | some old =>
        rw [hold] at was
        obtain rfl : old = .map es := was
        rfl

def saysAt (updates : Entries) : List Step → Option (Option Face)
  | .entry k :: path =>
    match find? k updates with
    | none => none
    | some (.map us) =>
      match path with
      | [] => some (some .mapping)
      | .entry j :: rest => (find? j us).map (Value.faceAt rest)
      | .item _ :: _ => some none
    | some v => some (v.faceAt path)
  | _ => none

theorem Follows.faceAt {config updates r : Entries} (h : Follows config updates r)
    (path : List Step) : (Value.map r).faceAt path =
      (saysAt updates path).getD ((Value.map config).faceAt path) := by
  match path with
  | [] => rfl
  | .item n :: path => rfl
  | .entry k :: path =>
    show (find? k r).bind (Value.faceAt path) = _
    rw [saysAt]
    split
    next hk => rw [h.untouched k hk]; rfl
    next us hk =>
      obtain ⟨es, hes, hfields⟩ := h.changed k us hk
      rw [hes]
      match path with
      | [] => rfl
      | .item n :: path => rfl
      | .entry j :: path =>
        show (find? j es).bind (Value.faceAt path) = _
        rw [hfields j]
        dsimp only
        cases hj : find? j us with
        | some v => rfl
        | none =>
          show ((find? k config).bind _).bind _ = (find? k config).bind _
          rw [Option.bind_assoc]
          rfl
    next v hplain hk => rw [h.replaced k v hk fun us hus => hplain us hus]; rfl

/-! ## What is loaded next -/

theorem sections_defaults {e : Key × Value} (he : e ∈ defaults) :
    ∃ bs : Entries, e.2 = .map bs ∧ bs.Distinct ∧ ∀ f ∈ bs, f.2.isPlain = true := by
  simp only [defaults, List.mem_cons, List.not_mem_nil, or_false] at he
  rcases he with rfl | rfl | rfl
  all_goals exact ⟨_, rfl, by unfold Entries.Distinct; decide, by decide⟩

theorem proper_defaults : (Value.map defaults).Proper := by
  refine .map (by unfold Entries.Distinct; decide) fun e he => ?_
  obtain ⟨bs, hbs, hdistinct, hplain⟩ := sections_defaults he
  exact hbs ▸ .map hdistinct fun f hf => .plain (hplain f hf)

theorem proper_of_ofBytes {bytes : List UInt8} {user : Entries} (h : ofBytes bytes = some user) :
    (Value.map user).Proper := by
  rw [ofBytes] at h
  split at h
  · exact Toml.proper_read h
  · cases h

theorem proper_of_ofFile {files : Files} {path : String} {user : Entries}
    (h : ofFile files path = some user) : (Value.map user).Proper := by
  rw [ofFile] at h
  split at h
  · exact proper_of_ofBytes h
  · cases h

theorem covers_of_loaded {files : Files} {path : String} {config : Entries}
    (h : loaded files path = .ok config) : Covers (.map defaults) (.map config) := by
  rw [loaded] at h
  split at h
  · split at h
    next user huser =>
      obtain rfl := Except.ok.inj h
      exact covers_mergeValue proper_defaults (proper_of_ofFile huser)
    next => cases h
  · obtain rfl := Except.ok.inj h
    exact .refl proper_defaults

theorem Revised.covers {old : Option Value} {u v : Value} (h : Revised old u v) (hu : u.Proper)
    {bs : Entries} (hplain : ∀ f ∈ bs, f.2.isPlain = true) {w : Value} (hold : old = some w)
    (hw : Covers (.map bs) w) : Covers (.map bs) v := by
  cases h with
  | replaced plain => exact .plain_value plain
  | @changed us es was =>
    obtain rfl : w = .map es := by rwa [hold] at was
    refine .map (fun j hj => ?_) fun j b x hb _ => .plain_base fun cs hcs => ?_
    · rw [find?_foldl_insert j hu.distinct, Option.isSome_or, hw.keys hj, Bool.or_true]
    · obtain ⟨l, hl⟩ := mem_of_find? hb
      simpa [hcs, Value.isPlain] using hplain _ hl

theorem Revises.covers {config updates r : Entries} (h : Revises config updates r)
    (hupdates : (Value.map updates).Proper) (hconfig : Covers (.map defaults) (.map config)) :
    Covers (.map defaults) (.map r) := by
  refine .map (fun k hk => ?_) fun k b v hb hv => ?_
  · cases hu : find? k updates with
    | none => exact h.untouched k hu ▸ hconfig.keys hk
    | some u =>
      obtain ⟨v, hv, -⟩ := h.revised k u hu
      exact Option.isSome_of_eq_some hv
  · obtain ⟨w, hw⟩ := Option.isSome_iff_exists.mp (hconfig.keys (Option.isSome_of_eq_some hb))
    have hcovers := hconfig.values hb hw
    cases hu : find? k updates with
    | none =>
      rw [h.untouched k hu, hw] at hv
      exact Option.some.inj hv ▸ hcovers
    | some u =>
      obtain ⟨x, hx, hrevised⟩ := h.revised k u hu
      obtain rfl : x = v := Option.some.inj (hx.symm.trans hv)
      obtain ⟨l, hl⟩ := mem_of_find? hb
      obtain ⟨bs, rfl, -, hplain⟩ := sections_defaults hl
      exact hrevised.covers (hupdates.find? hu) hplain hw hcovers

theorem loaded_of_bytes {files : Files} {path : String} {bytes : List UInt8}
    (h : files.read path = .ok bytes) :
    loaded files path =
      match ofBytes bytes with
      | some user => .ok (merge defaults user)
      | none => .error .settingsUnreadable := by
  obtain ⟨place, hplace, hnode⟩ := Files.read_eq_ok_iff.mp h
  have hstat := Files.stat_eq_ok_iff.mpr ⟨place, hplace, hnode⟩
  cases huser : ofBytes bytes with
  | none => simp only [loaded, Files.pathExists, hstat, ofFile, h, huser, if_true]
  | some user => simp only [loaded, Files.pathExists, hstat, ofFile, h, huser, if_true]

theorem loaded_of_read {files : Files} {path text : String} {user : Entries}
    (hread : files.read path = .ok (Text.encodeUtf8 text)) (huser : Toml.read text = some user) :
    loaded files path = .ok (merge defaults user) := by
  have htext := (Text.decodeUtf8_eq_ok_iff (Text.encodeUtf8 text) text).mpr rfl
  have hbytes : ofBytes (Text.encodeUtf8 text) = some user := by
    simp only [ofBytes, htext, huser]
  rw [loaded_of_bytes hread, hbytes]

section

variable {s : Surroundings} {files before after : Files} {config updates r : Entries}

theorem update_inversion (hload : (load s).run.run files = (.ok config, before))
    (h : (update s updates).run.run files = (.ok r, after)) :
    updateSections config updates = .ok r ∧ ∃ dir, IsReady s after dir ∧
      after.read (fileIn dir) = .ok (Text.encodeUtf8 (Toml.write (.map r)).text) := by
  cases hupdate : updateSections config updates with
  | error failure =>
    rw [run_update_error hload hupdate] at h
    cases h
  | ok next =>
    obtain ⟨dir, written, hready, hread, hrun⟩ := update_written hload hupdate
    rw [hrun] at h
    obtain ⟨hresult, rfl⟩ := Prod.mk.inj h
    split at hresult
    · obtain rfl := Except.ok.inj hresult
      exact ⟨rfl, dir, hready, hread⟩
    · cases hresult

/-- One update: what it returns, and that this is what is loaded next. -/
theorem update_step (hload : (load s).run.run files = (.ok config, before))
    (hupdates : (Value.map updates).Proper) (h : (update s updates).run.run files = (.ok r, after))
    (hr : Toml.ReadsBack r) :
    Follows config updates r ∧
      ∃ next, (load s).run.run after = (.ok next, after) ∧ (Value.map next).Same (.map r) := by
  obtain ⟨hsections, dir, hready, hread⟩ := update_inversion hload h
  have hrevises := revises_of_updateSections hupdates.distinct hsections
  refine ⟨hrevises.follows hupdates, ?_⟩
  obtain ⟨dir₀, -, hloaded⟩ := exists_isReady hload
  obtain ⟨user, huser, hsame⟩ := hr
  -- what was saved has every key of the defaults, so they add nothing when it is loaded
  have hcovers : Covers (.map defaults) (.map user) :=
    (hrevises.covers hupdates (covers_of_loaded hloaded)).congr fun path => (hsame path).symm
  have habsorbed : (Value.map (merge defaults user)).Same (.map user) :=
    same_mergeValue hcovers (Toml.proper_read huser)
  refine ⟨merge defaults user, ?_, fun path => (habsorbed path).trans (hsame path)⟩
  rw [hready.run_load, loaded_of_read hread huser]

end

/-- Updates made one after the other, each of which succeeded and was written as it is. -/
inductive UpdateRun (s : Surroundings) : Files → List Entries → Files → Prop
  | stop {files : Files} : UpdateRun s files [] files
  | next {files middle last : Files} {updates r : Entries} {history : List Entries}
      (proper : (Value.map updates).Proper)
      (done : (update s updates).run.run files = (.ok r, middle))
      (readsBack : Toml.ReadsBack r) (rest : UpdateRun s middle history last) :
      UpdateRun s files (updates :: history) last

/-- What a place shows after updates: the last one that speaks of it decides. -/
def shownAfter (path : List Step) (history : List Entries) (shown : Option Face) : Option Face :=
  history.foldl (fun shown updates => (saysAt updates path).getD shown) shown

theorem UpdateRun.shown {s : Surroundings} {files last : Files} {history : List Entries}
    (h : UpdateRun s files history last) {config : Entries} {before : Files}
    (hload : (load s).run.run files = (.ok config, before)) :
    ∃ final after, (load s).run.run last = (.ok final, after) ∧
      ∀ path, (Value.map final).faceAt path =
        shownAfter path history ((Value.map config).faceAt path) := by
  induction h generalizing config before with
  | stop => exact ⟨config, before, hload, fun path => rfl⟩
  | next proper done readsBack rest ih =>
    obtain ⟨hfollows, next, hnext, hsame⟩ := update_step hload proper done readsBack
    obtain ⟨final, after, hfinal, hshown⟩ := ih hnext
    refine ⟨final, after, hfinal, fun path => ?_⟩
    rw [hshown path, hsame path, hfollows.faceAt path]
    rfl

theorem exists_update (s : Surroundings) (files : Files) (updates : Entries)
    (h : ((update s updates).run.run files).1.toOption.any
      (fun r => Toml.read (Toml.write (.map r)).text = some r) = true) :
    ∃ r, (update s updates).run.run files = (.ok r, ((update s updates).run.run files).2) ∧
      Toml.ReadsBack r := by
  rcases hrun : (update s updates).run.run files with ⟨result, after⟩
  rw [hrun] at h
  cases result with
  | error e => cases h
  | ok r => exact ⟨r, rfl, r, of_decide_eq_true h, fun path => rfl⟩

theorem updates_durable {s : Surroundings} {files before : Files} {config : Entries}
    (hload : (load s).run.run files = (.ok config, before)) :
    (∀ updates r after, (Value.map updates).Proper →
      (update s updates).run.run files = (.ok r, after) → Toml.ReadsBack r →
      Follows config updates r ∧
        ∃ next, (load s).run.run after = (.ok next, after) ∧ (Value.map next).Same (.map r)) ∧
    ∀ history last, UpdateRun s files history last →
      ∃ final after, (load s).run.run last = (.ok final, after) ∧
        ∀ path, (Value.map final).faceAt path =
          shownAfter path history ((Value.map config).faceAt path) :=
  ⟨fun _ _ _ hupdates hupdate hr => update_step hload hupdates hupdate hr,
    fun _ _ hrun => hrun.shown hload⟩

def ownUpdate : Entries := [(.text "own", .ofEntries [("size", .int 20)])]

def numbersText : String := "general = 3\ndisplay = 1\n"

/-- The second update leaves the first, and both leave what the user wrote. -/
theorem updates_durable_twice :
    ∃ config before last final after,
      (load surroundings).run.run (filesWith numbersText) = (.ok config, before) ∧
      UpdateRun surroundings (filesWith numbersText) [ownUpdate, levelUpdate] last ∧
      (load surroundings).run.run last = (.ok final, after) ∧
      (Value.map final).faceAt [.entry (.text "display")] = some (.plain (.int 1)) ∧
      (Value.map final).faceAt [.entry (.text "logging"), .entry (.text "file")] =
        some (.plain (.text "")) ∧
      (Value.map final).faceAt [.entry (.text "own"), .entry (.text "size")] =
        some (.plain (.int 20)) ∧
      (Value.map final).faceAt [.entry (.text "logging"), .entry (.text "level")] =
        some (.plain (.text "DEBUG")) := by
  have hnumbers : ((load surroundings).run.run (filesWith numbersText)).1.toOption.any
      (fun config =>
        (Value.map config).faceAt [.entry (.text "display")] = some (.plain (.int 1)) ∧
        (Value.map config).faceAt [.entry (.text "logging"), .entry (.text "file")] =
          some (.plain (.text ""))) = true := by
    decide +kernel
  obtain ⟨r₁, hown, hr₁⟩ :=
    exists_update surroundings (filesWith numbersText) ownUpdate (by decide +kernel)
  obtain ⟨r₂, hlevel, hr₂⟩ := exists_update surroundings
    ((update surroundings ownUpdate).run.run (filesWith numbersText)).2 levelUpdate
    (by decide +kernel)
  generalize ((update surroundings ownUpdate).run.run (filesWith numbersText)).2 = middle at *
  generalize ((update surroundings levelUpdate).run.run middle).2 = last at *
  have hrun : UpdateRun surroundings (filesWith numbersText) [ownUpdate, levelUpdate] last :=
    .next (.singleton _ (.singleton _ (.plain rfl))) hown hr₁
      (.next (.singleton _ (.singleton _ (.plain rfl))) hlevel hr₂ .stop)
  rcases hload : (load surroundings).run.run (filesWith numbersText) with ⟨result, before⟩
  rw [hload] at hnumbers
  cases result with
  | error e => cases hnumbers
  | ok config =>
    obtain ⟨hdisplay, hfile⟩ := of_decide_eq_true hnumbers
    obtain ⟨final, after, hfinal, hshown⟩ := (updates_durable hload).2 _ last hrun
    refine ⟨config, before, last, final, after, rfl, hrun, hfinal, ?_, ?_, ?_, ?_⟩
    · rw [hshown, hdisplay]
      decide
    · rw [hshown, hfile]
      decide
    · rw [hshown]
      rfl
    · rw [hshown]
      rfl

end Settings

end SwitchLexicon
