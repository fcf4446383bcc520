import SwitchLexicon.Proofs.Settings.Merge
import SwitchLexicon.Proofs.Toml.Proper

/-!
Tables laid over tables. What is found at a path of the merged table was said there by the second
table, or it was said by the first and the second leaves that path alone. Keys keep their order, so
merging what is merged already gives back the very same table.
-/
namespace SwitchLexicon

def Value.at? : List String → Value → Option Value
  | [], v => some v
  | name :: path, v => (v.get? name).bind (at? path)

theorem Value.at?_cons (es : Entries) (name : String) (path : List String) :
    (Value.map es).at? (name :: path) = (Entries.get? name es).bind (Value.at? path) := rfl

theorem Key.exists_text {k : Key} (h : k.isText = true) : ∃ name, k = .text name := by
  cases k with
  | text name => exact ⟨name, rfl⟩
  | _ => cases h

theorem Key.same_self {k : Key} (h : k.isText = true) : k.same k = true := by
  obtain ⟨name, rfl⟩ := Key.exists_text h
  simp [Key.same_text]

namespace Entries

open Settings (find?)

theorem insert_self {k : Key} {v : Value} {es : Entries} (h : find? k es = some v) :
    insert k v es = es := by
  induction es with
  | nil => cases h
  | cons e es ih =>
    obtain ⟨l, w⟩ := e
    rw [find?] at h
    rw [insert]
    split
    next hl =>
      rw [if_pos hl] at h
      rw [Option.some.inj h]
    next hl =>
      rw [if_neg hl] at h
      rw [ih h]

theorem find?_text_eq_none_iff {name : String} {es : Entries} :
    find? (.text name) es = none ↔ .text name ∉ es.map Prod.fst := by
  rw [Settings.find?_eq_none_iff, List.mem_map]
  simp only [Key.same_text, decide_eq_false_iff_not, not_exists, not_and]

theorem keys_insert {k : Key} {w : Value} {es : Entries} (h : find? k es = some w) (v : Value) :
    (insert k v es).map Prod.fst = es.map Prod.fst := by
  induction es with
  | nil => cases h
  | cons e es ih =>
    obtain ⟨l, x⟩ := e
    rw [find?] at h
    rw [insert]
    split
    · rfl
    next hl =>
      rw [if_neg hl] at h
      rw [List.map_cons, List.map_cons, ih h]

structure Named (es : Entries) : Prop where
  texts : ∀ e ∈ es, e.1.isText = true
  distinct : es.Distinct

namespace Named

variable {es : Entries}

theorem tail {e : Key × Value} (h : Named (e :: es)) : Named es :=
  ⟨fun f hf => h.texts f (List.mem_cons_of_mem _ hf), (List.pairwise_cons.mp h.distinct).2⟩

theorem find?_of_mem (h : es.Named) {e : Key × Value} (he : e ∈ es) :
    find? e.1 es = some e.2 := by
  induction es with
  | nil => cases he
  | cons f es ih =>
    rw [find?]
    rcases List.mem_cons.mp he with rfl | hes
    · rw [if_pos (Key.same_self (h.texts _ he))]
    · have hfe : f.1.same e.1 = false := (List.pairwise_cons.mp h.distinct).1 e hes
      rw [hfe, if_neg Bool.false_ne_true]
      exact ih h.tail hes

/-- The order of the keys and the value under each of them make the mapping. -/
theorem eq_of_find? {fs : Entries} (h : es.Named) (hkeys : es.map Prod.fst = fs.map Prod.fst)
    (hfind : ∀ e ∈ es, find? e.1 es = find? e.1 fs) : es = fs := by
  induction es generalizing fs with
  | nil => exact (List.map_eq_nil_iff.mp hkeys.symm).symm
  | cons e es ih =>
    cases fs with
    | nil => cases hkeys
    | cons f fs =>
      obtain ⟨k, v⟩ := e
      obtain ⟨l, w⟩ := f
      obtain ⟨rfl, hrest⟩ : k = l ∧ es.map Prod.fst = fs.map Prod.fst := by simpa using hkeys
      have hself : k.same k = true := Key.same_self (h.texts (k, v) List.mem_cons_self)
      have hvw : v = w := by
        have hk := hfind (k, v) List.mem_cons_self
        simpa [find?, hself] using hk
      rw [hvw, ih h.tail hrest fun e he => ?_]
      have hk := hfind e (List.mem_cons_of_mem _ he)
      have hke : k.same e.1 = false := (List.pairwise_cons.mp h.distinct).1 e he
      simpa [find?, hke] using hk

theorem insert (h : es.Named) {k : Key} (hk : k.isText = true) (v : Value) :
    (Entries.insert k v es).Named := by
  refine ⟨fun e he => ?_, h.distinct.insert k v⟩
  rcases mem_insert he with he | ⟨-, rfl | ⟨w, hw⟩⟩
  · exact h.texts e he
  · exact hk
  · exact h.texts (e.1, w) hw

theorem merge {os : Entries} (h : es.Named) (hos : os.Named) : (Settings.merge es os).Named := by
  induction os generalizing es with
  | nil => exact h
  | cons o os ih =>
    rw [Settings.merge]
    exact ih (h.insert (hos.texts o List.mem_cons_self) _) hos.tail

end Named

end Entries

namespace Settings

inductive IsTable : Entries → Prop
  | intro {es : Entries} (named : es.Named)
      (within : ∀ e ∈ es, ∀ fs, e.2 = .map fs → IsTable fs) : IsTable es

theorem IsTable.named {es : Entries} (h : IsTable es) : es.Named := by
  cases h with
  | intro named within => exact named

theorem IsTable.of_find? {es : Entries} (h : IsTable es) {k : Key} {fs : Entries}
    (hk : find? k es = some (.map fs)) : IsTable fs := by
  obtain ⟨l, hl⟩ := mem_of_find? hk
  cases h with
  | intro named within => exact within _ hl fs rfl

theorem IsTable.of_get? {es : Entries} (h : IsTable es) {name : String} {fs : Entries}
    (hname : Entries.get? name es = some (.map fs)) : IsTable fs :=
  h.of_find? ((find?_text name es).trans hname)

instance (es : Entries) : Decidable es.Distinct :=
  inferInstanceAs (Decidable (List.Pairwise _ es))

instance (es : Entries) : Decidable es.Named :=
  decidable_of_iff ((∀ e ∈ es, e.1.isText = true) ∧ es.Distinct)
    ⟨fun h => ⟨h.1, h.2⟩, fun h => ⟨h.texts, h.distinct⟩⟩

mutual

def hasTables : Value → Bool
  | .map es => decide (Entries.Named es) && allHaveTables es
  | _ => true

def allHaveTables : List (Key × Value) → Bool
  | [] => true
  | (_, v) :: es => hasTables v && allHaveTables es

end

mutual

theorem isTable_of_hasTables :
    (v : Value) → hasTables v = true → ∀ es, v = .map es → IsTable es
  | .map es, h, _, rfl => by
    rw [hasTables, Bool.and_eq_true, decide_eq_true_eq] at h
    exact .intro h.1 (isTable_of_allHaveTables es h.2)

theorem isTable_of_allHaveTables :
    (es : List (Key × Value)) → allHaveTables es = true →
      ∀ e ∈ es, ∀ fs, e.2 = .map fs → IsTable fs
  | [], _, _, he, _, _ => by cases he
  | (k, v) :: es, h, e, he, fs, hfs => by
    rw [allHaveTables, Bool.and_eq_true] at h
    rcases List.mem_cons.mp he with rfl | he
    · exact isTable_of_hasTables v h.1 fs hfs
    · exact isTable_of_allHaveTables es h.2 e he fs hfs

end

/-! ## What is found at a path -/

theorem get?_merge (name : String) {os : Entries} (h : os.Distinct) (base : Entries) :
    Entries.get? name (merge base os) =
      match Entries.get? name os with
      | some v => some (mergeValue (Entries.get? name base) v)
      | none => Entries.get? name base := by
  cases hname : Entries.get? name os <;>
    rw [← find?_text, find?_merge _ h, find?_text, find?_text, hname]

/-- The table binds no beginning of the path to a plain value, and not the whole path. -/
structure LeavesAlone (o : Entries) (path : List String) : Prop where
  unbound : (Value.map o).at? path = none
  passed : ∀ part, part ≠ [] → part <+: path → ∀ v, (Value.map o).at? part = some v →
    ∃ es, v = .map es

theorem not_leavesAlone_nil (o : Entries) : ¬LeavesAlone o [] := by
  intro halone
  cases halone.unbound

section

variable {o os : Entries} {name : String}

theorem leavesAlone_of_none (h : Entries.get? name o = none) (path : List String) :
    LeavesAlone o (name :: path) := by
  have hnone (rest : List String) : (Value.map o).at? (name :: rest) = none := by
    rw [Value.at?_cons, h]
    rfl
  refine ⟨hnone path, fun part hpart hprefix v hv => ?_⟩
  cases part with
  | nil => exact absurd rfl hpart
  | cons first rest =>
    obtain ⟨rfl, -⟩ := List.cons_prefix_cons.mp hprefix
    rw [hnone rest] at hv
    cases hv

theorem leavesAlone_iff_of_map (h : Entries.get? name o = some (.map os)) (path : List String) :
    LeavesAlone o (name :: path) ↔ LeavesAlone os path := by
  have hstep (rest : List String) : (Value.map o).at? (name :: rest) = (Value.map os).at? rest := by
    rw [Value.at?_cons, h]
    rfl
  constructor
  · intro halone
    refine ⟨(hstep path).symm.trans halone.unbound, fun part hpart hprefix v hv => ?_⟩
    exact halone.passed (name :: part) (by simp) (List.cons_prefix_cons.mpr ⟨rfl, hprefix⟩) v
      ((hstep part).trans hv)
  · intro halone
    refine ⟨(hstep path).trans halone.unbound, fun part hpart hprefix v hv => ?_⟩
    cases part with
    | nil => exact absurd rfl hpart
    | cons first rest =>
      obtain ⟨rfl, hrest⟩ := List.cons_prefix_cons.mp hprefix
      rw [hstep] at hv
      cases rest with
      | nil => exact ⟨os, (Option.some.inj hv).symm⟩
      | cons second rest => exact halone.passed _ (by simp) hrest v hv

theorem not_leavesAlone_of_plain {v : Value} (h : Entries.get? name o = some v)
    (hplain : ∀ es, v ≠ .map es) (path : List String) : ¬LeavesAlone o (name :: path) := by
  intro halone
  have hv : (Value.map o).at? [name] = some v := by
    rw [Value.at?_cons, h]
    rfl
  obtain ⟨es, hes⟩ := halone.passed [name] (by simp) (by simp) v hv
  exact hplain es hes

end

theorem at?_merge {o : Entries} (ho : IsTable o) (b : Entries) (path : List String) {v : Value}
    (hv : ∀ es, v ≠ .map es) :
    (Value.map (merge b o)).at? path = some v ↔
      (Value.map o).at? path = some v ∨
        ((Value.map b).at? path = some v ∧ LeavesAlone o path) := by
  induction path generalizing b o with
  | nil =>
    have hmap (es : Entries) : (Value.map es).at? [] ≠ some v :=
      fun h => hv es (Option.some.inj h).symm
    simp [hmap]
  | cons name path ih =>
    rw [Value.at?_cons, Value.at?_cons, Value.at?_cons, get?_merge name ho.named.distinct]
    cases hname : Entries.get? name o with
    | none => simp [leavesAlone_of_none hname path]
    | some w =>
      rw [Option.bind_some, Option.bind_some]
      by_cases hw : ∃ os, w = .map os
      · obtain ⟨os, rfl⟩ := hw
        rw [leavesAlone_iff_of_map hname]
        cases hb : Entries.get? name b with
        | none => simp [mergeValue]
        | some x =>
          cases x with
          | map bs => exact ih (ho.of_get? hname) bs
          | _ =>
            -- nothing lies below a plain value, and the second table has one for it
            refine (or_iff_left ?_).symm
            rintro ⟨hx, halone⟩
            cases path with
            | nil => exact not_leavesAlone_nil _ halone
            | cons second path => cases hx
      · have hplain : ∀ es, w ≠ .map es := fun es hes => hw ⟨es, hes⟩
        have hmerge : mergeValue (Entries.get? name b) w = w := by
          cases w <;> simp_all [mergeValue]
        rw [hmerge]
        refine (or_iff_left ?_).symm
        rintro ⟨-, halone⟩
        exact not_leavesAlone_of_plain hname hplain path halone

theorem exists_map_of_at? {v : Value} {path : List String} {fs : Entries}
    (h : v.at? path = some (.map fs)) : ∃ es, v = .map es := by
  cases path with
  | nil => exact ⟨fs, Option.some.inj h⟩
  | cons name path =>
    cases v with
    | map es => exact ⟨es, rfl⟩
    | _ => cases h

theorem at?_merge_of_maps {b o : Entries} (ho : IsTable o) {path : List String} {bs os : Entries}
    (hbs : (Value.map b).at? path = some (.map bs))
    (hos : (Value.map o).at? path = some (.map os)) :
    (Value.map (merge b o)).at? path = some (.map (merge bs os)) ∧ IsTable os := by
  induction path generalizing b o with
  | nil =>
    obtain rfl : b = bs := Value.map.inj (Option.some.inj hbs)
    obtain rfl : o = os := Value.map.inj (Option.some.inj hos)
    exact ⟨rfl, ho⟩
  | cons name path ih =>
    rw [Value.at?_cons] at hbs hos
    obtain ⟨x, hx, hxpath⟩ := Option.bind_eq_some_iff.mp hbs
    obtain ⟨w, hw, hwpath⟩ := Option.bind_eq_some_iff.mp hos
    obtain ⟨cs, rfl⟩ := exists_map_of_at? hxpath
    obtain ⟨ps, rfl⟩ := exists_map_of_at? hwpath
    have hmerged : Entries.get? name (merge b o) = some (.map (merge cs ps)) := by
      rw [get?_merge name ho.named.distinct, hw, hx]
      rfl
    rw [Value.at?_cons, hmerged]
    exact ih (ho.of_get? hw) hxpath hwpath

/-! ## The order of the keys, and merging again -/

theorem keys_merge {os : Entries} (h : os.Named) (base : Entries) :
    (merge base os).map Prod.fst =
      base.map Prod.fst ++ (os.map Prod.fst).filter (· ∉ base.map Prod.fst) := by
  induction os generalizing base with
  | nil => simp [merge]
  | cons o os ih =>
    obtain ⟨k, v⟩ := o
    obtain ⟨name, rfl⟩ := Key.exists_text (h.texts (k, v) List.mem_cons_self)
    rw [merge, ih h.tail, List.map_cons]
    cases hname : find? (.text name) base with
    | some w =>
      have hmem : .text name ∈ base.map Prod.fst := by
        refine Decidable.not_not.mp fun hnone => ?_
        rw [Entries.find?_text_eq_none_iff.mpr hnone] at hname
        cases hname
      rw [Entries.keys_insert hname, List.filter_cons_of_neg (by simpa using hmem)]
    | none =>
      have hnew := Entries.find?_text_eq_none_iff.mp hname
      have hothers : ∀ l ∈ os.map Prod.fst, l ≠ .text name := by
        intro l hl heq
        obtain ⟨e, he, rfl⟩ := List.mem_map.mp hl
        have hsame := (List.pairwise_cons.mp h.distinct).1 e he
        rw [heq, Key.same_text] at hsame
        simp at hsame
      rw [Entries.insert_of_new (find?_eq_none_iff.mp hname), List.map_append,
        List.filter_cons_of_pos (by simpa using hnew), List.append_assoc]
      -- the key is new, so that it stands there now changes nothing for the keys after it
      refine congrArg (base.map Prod.fst ++ .text name :: ·) (List.filter_congr fun l hl => ?_)
      simp [hothers l hl]

theorem merge_of_absorbed {x o : Entries}
    (h : ∀ e ∈ o, ∃ v, find? e.1 x = some v ∧ mergeValue (some v) e.2 = v) : merge x o = x := by
  induction o with
  | nil => rfl
  | cons e o ih =>
    obtain ⟨v, hv, hmerge⟩ := h e List.mem_cons_self
    rw [merge, hv, hmerge, Entries.insert_self hv]
    exact ih fun f hf => h f (List.mem_cons_of_mem _ hf)

theorem merge_self {o : Entries} (h : IsTable o) : merge o o = o := by
  induction h with
  | intro named within ih =>
    refine merge_of_absorbed fun e he => ⟨e.2, named.find?_of_mem he, ?_⟩
    obtain ⟨k, v⟩ := e
    cases v with
    | map fs => exact congrArg Value.map (ih _ he fs rfl)
    | _ => rfl

theorem mergeValue_self {v : Value} (h : ∀ fs, v = .map fs → IsTable fs) :
    mergeValue (some v) v = v := by
  cases v with
  | map fs => exact congrArg Value.map (merge_self (h fs rfl))
  | _ => rfl

theorem merge_merge_right {o : Entries} (ho : IsTable o) (b : Entries) :
    merge (merge b o) o = merge b o := by
  induction ho generalizing b with
  | @intro o named within ih =>
    refine merge_of_absorbed fun e he => ⟨mergeValue (find? e.1 b) e.2, ?_, ?_⟩
    · rw [find?_merge _ named.distinct, named.find?_of_mem he]
    · obtain ⟨k, v⟩ := e
      cases v with
      | map os =>
        have hself : mergeValue (some (.map os)) (.map os) = .map os :=
          mergeValue_self (within _ he)
        cases hk : find? k b with
        | none => exact hself
        | some x =>
          cases x with
          | map bs => exact congrArg Value.map (ih _ he os rfl bs)
          | _ => exact hself
      | _ => rfl

theorem merge_merge_left {b o : Entries} (hb : IsTable b) (ho : IsTable o) :
    merge b (merge b o) = merge b o := by
  induction hb generalizing o with
  | @intro b named within ih =>
    have hm : (merge b o).Named := named.merge ho.named
    refine (hm.eq_of_find? ?_ fun e he => ?_).symm
    · rw [keys_merge hm, keys_merge ho.named]
      simp [List.filter_append, List.filter_filter]
    · have hfind := hm.find?_of_mem he
      rw [find?_merge _ hm.distinct, hfind]
      rw [find?_merge _ ho.named.distinct] at hfind
      refine congrArg some (Eq.symm ?_)
      cases hk : find? e.1 b with
      | none => exact mergeValue_none e.2
      | some x =>
        obtain ⟨l, hl⟩ := mem_of_find? hk
        rw [hk] at hfind
        split at hfind
        next w hw =>
          rw [← Option.some.inj hfind]
          cases w with
          | map os =>
            cases x with
            | map bs => exact congrArg Value.map (ih _ hl bs rfl (ho.of_find? hw))
            | _ => rfl
          | _ => rfl
        next =>
          rw [← Option.some.inj hfind]
          exact mergeValue_self (within _ hl)

theorem merge_overlays {b o : Entries} (hb : IsTable b) (ho : IsTable o) :
    let m := merge b o
    (∀ path v, (∀ es, v ≠ .map es) →
      ((Value.map m).at? path = some v ↔
        (Value.map o).at? path = some v ∨
          ((Value.map b).at? path = some v ∧ LeavesAlone o path))) ∧
    merge m o = m ∧ merge b m = m ∧ merge b [] = b ∧
    ∀ path bs os, (Value.map b).at? path = some (.map bs) →
      (Value.map o).at? path = some (.map os) →
      ∃ ms, (Value.map m).at? path = some (.map ms) ∧
        ms.map Prod.fst = bs.map Prod.fst ++ (os.map Prod.fst).filter (· ∉ bs.map Prod.fst) := by
  intro m
  refine ⟨fun path v hv => at?_merge ho b path hv, merge_merge_right ho b, merge_merge_left hb ho,
    rfl, fun path bs os hbs hos => ?_⟩
  obtain ⟨hm, htable⟩ := at?_merge_of_maps ho hbs hos
  exact ⟨merge bs os, hm, keys_merge htable.named bs⟩

/-- Plain values and tables stand against each other in both ways. -/
def displayTable : Entries :=
  [(.text "display", .ofEntries [("limit", .int 5), ("notes", .ofEntries [("short", .bool true)])]),
    (.text "level", .text "WARNING")]

def ownTable : Entries :=
  [(.text "own", .null), (.text "level", .ofEntries [("file", .text "DEBUG")]),
    (.text "display", .ofEntries [("size", .int 1), ("notes", .int 3)])]

theorem merge_overlays_display :
    ∃ ms, (Value.map (merge displayTable ownTable)).at? ["display"] = some (.map ms) ∧
      ms.map Prod.fst = [.text "limit", .text "notes", .text "size"] ∧
      (Value.map (merge displayTable ownTable)).at? ["display", "notes"] = some (.int 3) ∧
      (Value.map (merge displayTable ownTable)).at? ["display", "limit"] = some (.int 5) ∧
      (Value.map (merge displayTable ownTable)).at? ["level"] ≠ some (.text "WARNING") ∧
      merge (merge displayTable ownTable) ownTable = merge displayTable ownTable ∧
      merge displayTable (merge displayTable ownTable) = merge displayTable ownTable := by
  have hdisplay : IsTable displayTable := isTable_of_hasTables (.map displayTable) (by decide) _ rfl
  have hown : IsTable ownTable := isTable_of_hasTables (.map ownTable) (by decide) _ rfl
  obtain ⟨hvalues, hagain, habsorbed, -, hkeys⟩ := merge_overlays hdisplay hown
  obtain ⟨ms, hms, horder⟩ := hkeys ["display"] _ _ rfl rfl
  have hlimit : LeavesAlone ownTable ["display", "limit"] :=
    (leavesAlone_iff_of_map rfl ["limit"]).mpr (leavesAlone_of_none rfl [])
  refine ⟨ms, hms, horder.trans (by decide), (hvalues _ (.int 3) (by simp)).mpr (Or.inl rfl),
    (hvalues _ (.int 5) (by simp)).mpr (Or.inr ⟨rfl, hlimit⟩), fun hlevel => ?_, hagain, habsorbed⟩
  rcases (hvalues _ _ (by simp)).mp hlevel with hown | ⟨-, halone⟩
  · cases hown
  · cases halone.unbound

end Settings

end SwitchLexicon
