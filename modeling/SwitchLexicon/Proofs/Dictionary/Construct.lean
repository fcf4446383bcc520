import SwitchLexicon.Dictionary.Load
import SwitchLexicon.Proofs.Dictionary.Built

/-!
Builds that run into a bound. An entry that is told of may hold what cannot be shown, levels may be
nested too deep, and the tree may have a way of too many words. A build without any of these comes
to the tree, the skipped entries and the journal of its readings; with one of them it comes to
nothing.
-/
namespace SwitchLexicon

/-! ## What cannot be shown -/

/-- The bounds that keep a value from being shown, `room` calls being left. -/
inductive Value.Unshowable : Nat → Value → Limit → Prop
  | noRoom (v : Value) : Unshowable 0 v .nesting
  | number {room : Nat} {n : Int} (long : numberLimit ≤ n.natAbs) :
      Unshowable (room + 1) (.int n) .digits
  | item {room : Nat} {vs : List Value} {v : Value} {l : Limit} (mem : v ∈ vs)
      (inside : Unshowable room v l) : Unshowable (room + 1) (.list vs) l
  | key {room : Nat} {es : Entries} {e : Key × Value} {l : Limit} (mem : e ∈ es)
      (inside : Unshowable room e.1.toValue l) : Unshowable (room + 1) (.map es) l
  | entry {room : Nat} {es : Entries} {e : Key × Value} {l : Limit} (mem : e ∈ es)
      (inside : Unshowable room e.2 l) : Unshowable (room + 1) (.map es) l

theorem Key.showLimit?_toValue (room : Nat) (k : Key) :
    k.toValue.showLimit? room = k.showLimit? room := by
  cases room with
  | zero => rw [Value.showLimit?, Key.showLimit?]
  | succ room => cases k <;> rfl

namespace Value

theorem itemsLimit?_eq (room : Nat) (vs : List Value) :
    itemsLimit? room vs = vs.findSome? (showLimit? room) := by
  induction vs with
  | nil => rfl
  | cons v vs ih =>
    rw [itemsLimit?, ih, List.findSome?_cons]
    cases showLimit? room v <;> rfl

theorem entriesLimit?_eq (room : Nat) (es : Entries) : entriesLimit? room es =
    es.findSome? fun e => (e.1.toValue.showLimit? room).or (e.2.showLimit? room) := by
  induction es with
  | nil => rfl
  | cons e es ih =>
    rw [entriesLimit?, ih, List.findSome?_cons, Key.showLimit?_toValue]
    cases (e.1.showLimit? room).or (e.2.showLimit? room) <;> rfl

theorem unshowable_of_showLimit? {room : Nat} {v : Value} {l : Limit}
    (h : v.showLimit? room = some l) : v.Unshowable room l := by
  induction room generalizing v with
  | zero =>
    rw [showLimit?] at h
    obtain rfl := Option.some.inj h
    exact .noRoom v
  | succ room ih =>
    cases v with
    | int n =>
      simp only [showLimit?, Option.ite_none_right_eq_some] at h
      obtain ⟨hlong, hl⟩ := h
      obtain rfl := Option.some.inj hl
      exact .number hlong
    | list vs =>
      rw [showLimit?, itemsLimit?_eq] at h
      obtain ⟨v, hv, hl⟩ := List.exists_of_findSome?_eq_some h
      exact .item hv (ih hl)
    | map es =>
      rw [showLimit?, entriesLimit?_eq] at h
      obtain ⟨e, he, hl⟩ := List.exists_of_findSome?_eq_some h
      obtain hl | ⟨-, hl⟩ := Option.or_eq_some_iff.mp hl
      · exact .key he (ih hl)
      · exact .entry he (ih hl)
    | _ => cases h

theorem Unshowable.isSome_showLimit? {room : Nat} {v : Value} {l : Limit}
    (h : v.Unshowable room l) : (v.showLimit? room).isSome = true := by
  induction h with
  | noRoom v => rw [showLimit?, Option.isSome_some]
  | number long => simp only [showLimit?, if_pos long, Option.isSome_some]
  | item mem inside ih =>
    rw [showLimit?, itemsLimit?_eq, List.findSome?_isSome_iff]
    exact ⟨_, mem, ih⟩
  | key mem inside ih =>
    rw [showLimit?, entriesLimit?_eq, List.findSome?_isSome_iff]
    exact ⟨_, mem, by rw [Option.isSome_or, ih, Bool.true_or]⟩
  | entry mem inside ih =>
    rw [showLimit?, entriesLimit?_eq, List.findSome?_isSome_iff]
    exact ⟨_, mem, by rw [Option.isSome_or, ih, Bool.or_true]⟩

structure Untellable (levels : Nat) (v : Value) (l : Limit) : Prop where
  notText : v.text? = none
  shown : v.Unshowable (Stack.room - levelCalls * levels) l

theorem untellable_of_tellLimit? {levels : Nat} {v : Value} {l : Limit}
    (h : v.tellLimit? levels = some l) : v.Untellable levels l := by
  cases v with
  | text s => cases h
  | _ => exact ⟨rfl, unshowable_of_showLimit? h⟩

theorem Untellable.isSome_tellLimit? {levels : Nat} {v : Value} {l : Limit}
    (h : v.Untellable levels l) : (v.tellLimit? levels).isSome = true := by
  cases v with
  | text s => cases h.notText
  | _ => exact h.shown.isSome_showLimit?

end Value

/-! ## The bounds that a dictionary meets -/

/-- The bounds that a nested level meets which lies `levels` deep. -/
inductive LevelMeets : Nat → Entries → Limit → Prop
  | key {levels : Nat} {es : Entries} {e : Key × Value} {l : Limit} (mem : e ∈ es)
      (name : e.1.toValue.Untellable levels l) : LevelMeets levels es l
  | option {levels : Nat} {es : Entries} {options : List Value} {v : Value} {l : Limit}
      (mem : (.text optionsKey, .list options) ∈ es) (listed : v ∈ options)
      (option : v.Untellable levels l) : LevelMeets levels es l
  | tooDeep {levels : Nat} {es inner : Entries} {k : Key} {ws : List String}
      (mem : (k, .map inner) ∈ es) (words : k.role = .words ws)
      (deep : Stack.levels levelCalls ≤ levels) : LevelMeets levels es .calls
  | inside {levels : Nat} {es inner : Entries} {k : Key} {ws : List String} {l : Limit}
      (mem : (k, .map inner) ∈ es) (words : k.role = .words ws)
      (meets : LevelMeets (levels + 1) inner l) : LevelMeets levels es l

theorem LevelMeets.mono {levels : Nat} {es fs : Entries} {l : Limit} (h : LevelMeets levels es l)
    (hsub : es ⊆ fs) : LevelMeets levels fs l := by
  cases h with
  | key mem name => exact .key (hsub mem) name
  | option mem listed option => exact .option (hsub mem) listed option
  | tooDeep mem words deep => exact .tooDeep (hsub mem) words deep
  | inside mem words meets => exact .inside (hsub mem) words meets

def Source.ofDictionary : Shape → Value → List Source
  | .flat, .map es => ofEntries es
  | .records, .list rs => ofRecords rs
  | _, _ => []

inductive Meets (raw : Value) (shape : Option Shape) : Limit → Prop
  | name {s : Shape} {source : Source} {l : Limit} (chosen : Shape.chosen raw shape = .ok s)
      (mem : source ∈ Source.ofDictionary s raw) (name : source.command.Untellable 0 l) :
      Meets raw shape l
  | level {es : Entries} {l : Limit} (chosen : Shape.chosen raw shape = .ok .nested)
      (map : raw = .map es) (level : LevelMeets 0 es l) : Meets raw shape l
  | tree {b : Build} (built : build raw shape = .ok b)
      (deep : Stack.levels levelCalls < b.tree.depth) : Meets raw shape .calls

namespace Telling

theorem reading_unbounded (rs : List Reading) : (unbounded rs).map reading = rs := by
  simp [unbounded, Function.comp_def]

theorem limit_of_mem_unbounded {rs : List Reading} {t : Telling} (h : t ∈ unbounded rs) :
    t.limit = none := by
  obtain ⟨r, -, rfl⟩ := List.mem_map.mp h
  rfl

theorem ofEntry_role (levels : Nat) (path : List String) (k : Key) (v : Value) :
    ofEntry levels path k v =
      match k.role, v with
      | .options, v => ofOptions levels path v
      | .words ws, .map es =>
        ⟨.opened (path ++ ws), openLimit? levels⟩ :: ofLevel (levels + 1) (path ++ ws) es
      | _, v =>
        (Reading.ofEntry path k v).map fun r => ⟨r, k.toValue.tellLimit? levels⟩ := by
  cases k with
  | text key =>
    rw [ofEntry.eq_def, Key.role]
    dsimp only
    by_cases hoptions : key = optionsKey
    · simp only [if_pos hoptions]
    · simp only [if_neg hoptions]
      by_cases hdescription : key = descriptionKey
      · subst hdescription
        rfl
      · simp only [if_neg hdescription]
        split
        · rfl
        · cases v <;> rfl
  | _ =>
    rw [ofEntry.eq_def]
    simp only [Reading.ofEntry, Key.role, List.map_cons, List.map_nil]

theorem reading_ofOptions (levels : Nat) (path : List String) (v : Value) :
    (ofOptions levels path v).map reading = Reading.ofOptions path v := by
  cases v with
  | list options => simp [ofOptions, Reading.ofOptions, Function.comp_def]
  | _ => exact reading_unbounded _

theorem reading_ofLevel (levels : Nat) (path : List String) (es : Entries) :
    (ofLevel levels path es).map reading = Reading.ofLevel path es := by
  induction es using Entries.levelInduction generalizing levels path with
  | nil => rfl
  | cons k v rest ihv ihrest =>
    rw [ofLevel, Reading.ofLevel, List.map_append, ihrest, ofEntry_role]
    refine congrArg (· ++ _) ?_
    have hrole := Reading.ofEntry_role path k v
    cases hk : k.role with
    | options =>
      simp only [hk] at hrole
      rw [hrole]
      exact reading_ofOptions levels path v
    | words ws =>
      simp only [hk] at hrole
      cases v with
      | map es =>
        rw [hrole, List.map_cons, ihv es rfl]
      | _ => simp [Function.comp_def]
    | _ => simp [Function.comp_def]

theorem reading_ofRecords (position : Nat) (rs : List Value) :
    (ofRecords position rs).map reading = Reading.ofRecords position rs := by
  induction rs generalizing position with
  | nil => rfl
  | cons r rs ih =>
    rw [ofRecords, List.map_cons, ih, Reading.ofRecords]
    cases r <;> rfl

theorem reading_ofDictionary (shape : Shape) (raw : Value) :
    (ofDictionary shape raw).map (List.map reading) = Reading.ofDictionary shape raw := by
  cases shape with
  | flat =>
    cases raw with
    | map es => exact congrArg Except.ok (by simp [ofFlat, Reading.ofFlat, ofCommand])
    | _ => rfl
  | records =>
    cases raw with
    | list rs => exact congrArg Except.ok (reading_ofRecords 0 rs)
    | _ => rfl
  | nested =>
    cases raw with
    | map es => exact congrArg Except.ok (reading_ofLevel 0 [] es)
    | _ => rfl

/-! ## Tellings that meet a bound -/

theorem ofLevel_eq_flatMap (levels : Nat) (path : List String) (es : Entries) :
    ofLevel levels path es = es.flatMap fun e => ofEntry levels path e.1 e.2 := by
  induction es with
  | nil => rfl
  | cons e es ih => rw [ofLevel, ih, List.flatMap_cons]

theorem levelMeets_of_limit {levels : Nat} {path : List String} {es : Entries} {t : Telling}
    {l : Limit} (ht : t ∈ ofLevel levels path es) (hl : t.limit = some l) :
    LevelMeets levels es l := by
  induction es using Entries.levelInduction generalizing levels path with
  | nil => cases ht
  | cons k v rest ihv ihrest =>
    have hname {rs : List Reading}
        (h : t ∈ rs.map fun r => Telling.mk r (k.toValue.tellLimit? levels)) :
        LevelMeets levels ((k, v) :: rest) l := by
      obtain ⟨r, -, rfl⟩ := List.mem_map.mp h
      exact .key (.head _) (Value.untellable_of_tellLimit? hl)
    rw [ofLevel, List.mem_append, ofEntry_role] at ht
    rcases ht with ht | ht
    · cases hk : k.role with
      | options =>
        simp only [hk] at ht
        cases v with
        | list options =>
          obtain ⟨v, hv, rfl⟩ := List.mem_map.mp ht
          have hkey : k = .text optionsKey := Key.eq_of_role_options hk
          exact .option (hkey ▸ .head _) hv (Value.untellable_of_tellLimit? hl)
        | _ => cases (limit_of_mem_unbounded ht).symm.trans hl
      | words ws =>
        simp only [hk] at ht
        cases v with
        | map es =>
          rcases List.mem_cons.mp ht with rfl | ht
          · simp only [openLimit?, Option.ite_none_right_eq_some, Option.some.injEq] at hl
            exact hl.2 ▸ .tooDeep (.head _) hk hl.1
          · exact .inside (.head _) hk (ihv es rfl ht)
        | _ => exact hname ht
      | _ =>
        simp only [hk] at ht
        exact hname ht
    · exact (ihrest ht).mono (List.subset_cons_self _ _)

theorem exists_limit_of_levelMeets {levels : Nat} {es : Entries} {l : Limit}
    (h : LevelMeets levels es l) (path : List String) :
    ∃ t ∈ ofLevel levels path es, t.limit.isSome = true := by
  simp only [ofLevel_eq_flatMap, List.mem_flatMap]
  induction h generalizing path with
  | @key levels es e l mem name =>
    obtain ⟨k, v⟩ := e
    have hsome := name.isSome_tellLimit?
    cases k with
    | text key => cases name.notText
    | _ => exact ⟨_, ⟨_, mem, by rw [ofEntry.eq_def]; exact List.mem_singleton_self _⟩, hsome⟩
  | @option levels es options v l mem listed option =>
    refine ⟨⟨.ofOption path v, v.tellLimit? levels⟩, ⟨_, mem, ?_⟩, option.isSome_tellLimit?⟩
    rw [ofEntry_role]
    exact List.mem_map_of_mem listed
  | @tooDeep levels es inner k ws mem words deep =>
    refine ⟨⟨.opened (path ++ ws), openLimit? levels⟩, ⟨_, mem, ?_⟩, ?_⟩
    · simp only [ofEntry_role, words, List.mem_cons_self]
    · rw [openLimit?, if_pos deep, Option.isSome_some]
  | @inside levels es inner k ws l mem words meets ih =>
    obtain ⟨t, ht, hsome⟩ := ih (path ++ ws)
    refine ⟨t, ⟨_, mem, ?_⟩, hsome⟩
    simp only [ofEntry_role, words]
    rw [ofLevel_eq_flatMap]
    exact .tail _ (List.mem_flatMap.mpr ht)

theorem limit_ofRecord (position : Nat) (v : Value) :
    (ofRecord position v).limit = (Source.ofRecord? v).bind fun s => s.command.tellLimit? 0 := by
  cases v <;> rfl

theorem mem_ofRecords {position : Nat} {rs : List Value} {t : Telling}
    (h : t ∈ ofRecords position rs) : ∃ v ∈ rs, ∃ n, t = ofRecord n v := by
  induction rs generalizing position with
  | nil => cases h
  | cons v rs ih =>
    rcases List.mem_cons.mp h with rfl | h
    · exact ⟨v, .head _, position, rfl⟩
    · obtain ⟨u, hu, n, rfl⟩ := ih h
      exact ⟨u, .tail _ hu, n, rfl⟩

theorem exists_mem_ofRecords (position : Nat) {rs : List Value} {v : Value} (h : v ∈ rs) :
    ∃ n, ofRecord n v ∈ ofRecords position rs := by
  induction rs generalizing position with
  | nil => cases h
  | cons u rs ih =>
    rcases List.mem_cons.mp h with rfl | h
    · exact ⟨position, .head _⟩
    · obtain ⟨n, hn⟩ := ih (position + 1) h
      exact ⟨n, .tail _ hn⟩

section Dictionary

variable {raw : Value} {shape : Option Shape} {s : Shape} {ts : List Telling}

theorem meets_of_limit (hs : Shape.chosen raw shape = .ok s) (hts : ofDictionary s raw = .ok ts)
    {t : Telling} {l : Limit} (ht : t ∈ ts) (hl : t.limit = some l) : Meets raw shape l := by
  cases s with
  | flat =>
    cases raw with
    | map es =>
      obtain rfl := Except.ok.inj hts
      obtain ⟨e, he, rfl⟩ := List.mem_map.mp ht
      exact .name hs (List.mem_map_of_mem he) (Value.untellable_of_tellLimit? hl)
    | _ => cases hts
  | records =>
    cases raw with
    | list rs =>
      obtain rfl := Except.ok.inj hts
      obtain ⟨v, hv, n, rfl⟩ := mem_ofRecords ht
      rw [limit_ofRecord] at hl
      obtain ⟨source, hsource, hl⟩ := Option.bind_eq_some_iff.mp hl
      exact .name hs (List.mem_filterMap.mpr ⟨v, hv, hsource⟩) (Value.untellable_of_tellLimit? hl)
    | _ => cases hts
  | nested =>
    cases raw with
    | map es =>
      obtain rfl := Except.ok.inj hts
      exact .level hs rfl (levelMeets_of_limit ht hl)
    | _ => cases hts

theorem exists_limit_of_name (hts : ofDictionary s raw = .ok ts) {source : Source} {l : Limit}
    (mem : source ∈ Source.ofDictionary s raw) (name : source.command.Untellable 0 l) :
    ∃ t ∈ ts, t.limit.isSome = true := by
  cases s with
  | flat =>
    cases raw with
    | map es =>
      obtain rfl := Except.ok.inj hts
      obtain ⟨e, he, rfl⟩ := List.mem_map.mp mem
      exact ⟨_, List.mem_map_of_mem he, name.isSome_tellLimit?⟩
    | _ => cases hts
  | records =>
    cases raw with
    | list rs =>
      obtain rfl := Except.ok.inj hts
      obtain ⟨v, hv, hsource⟩ := List.mem_filterMap.mp mem
      obtain ⟨n, hn⟩ := exists_mem_ofRecords 0 hv
      refine ⟨_, hn, ?_⟩
      rw [limit_ofRecord, hsource]
      exact name.isSome_tellLimit?
    | _ => cases hts
  | nested => cases mem

end Dictionary

end Telling

/-! ## What a build comes to -/

section Outcome

variable {raw : Value} {shape : Option Shape} {b : Build}

theorem construct_eq (raw : Value) (shape : Option Shape) :
    construct raw shape =
      match (Shape.chosen raw shape).bind fun s =>
        (Telling.ofDictionary s raw).map (Construction.ofTellings s) with
      | .ok c => c
      | .error e => ⟨.error (.shape e), [], []⟩ := by
  cases shape <;> rfl

theorem construct_of_error {e : BuildError} (h : build raw shape = .error e) :
    construct raw shape = ⟨.error (.shape e), [], []⟩ := by
  have hbuild : build raw shape = (Shape.chosen raw shape).bind fun s =>
      (Reading.ofDictionary s raw).map (.ofReadings s) := by
    cases shape <;> rfl
  rw [construct_eq]
  rw [hbuild] at h
  cases hs : Shape.chosen raw shape with
  | error e' =>
    rw [hs] at h
    cases h
    rfl
  | ok s =>
    rw [hs] at h
    have hreading := Telling.reading_ofDictionary s raw
    cases hts : Telling.ofDictionary s raw with
    | ok ts =>
      rw [hts] at hreading
      simp [Except.bind, Except.map, ← hreading] at h
    | error e' =>
      rw [hts] at hreading
      simp only [Except.bind, Except.map, ← hreading, Except.error.injEq] at h
      simp only [Except.bind, Except.map, hts, h]

theorem exists_tellings (hb : build raw shape = .ok b) :
    ∃ s ts, Shape.chosen raw shape = .ok s ∧ Telling.ofDictionary s raw = .ok ts ∧
      b = .ofReadings s (ts.map Telling.reading) ∧
      construct raw shape = Construction.ofTellings s ts := by
  obtain ⟨s, rs, hs, hrs, rfl⟩ := build_eq_ok_iff.mp hb
  have hreading := Telling.reading_ofDictionary s raw
  cases hts : Telling.ofDictionary s raw with
  | error e =>
    rw [hts, hrs] at hreading
    cases hreading
  | ok ts =>
    rw [hts, hrs] at hreading
    obtain rfl := Except.ok.inj hreading
    refine ⟨s, ts, hs, hts, rfl, ?_⟩
    rw [construct_eq, hs]
    simp only [Except.bind, hts, Except.map]

/-- A build either meets no bound and comes to its tree, or it comes to one of those it meets. -/
theorem construct_cases (hb : build raw shape = .ok b) :
    ((∀ l, ¬ Meets raw shape l) ∧ construct raw shape = ⟨.ok b.tree, b.skipped, b.log⟩) ∨
    ∃ l, Meets raw shape l ∧ (construct raw shape).tree = .error (.limit l) := by
  obtain ⟨s, ts, hs, hts, hbuilt, hconstruct⟩ := exists_tellings hb
  rw [hconstruct, Construction.ofTellings]
  cases hfound : ts.findSome? Telling.limit with
  | some l =>
    obtain ⟨t, ht, hl⟩ := List.exists_of_findSome?_eq_some hfound
    exact .inr ⟨l, Telling.meets_of_limit hs hts ht hl, rfl⟩
  | none =>
    rw [← hbuilt]
    by_cases hdeep : Stack.levels levelCalls < b.tree.depth
    · simp only [if_pos hdeep]
      exact .inr ⟨.calls, .tree hb hdeep, rfl⟩
    · simp only [if_neg hdeep]
      refine .inl ⟨fun l hmeets => ?_, trivial⟩
      have hnone : ∀ t ∈ ts, t.limit = none := List.findSome?_eq_none_iff.mp hfound
      have hlimit : ¬ ∃ t ∈ ts, t.limit.isSome = true := by
        rintro ⟨t, ht, hsome⟩
        rw [hnone t ht] at hsome
        cases hsome
      cases hmeets with
      | name chosen mem name =>
        obtain rfl := Except.ok.inj (hs.symm.trans chosen)
        exact hlimit (Telling.exists_limit_of_name hts mem name)
      | level chosen map level =>
        obtain rfl := Except.ok.inj (hs.symm.trans chosen)
        subst map
        obtain rfl := Except.ok.inj hts
        exact hlimit (Telling.exists_limit_of_levelMeets level [])
      | tree built deep =>
        obtain rfl := Except.ok.inj (hb.symm.trans built)
        exact hdeep deep

theorem construct_of_not_meets (hb : build raw shape = .ok b) (h : ∀ l, ¬ Meets raw shape l) :
    construct raw shape = ⟨.ok b.tree, b.skipped, b.log⟩ := by
  rcases construct_cases hb with ⟨-, hconstruct⟩ | ⟨l, hmeets, -⟩
  · exact hconstruct
  · exact absurd hmeets (h l)

theorem tree_construct_of_meets {l : Limit} (hb : build raw shape = .ok b)
    (h : Meets raw shape l) :
    ∃ m, Meets raw shape m ∧ (construct raw shape).tree = .error (.limit m) := by
  rcases construct_cases hb with ⟨hnone, -⟩ | hsome
  · exact absurd h (hnone l)
  · exact hsome

/-- What was skipped until a bound was met is the beginning of what is skipped without it. -/
theorem isPrefix_skipped_construct (hb : build raw shape = .ok b) :
    (construct raw shape).skipped <+: b.skipped := by
  obtain ⟨s, ts, -, -, rfl, hconstruct⟩ := exists_tellings hb
  rw [hconstruct, Construction.ofTellings]
  cases ts.findSome? Telling.limit with
  | some l =>
    have hfront : (ts.takeWhile fun t => t.limit.isNone) <+: ts := List.takeWhile_prefix _
    exact (hfront.map _).filterMap _
  | none =>
    dsimp only
    split <;> exact List.prefix_rfl

theorem exists_build_of_ofValue {i : Index} (h : (Index.ofValue raw shape).result = .ok i) :
    ∃ b, build raw shape = .ok b ∧ (∀ l, ¬ Meets raw shape l) ∧ i = .ofBuild b ∧
      (Index.ofValue raw shape).log = b.log := by
  rw [Index.ofValue] at h ⊢
  cases hb : build raw shape with
  | error e =>
    rw [construct_of_error hb] at h
    cases h
  | ok b =>
    rcases construct_cases hb with ⟨hnone, hconstruct⟩ | ⟨l, -, htree⟩
    · rw [hconstruct] at h ⊢
      exact ⟨b, rfl, hnone, (Except.ok.inj h).symm, rfl⟩
    · simp only [htree] at h
      cases h

theorem not_meets_of_texts {s : Shape} (hb : build raw shape = .ok b)
    (hs : Shape.chosen raw shape = .ok s) (hne : s ≠ .nested)
    (hnames : ∀ source ∈ Source.ofDictionary s raw, source.command.text? ≠ none)
    (hdepth : b.tree.depth ≤ Stack.levels levelCalls) (l : Limit) : ¬ Meets raw shape l := by
  intro hmeets
  cases hmeets with
  | name chosen mem name =>
    obtain rfl := Except.ok.inj (hs.symm.trans chosen)
    exact hnames _ mem name.notText
  | level chosen map level => exact hne (Except.ok.inj (hs.symm.trans chosen))
  | tree built deep =>
    obtain rfl := Except.ok.inj (hb.symm.trans built)
    exact Nat.not_lt.mpr hdepth deep

theorem depth_le_of_not_meets (hb : build raw shape = .ok b) (h : ∀ l, ¬ Meets raw shape l) :
    b.tree.depth ≤ Stack.levels levelCalls :=
  Nat.not_lt.mp fun hdeep => h .calls (.tree hb hdeep)

theorem result_ofValue_of_isOk (hb : build raw shape = .ok b)
    (h : (construct raw shape).tree.isOk = true) :
    (Index.ofValue raw shape).result = .ok (.ofBuild b) := by
  rcases construct_cases hb with ⟨-, hconstruct⟩ | ⟨l, -, htree⟩
  · rw [Index.ofValue, hconstruct]
    rfl
  · rw [htree] at h
    cases h

theorem ofValue_of_not_meets (hb : build raw shape = .ok b) (h : ∀ l, ¬ Meets raw shape l) :
    Index.ofValue raw shape = ⟨.ok (.ofBuild b), b.log⟩ := by
  rw [Index.ofValue, construct_of_not_meets hb h]
  rfl

end Outcome

end SwitchLexicon
