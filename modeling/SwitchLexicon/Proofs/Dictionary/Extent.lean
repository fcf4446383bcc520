import SwitchLexicon.Proofs.Dictionary.Construct
import SwitchLexicon.Proofs.Json.Values

/-!
Dictionaries that are small enough to be built. The extent of a value counts its levels and the
words of its texts along the longest way into it. Nothing in a dictionary lies deeper, and neither
does its tree, so a dictionary whose extent fits on the stack and whose numbers can be shown meets
no bound.
-/
namespace SwitchLexicon

def Key.extent : Key → Nat
  | .text s => max 1 (tokenize s).length
  | _ => 1

namespace Value

mutual

def extent : Value → Nat
  | .text s => max 1 (tokenize s).length
  | .list vs => extentOfItems vs + 1
  | .map es => extentOfEntries es + 1
  | _ => 1

def extentOfItems : List Value → Nat
  | [] => 0
  | v :: vs => max (extent v) (extentOfItems vs)

def extentOfEntries : List (Key × Value) → Nat
  | [] => 0
  | (k, v) :: es => max (k.extent + extent v) (extentOfEntries es)

end

theorem extent_toValue (k : Key) : k.toValue.extent = k.extent := by
  cases k <;> rfl

theorem extent_pos (v : Value) : 0 < v.extent := by
  cases v with
  | text s => exact Nat.lt_of_lt_of_le Nat.one_pos (Nat.le_max_left _ _)
  | _ => exact Nat.succ_pos _

theorem length_tokenize_le (s : String) : (tokenize s).length ≤ (Value.text s).extent :=
  Nat.le_max_right _ _

theorem extent_lt_list {vs : List Value} {v : Value} (h : v ∈ vs) :
    v.extent < (Value.list vs).extent := by
  refine Nat.lt_succ_of_le ?_
  induction vs with
  | nil => cases h
  | cons u vs ih =>
    rcases List.mem_cons.mp h with rfl | h
    · exact Nat.le_max_left _ _
    · exact (ih h).trans (Nat.le_max_right _ _)

theorem extent_lt_map {es : Entries} {k : Key} {v : Value} (h : (k, v) ∈ es) :
    k.extent + v.extent < (Value.map es).extent := by
  refine Nat.lt_succ_of_le ?_
  induction es with
  | nil => cases h
  | cons f es ih =>
    rcases List.mem_cons.mp h with rfl | h
    · exact Nat.le_max_left _ _
    · exact (ih h).trans (Nat.le_max_right _ _)

def HasShortNumbers (v : Value) : Prop :=
  ∀ room, ¬ v.Unshowable room .digits

theorem hasShortNumbers_of_layered {depth : Nat} {v : Value}
    (h : Json.Layered Json.Leaf depth v) : v.HasShortNumbers := by
  induction h with
  | leaf holds =>
    intro room hshown
    cases hshown with
    | number long =>
      cases holds with
      | int short => omega
    | item mem inside => cases holds
    | key mem inside => cases holds
    | entry mem inside => cases holds
  | list items ih =>
    rintro _ (_ | _ | ⟨mem, inside⟩)
    exact ih _ mem _ inside
  | map distinct keys values ih =>
    intro room hshown
    cases hshown with
    | key mem inside =>
      obtain ⟨name, hname, -⟩ := keys _ mem
      rw [hname] at inside
      cases inside
    | entry mem inside => exact ih _ mem _ inside

theorem Unshowable.room_lt_extent {room : Nat} {v : Value} {l : Limit}
    (h : v.Unshowable room l) : l = .digits ∨ room < v.extent := by
  induction h with
  | noRoom v => exact Or.inr v.extent_pos
  | number long => exact Or.inl rfl
  | item mem inside ih => exact ih.imp_right fun h => Nat.lt_of_le_of_lt h (extent_lt_list mem)
  | key mem inside ih =>
    refine ih.imp_right fun h => ?_
    have hentry := extent_lt_map mem
    rw [extent_toValue] at h
    omega
  | entry mem inside ih =>
    refine ih.imp_right fun h => ?_
    have hentry := extent_lt_map mem
    omega

theorem Untellable.levels_lt {levels : Nat} {v : Value} {l : Limit} (h : v.Untellable levels l) :
    l = .digits ∨ Stack.levels levelCalls < levels + v.extent := by
  refine h.shown.room_lt_extent.imp_right fun hroom => ?_
  have hpos := v.extent_pos
  simp only [Stack.levels, Stack.room, levelCalls] at hroom ⊢
  omega

end Value

theorem LevelMeets.levels_lt {levels : Nat} {es : Entries} {l : Limit}
    (h : LevelMeets levels es l) :
    (∃ room, (Value.map es).Unshowable room .digits) ∨
      Stack.levels levelCalls < levels + (Value.map es).extent := by
  induction h with
  | key mem name =>
    rcases name.levels_lt with rfl | hlevels
    · exact Or.inl ⟨_, .key mem name.shown⟩
    · rw [Value.extent_toValue] at hlevels
      have hentry := Value.extent_lt_map mem
      exact Or.inr (by omega)
  | option mem listed option =>
    rcases option.levels_lt with rfl | hlevels
    · exact Or.inl ⟨_, .entry mem (.item listed option.shown)⟩
    · have hlist := Value.extent_lt_list listed
      have hentry := Value.extent_lt_map mem
      exact Or.inr (by omega)
  | tooDeep mem words deep =>
    exact Or.inr (Nat.lt_of_le_of_lt deep (Nat.lt_add_of_pos_right (Value.extent_pos _)))
  | inside mem words meets ih =>
    refine ih.imp (fun ⟨room, hroom⟩ => ⟨_, .entry mem hroom⟩) fun hlevels => ?_
    have hentry := Value.extent_lt_map mem
    omega

/-! ## The ways of a tree -/

theorem Key.length_words_le {k : Key} {ws : List String} (h : k.role = .words ws) :
    ws.length ≤ k.extent := by
  cases k with
  | text key =>
    rw [Key.role] at h
    split_ifs at h
    obtain rfl := KeyRole.words.inj h
    exact Nat.le_max_right _ _
  | _ => cases h

theorem Entries.mem_of_get? {name : String} {v : Value} {es : Entries}
    (h : es.get? name = some v) : (.text name, v) ∈ es := by
  induction es with
  | nil => cases h
  | cons e es ih =>
    obtain ⟨k, w⟩ := e
    rw [Entries.get?] at h
    split at h
    next hk =>
      rw [hk, Option.some.inj h]
      exact .head _
    next => exact .tail _ (ih h)

namespace Reading

def Within (n : Nat) : Reading → Prop
  | .command path _ => path.length ≤ n
  | .opened path => path.length ≤ n
  | _ => True

theorem Within.mono {m n : Nat} (hmn : m ≤ n) {r : Reading} (h : r.Within m) : r.Within n := by
  cases r with
  | command path d => exact Nat.le_trans h hmn
  | opened path => exact Nat.le_trans h hmn
  | _ => trivial

theorem depth_ofReadings_le {rs : List Reading} {n : Nat} (h : ∀ r ∈ rs, r.Within n) :
    (CommandTree.ofReadings rs).depth ≤ n := by
  refine (CommandTree.depth_le_iff (CommandTree.ordered_ofReadings rs) n).mpr fun p hp => ?_
  rcases (CommandTree.isSome_get?_ofReadings rs p).mp hp with rfl | ⟨c, hc, hpc⟩ | ⟨q, hq, hpq⟩
  · exact Nat.zero_le n
  · obtain ⟨r, hr, hcommand⟩ := List.mem_filterMap.mp hc
    cases r with
    | command path d =>
      obtain rfl := Option.some.inj hcommand
      exact hpc.length_le.trans (h _ hr)
    | _ => cases hcommand
  · obtain ⟨r, hr, hopened⟩ := List.mem_filterMap.mp hq
    cases r with
    | opened path =>
      obtain rfl := Option.some.inj hopened
      exact hpq.length_le.trans (h _ hr)
    | _ => cases hopened

theorem within_ofCommand (command record : Value) :
    (ofCommand command record).Within command.extent := by
  cases command with
  | text name =>
    rw [ofCommand]
    split
    · trivial
    · split
      · exact Value.length_tokenize_le name
      · trivial
  | _ => trivial

theorem within_ofRecord (position : Nat) (record : Value) :
    (ofRecord position record).Within record.extent := by
  cases record with
  | map fields =>
    refine (within_ofCommand _ _).mono ?_
    cases hcommand : Entries.get? "command" fields with
    | none => exact Value.extent_pos _
    | some command =>
      have hentry := Value.extent_lt_map (Entries.mem_of_get? hcommand)
      rw [Option.getD_some]
      omega
  | _ => trivial

theorem within_ofOption (path : List String) (v : Value) :
    (ofOption path v).Within (path.length + v.extent) := by
  cases v with
  | text option =>
    rw [ofOption]
    split
    · trivial
    · have hoption := Value.length_tokenize_le option
      rw [Within, List.length_append]
      omega
  | _ => trivial

theorem within_ofDescription (path : List String) (v : Value) :
    (ofDescription path v).Within path.length := by
  cases v with
  | text description =>
    rw [ofDescription]
    split
    · trivial
    · exact Nat.le_refl _
  | _ => trivial

theorem within_ofLeaf (path : List String) (v : Value) : (ofLeaf path v).Within path.length := by
  cases v with
  | list vs => trivial
  | _ =>
    rw [ofLeaf.eq_def]
    dsimp only
    split
    · exact Nat.le_refl _
    · trivial

theorem within_ofEntry {path : List String} {k : Key} {v : Value} {r : Reading}
    (hbelow : ∀ es, v = .map es → ∀ {path : List String}, r ∈ ofLevel path es →
      r.Within (path.length + v.extent))
    (h : r ∈ ofEntry path k v) : r.Within (path.length + (k.extent + v.extent + 1)) := by
  have hrole := ofEntry_role path k v
  cases hk : k.role with
  | options =>
    rw [hk] at hrole
    rw [hrole] at h
    cases v with
    | list options =>
      obtain ⟨o, ho, rfl⟩ := List.mem_map.mp h
      have hlist := Value.extent_lt_list ho
      exact (within_ofOption path o).mono (by omega)
    | _ =>
      obtain rfl := List.mem_singleton.mp h
      trivial
  | description =>
    rw [hk] at hrole
    obtain rfl := List.mem_singleton.mp (hrole ▸ h)
    exact (within_ofDescription path v).mono (Nat.le_add_right _ _)
  | words ws =>
    rw [hk] at hrole
    rw [hrole] at h
    have hws := Key.length_words_le hk
    have hlength : (path ++ ws).length = path.length + ws.length := List.length_append
    cases v with
    | map es =>
      rcases List.mem_cons.mp h with rfl | h
      · rw [Within]
        omega
      · exact (hbelow es rfl h).mono (by omega)
    | _ =>
      obtain rfl := List.mem_singleton.mp h
      exact (within_ofLeaf _ _).mono (by omega)
  | other =>
    rw [hk] at hrole
    obtain ⟨r', hr, hcommand, hopened⟩ := hrole
    obtain rfl := List.mem_singleton.mp (hr ▸ h)
    cases r with
    | command path d => cases hcommand
    | opened path => cases hopened
    | _ => trivial

theorem within_ofLevel {path : List String} {es : Entries} {r : Reading}
    (h : r ∈ ofLevel path es) : r.Within (path.length + (Value.map es).extent) := by
  induction es using Entries.levelInduction generalizing path with
  | nil => cases h
  | cons k v rest ihv ihrest =>
    rw [ofLevel, List.mem_append] at h
    rcases h with h | h
    · have hentry : k.extent + v.extent < (Value.map ((k, v) :: rest)).extent :=
        Value.extent_lt_map (.head _)
      have hwithin := within_ofEntry (fun es hv _ hr => hv ▸ ihv es hv hr) h
      exact hwithin.mono (Nat.add_le_add_left hentry _)
    · have hrest : (Value.map rest).extent ≤ (Value.map ((k, v) :: rest)).extent :=
        Nat.succ_le_succ (Nat.le_max_right _ _)
      exact (ihrest h).mono (Nat.add_le_add_left hrest _)

theorem within_ofDictionary {s : Shape} {raw : Value} {rs : List Reading}
    (h : ofDictionary s raw = .ok rs) : ∀ r ∈ rs, r.Within raw.extent := by
  intro r hr
  cases s with
  | flat =>
    cases raw with
    | map es =>
      obtain rfl := Except.ok.inj h
      obtain ⟨e, he, rfl⟩ := List.mem_map.mp hr
      have hentry := Value.extent_lt_map he
      refine (within_ofCommand _ _).mono ?_
      rw [Value.extent_toValue]
      omega
    | _ => cases h
  | records =>
    cases raw with
    | list vs =>
      obtain rfl := Except.ok.inj h
      rw [← Telling.reading_ofRecords] at hr
      obtain ⟨t, ht, rfl⟩ := List.mem_map.mp hr
      obtain ⟨v, hv, n, rfl⟩ := Telling.mem_ofRecords ht
      have hreading : (Telling.ofRecord n v).reading = ofRecord n v := by cases v <;> rfl
      rw [hreading]
      exact (within_ofRecord n v).mono (Value.extent_lt_list hv).le
    | _ => cases h
  | nested =>
    cases raw with
    | map es =>
      obtain rfl := Except.ok.inj h
      exact (within_ofLevel hr).mono (by simp)
    | _ => cases h

end Reading

/-! ## Dictionaries that are built -/

theorem depth_le_extent {raw : Value} {shape : Option Shape} {b : Build}
    (hb : build raw shape = .ok b) : b.tree.depth ≤ raw.extent := by
  obtain ⟨s, rs, -, hrs, rfl⟩ := build_eq_ok_iff.mp hb
  exact Reading.depth_ofReadings_le (Reading.within_ofDictionary hrs)

theorem Source.untellable_of_mem {s : Shape} {raw : Value} {source : Source}
    (hmem : source ∈ Source.ofDictionary s raw) {l : Limit}
    (h : source.command.Untellable 0 l) :
    (∃ room, raw.Unshowable room .digits) ∨ Stack.levels levelCalls < raw.extent := by
  have hlevels := h.levels_lt
  cases s with
  | flat =>
    cases raw with
    | map es =>
      obtain ⟨e, he, rfl⟩ := List.mem_map.mp hmem
      refine hlevels.imp (fun hdigits => ⟨_, .key he (hdigits ▸ h.shown)⟩) fun hlevels => ?_
      have hentry := Value.extent_lt_map he
      rw [Value.extent_toValue] at hlevels
      omega
    | _ => cases hmem
  | records =>
    cases raw with
    | list vs =>
      obtain ⟨v, hv, hsource⟩ := List.mem_filterMap.mp hmem
      have hrecord := Value.extent_lt_list hv
      cases v with
      | map fields =>
        obtain rfl := Option.some.inj hsource
        cases hcommand : Entries.get? "command" fields with
        | none =>
          simp only [hcommand, Option.getD_none] at h
          cases h.shown
        | some command =>
          have hmember := Entries.mem_of_get? hcommand
          have hentry := Value.extent_lt_map hmember
          simp only [hcommand, Option.getD_some] at h hlevels
          refine hlevels.imp (fun hdigits => ⟨_, .item hv (.entry hmember (hdigits ▸ h.shown))⟩)
            fun hlevels => ?_
          omega
      | _ => cases hsource
    | _ => cases hmem
  | nested => cases hmem

theorem not_meets_of_extent_le {raw : Value} (hnumbers : raw.HasShortNumbers)
    (hextent : raw.extent ≤ Stack.levels levelCalls) (shape : Option Shape) (l : Limit) :
    ¬ Meets raw shape l := by
  intro hmeets
  cases hmeets with
  | name chosen mem name =>
    rcases Source.untellable_of_mem mem name with ⟨room, hroom⟩ | hlevels
    · exact hnumbers room hroom
    · omega
  | level chosen map level =>
    subst map
    rcases level.levels_lt with ⟨room, hroom⟩ | hlevels
    · exact hnumbers room hroom
    · omega
  | tree built deep =>
    have hdepth := depth_le_extent built
    omega

end SwitchLexicon
