import SwitchLexicon.Proofs.Dictionary.Nested

/-!
What holds of every tree that is built from a dictionary: siblings are in order, the words on all
ways are tokens, and a complete command stands where its own name leads. Dictionaries that spell
each command in full leave no dead ends.
-/
namespace SwitchLexicon

def Shape.chosen (raw : Value) : Option Shape → Except BuildError Shape
  | some s => .ok s
  | none => Shape.detect raw

theorem build_eq_ok_iff {raw : Value} {shape : Option Shape} {b : Build} :
    build raw shape = .ok b ↔ ∃ s rs, Shape.chosen raw shape = .ok s ∧
      Reading.ofDictionary s raw = .ok rs ∧ b = .ofReadings s rs := by
  have hbuild : build raw shape = (Shape.chosen raw shape).bind fun s =>
      (Reading.ofDictionary s raw).map (.ofReadings s) := by
    cases shape <;> rfl
  rw [hbuild]
  cases Shape.chosen raw shape with
  | error e => simp [Except.bind]
  | ok s =>
    cases hrs : Reading.ofDictionary s raw with
    | error e => simp [Except.bind, Except.map, hrs]
    | ok rs => simp [Except.bind, Except.map, hrs, eq_comm]

theorem Shape.detect_map (es : Entries) :
    Shape.detect (.map es) = .ok (if es.all isFlatEntry then .flat else .nested) := rfl

theorem Shape.detect_eq_flat_iff (es : Entries) :
    Shape.detect (.map es) = .ok .flat ↔ es.all isFlatEntry = true := by
  rw [Shape.detect_map, Except.ok.injEq]
  cases es.all isFlatEntry <;> simp

theorem build_of_flat {es : Entries} (h : es.all isFlatEntry = true) :
    build (.map es) none = .ok (.ofReadings .flat (Reading.ofFlat es)) := by
  rw [build_eq_ok_iff]
  exact ⟨.flat, _, (Shape.detect_eq_flat_iff es).mpr h, rfl, rfl⟩

theorem build_of_not_flat {es : Entries} (h : es.all isFlatEntry = false) :
    build (.map es) none = .ok (.ofReadings .nested (Reading.ofLevel [] es)) := by
  rw [build_eq_ok_iff]
  refine ⟨.nested, _, ?_, rfl, rfl⟩
  rw [Shape.chosen, Shape.detect_map, h]
  rfl

namespace CommandTree

structure WellBuilt (t : CommandTree) : Prop where
  ordered : t.Ordered
  tokens : ∀ p, (t.get? p).isSome = true → ∀ w ∈ p, IsToken w
  named : ∀ p d, t.detailAt p = some d → p ≠ [] ∧ tokenize d.command = p

theorem WellBuilt.detailAt_nil {t : CommandTree} (ht : t.WellBuilt) : t.detailAt [] = none :=
  Option.eq_none_iff_forall_ne_some.mpr fun d hd => (ht.named [] d hd).1 rfl

theorem WellBuilt.tokens_of_detailAt {t : CommandTree} (ht : t.WellBuilt) {p : List String}
    {d : Detail} (hd : t.detailAt p = some d) : ∀ w ∈ p, IsToken w :=
  ht.tokens p (isSome_get?_of_detailAt hd)

/-- Every place below the root lies on the way to a complete command. -/
def LeadsOn (t : CommandTree) : Prop :=
  ∀ p, p ≠ [] → (t.get? p).isSome = true → ∃ q d, p <+: q ∧ t.detailAt q = some d

end CommandTree

namespace Reading

structure IsProper (c : List String × Detail) : Prop where
  ne_nil : c.1 ≠ []
  tokens : ∀ w ∈ c.1, IsToken w
  named : tokenize c.2.command = c.1

theorem wellBuilt_ofReadings {rs : List Reading}
    (hcommands : ∀ c ∈ rs.filterMap command?, IsProper c)
    (hopened : ∀ p ∈ rs.filterMap opened?, ∀ w ∈ p, IsToken w) :
    (CommandTree.ofReadings rs).WellBuilt where
  ordered := CommandTree.ordered_ofReadings rs
  tokens p hp w hw := by
    rcases (CommandTree.isSome_get?_ofReadings rs p).mp hp with rfl | ⟨c, hc, hpc⟩ | ⟨q, hq, hpq⟩
    · simp at hw
    · exact (hcommands c hc).tokens w (hpc.subset hw)
    · exact hopened q hq w (hpq.subset hw)
  named p d hd := by
    have hproper := hcommands (p, d) (CommandTree.mem_of_detailAt_ofReadings hd)
    exact ⟨hproper.ne_nil, hproper.named⟩

theorem leadsOn_ofReadings {rs : List Reading} (hopened : rs.filterMap opened? = []) :
    (CommandTree.ofReadings rs).LeadsOn := by
  intro p hp hsome
  rw [CommandTree.isSome_get?_ofReadings, hopened] at hsome
  rcases hsome with rfl | ⟨⟨q, e⟩, hc, hpq⟩ | ⟨q, hq, -⟩
  · exact absurd rfl hp
  · have hq := (CommandTree.isSome_detailAt_ofReadings rs q).mpr ⟨e, hc⟩
    obtain ⟨d, hd⟩ := Option.isSome_iff_exists.mp hq
    exact ⟨q, d, hpq, hd⟩
  · simp at hq

end Reading

theorem Source.isProper_of_command? {s : Source} {c : List String × Detail}
    (h : s.command? = some c) : Reading.IsProper c := by
  obtain ⟨path, d⟩ := c
  obtain ⟨name, ⟨-, hblank, hrecord⟩, rfl⟩ := (s.command?_eq_some_iff path d).mp h
  refine ⟨?_, fun w hw => isToken_of_mem_tokenize hw, ?_⟩
  · rw [← Text.isBlankText_eq_false_iff] at hblank
    rw [Ne, tokenize_eq_nil_iff, hblank]
    simp
  · rw [Detail.command_of_ofRecord hrecord, tokenize_unwords_words]

theorem Leaf.isProper {l : Leaf} (hne : l.1 ≠ []) (htokens : ∀ w ∈ l.1, IsToken w) :
    Reading.IsProper (l.1, l.detail) :=
  ⟨hne, htokens, tokenize_unwords htokens⟩

theorem tokens_openedBy {path : List String} (hpath : ∀ w ∈ path, IsToken w) {es : Entries}
    {p : List String} (h : p ∈ openedBy path es) : ∀ w ∈ p, IsToken w := by
  induction es using Entries.levelInduction generalizing path with
  | nil => simp [openedBy] at h
  | cons k v rest ihv ihrest =>
    rw [openedBy, List.mem_append] at h
    rcases h with h | h
    · rw [openedByEntry.eq_def] at h
      cases hk : k.role with
      | options =>
        cases v with
        | list options =>
          obtain ⟨o, -, ho⟩ := List.mem_filterMap.mp (by simpa [hk] using h)
          cases o with
          | text option =>
            rw [optionPath?] at ho
            split at ho
            · simp at ho
            · rw [Option.some.injEq] at ho
              exact ho ▸ tokens_append hpath fun w hw => isToken_of_mem_tokenize hw
          | _ => simp [optionPath?] at ho
        | _ => simp [hk] at h
      | description => simp [hk] at h
      | words ws =>
        have happend := tokens_append hpath (Key.words_of_role hk).2
        cases v with
        | map es =>
          rcases List.mem_cons.mp (by simpa [hk] using h) with rfl | h
          · exact happend
          · exact ihv es rfl happend h
        | _ => simp [hk] at h
      | other => simp [hk] at h
    · exact ihrest hpath h

theorem Reading.isProper_of_mem {s : Shape} {raw : Value} {rs : List Reading}
    (h : ofDictionary s raw = .ok rs) : ∀ c ∈ rs.filterMap command?, IsProper c := by
  intro c hc
  cases s <;> cases raw <;> simp only [ofDictionary, Except.ok.injEq, reduceCtorEq] at h
  · rw [← h, commands_ofFlat] at hc
    obtain ⟨s, -, hs⟩ := List.mem_filterMap.mp hc
    exact Source.isProper_of_command? hs
  · rw [← h, commands_ofRecords] at hc
    obtain ⟨s, -, hs⟩ := List.mem_filterMap.mp hc
    exact Source.isProper_of_command? hs
  · rw [← h, commands_ofLevel] at hc
    obtain ⟨l, hl, rfl⟩ := List.mem_map.mp hc
    obtain ⟨hne, htokens⟩ := Leaf.tokens_of_mem (by simp) hl
    exact Leaf.isProper hne htokens

theorem Reading.opened_ofDictionary {s : Shape} {raw : Value} {rs : List Reading}
    (h : ofDictionary s raw = .ok rs) (hs : s ≠ .nested) : rs.filterMap opened? = [] := by
  cases s <;> cases raw <;> simp only [ofDictionary, Except.ok.injEq, reduceCtorEq] at h
  · rw [← h, opened_ofFlat]
  · rw [← h, opened_ofRecords]
  · exact absurd rfl hs

theorem Reading.tokens_opened {s : Shape} {raw : Value} {rs : List Reading}
    (h : ofDictionary s raw = .ok rs) : ∀ p ∈ rs.filterMap opened?, ∀ w ∈ p, IsToken w := by
  intro p hp
  by_cases hs : s = .nested
  · subst hs
    cases raw <;> simp only [ofDictionary, Except.ok.injEq, reduceCtorEq] at h
    rw [← h, opened_ofLevel] at hp
    exact tokens_openedBy (by simp) hp
  · simp [opened_ofDictionary h hs] at hp

theorem wellBuilt_of_build {raw : Value} {shape : Option Shape} {b : Build}
    (h : build raw shape = .ok b) : b.tree.WellBuilt := by
  obtain ⟨s, rs, -, hrs, rfl⟩ := build_eq_ok_iff.mp h
  exact Reading.wellBuilt_ofReadings (Reading.isProper_of_mem hrs) (Reading.tokens_opened hrs)

theorem leadsOn_of_build {raw : Value} {shape : Option Shape} {s : Shape} {b : Build}
    (h : build raw shape = .ok b) (hs : Shape.chosen raw shape = .ok s) (hne : s ≠ .nested) :
    b.tree.LeadsOn := by
  obtain ⟨r, rs, hr, hrs, rfl⟩ := build_eq_ok_iff.mp h
  have hrs' : r = s := Except.ok.inj (hr.symm.trans hs)
  subst hrs'
  exact Reading.leadsOn_ofReadings (Reading.opened_ofDictionary hrs hne)

end SwitchLexicon
