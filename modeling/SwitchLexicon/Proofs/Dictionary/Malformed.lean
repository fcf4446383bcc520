import SwitchLexicon.Proofs.Dictionary.Built

/-!
One more entry that makes no sense. In a mapping from commands to records it is skipped and changes
nothing else, but only as long as the mapping is still taken for one: the shape of a dictionary is
read off all its entries. An entry is harmless everywhere exactly when it looks like the others.
-/
namespace SwitchLexicon

/-- No command is made of the entry, whatever name or record it may hold. -/
def IsRejected (e : Key × Value) : Prop :=
  ∀ name d, ¬ Source.Accepts ⟨e.1.toValue, e.2⟩ name d

theorem isRejected_iff {e : Key × Value} :
    IsRejected e ↔ Source.command? ⟨e.1.toValue, e.2⟩ = none := by
  rw [Option.eq_none_iff_forall_ne_some]
  constructor
  · rintro h ⟨path, d⟩ hcommand
    obtain ⟨name, haccepts, -⟩ := (Source.command?_eq_some_iff _ path d).mp hcommand
    exact h name d haccepts
  · intro h name d haccepts
    exact h (tokenize name, d) ((Source.command?_eq_some_iff _ _ d).mpr ⟨name, haccepts, rfl⟩)

instance (e : Key × Value) : Decidable (IsRejected e) :=
  decidable_of_iff ((Source.command? ⟨e.1.toValue, e.2⟩).isNone = true)
    (Option.isNone_iff_eq_none.trans isRejected_iff.symm)

/-- `c` holds the commands of `b`, and it skipped one entry more. -/
structure Build.SkipsOneMore (b c : Build) : Prop where
  tree_eq : c.tree = b.tree
  skipped : ∃ front entry back, b.skipped = front ++ back ∧ c.skipped = front ++ entry :: back

/-- Put anywhere into a flat dictionary that has no such key, the entry is skipped and no more. -/
def IsHarmless (e : Key × Value) : Prop :=
  ∀ before after : Entries, Shape.detect (.map (before ++ after)) = .ok .flat →
    (∀ x ∈ before ++ after, x.1.same e.1 = false) →
    ∃ b c, build (.map (before ++ after)) none = .ok b ∧
      build (.map (before ++ e :: after)) none = .ok c ∧ b.SkipsOneMore c

namespace Reading

theorem ofCommand_cases (command record : Value) :
    (∃ path d, ofCommand command record = .command path d) ∨
      ∃ entry reason, ofCommand command record = .skipped entry reason := by
  cases command with
  | text name =>
    rw [ofCommand]
    split
    · exact Or.inr ⟨_, _, rfl⟩
    · split
      · exact Or.inl ⟨_, _, rfl⟩
      · exact Or.inr ⟨_, _, rfl⟩
  | _ => exact Or.inr ⟨_, _, rfl⟩

theorem ofCommand_of_rejected {e : Key × Value} (he : IsRejected e) :
    ∃ entry reason, ofCommand e.1.toValue e.2 = .skipped entry reason := by
  refine (ofCommand_cases e.1.toValue e.2).resolve_left ?_
  rintro ⟨path, d, h⟩
  have hnone := isRejected_iff.mp he
  rw [Source.command?, h, command?] at hnone
  simp at hnone

end Reading

theorem Build.skipsOneMore_ofReadings (s : Shape) (rs : List Reading) (entry : String)
    (reason : SkipReason) (qs : List Reading) :
    (Build.ofReadings s (rs ++ qs)).SkipsOneMore
      (.ofReadings s (rs ++ .skipped entry reason :: qs)) where
  tree_eq := by simp [CommandTree.ofReadings, Reading.apply]
  skipped := ⟨rs.filterMap Reading.skip?, entry, qs.filterMap Reading.skip?,
    by simp [Build.ofReadings], by simp [Build.ofReadings, Reading.skip?]⟩

theorem Build.skipsOneMore_ofFlat {e : Key × Value} (he : IsRejected e) (before after : Entries) :
    (Build.ofReadings .flat (Reading.ofFlat (before ++ after))).SkipsOneMore
      (.ofReadings .flat (Reading.ofFlat (before ++ e :: after))) := by
  obtain ⟨entry, reason, hskip⟩ := Reading.ofCommand_of_rejected he
  have hreadings : Reading.ofFlat (before ++ e :: after) =
      Reading.ofFlat before ++ .skipped entry reason :: Reading.ofFlat after := by
    simp [Reading.ofFlat, hskip]
  rw [hreadings, Reading.ofFlat, List.map_append]
  exact Build.skipsOneMore_ofReadings .flat _ entry reason _

theorem isHarmless_of_flatEntry {e : Key × Value} (he : IsRejected e)
    (hflat : isFlatEntry e = true) : IsHarmless e := by
  intro before after hdetect _
  rw [Shape.detect_eq_flat_iff] at hdetect
  have hmore : (before ++ e :: after).all isFlatEntry = true := by
    rw [List.all_append, Bool.and_eq_true] at hdetect
    simp only [List.all_append, List.all_cons, hdetect, hflat, Bool.and_self]
  exact ⟨_, _, build_of_flat hdetect, build_of_flat hmore,
    Build.skipsOneMore_ofFlat he before after⟩

theorem Leaf.mem_ofEntry {path : List String} {k : Key} {v : Value} {l : Leaf}
    (h : l ∈ Leaf.ofEntry path k v) :
    (path ≠ [] ∧ l.1 = path) ∨ ∃ ws, k.role = .words ws ∧
      (l.1 = path ++ ws ∨ ∃ es, v = .map es ∧ l ∈ Leaf.ofLevel (path ++ ws) es) := by
  rw [Leaf.ofEntry.eq_def] at h
  cases hk : k.role with
  | options => simp [hk] at h
  | description =>
    cases v with
    | text description =>
      by_cases hnil : path = []
      · simp [hk, hnil] at h
      · have hl : l = (path, description) := by simpa [hk, hnil] using h
        exact Or.inl ⟨hnil, by rw [hl]⟩
    | _ => simp [hk] at h
  | words ws =>
    refine Or.inr ⟨ws, rfl, ?_⟩
    cases v with
    | map es => exact Or.inr ⟨es, rfl, by simpa [hk] using h⟩
    | text description =>
      have hl : l = (path ++ ws, description) := by simpa [hk] using h
      exact Or.inl (by rw [hl])
    | null =>
      have hl : l = (path ++ ws, "") := by simpa [hk] using h
      exact Or.inl (by rw [hl])
    | _ => simp [hk] at h
  | other => simp [hk] at h

theorem Leaf.prefix_of_mem {path : List String} {es : Entries} {l : Leaf}
    (h : l ∈ Leaf.ofLevel path es) : path <+: l.1 := by
  induction es using Entries.levelInduction generalizing path with
  | nil => simp [Leaf.ofLevel] at h
  | cons k v rest ihv ihrest =>
    rw [Leaf.ofLevel, List.mem_append] at h
    rcases h with h | h
    · rcases Leaf.mem_ofEntry h with ⟨-, hl⟩ | ⟨ws, -, hl | ⟨es, rfl, hdeep⟩⟩
      · exact hl ▸ List.prefix_rfl
      · exact hl ▸ List.prefix_append path ws
      · exact (List.prefix_append path ws).trans (ihv es rfl hdeep)
    · exact ihrest h

theorem Key.text_same (name : String) (k : Key) :
    (Key.text name).same k = decide (k = .text name) := by
  cases k with
  | float x => cases hx : x.toInt? <;> simp [Key.same, Key.whole?, hx]
  | text s =>
    rw [Bool.eq_iff_iff]
    simp only [Key.same, Key.whole?, beq_iff_eq, decide_eq_true_eq]
    exact eq_comm
  | _ => simp [Key.same, Key.whole?]

/-- A flat dictionary with one command, which a nested reading takes for a level. -/
def oneRecord (name : String) : Entries :=
  [(.text name, .map [(.text "description", .text "")])]

theorem Leaf.ofLevel_oneRecord {name : String} (hname : (Key.text name).role = .words [name]) :
    Leaf.ofLevel [] (oneRecord name) = [([name, "description"], "")] := by
  have hfield : (Key.text "description").role = .words ["description"] := by rfl
  simp [oneRecord, Leaf.ofLevel, Leaf.ofEntry, hname, hfield]

theorem detailAt_oneRecord {name : String} (hname : (Key.text name).role = .words [name])
    {e : Key × Value} (he : e.1.role ≠ .words [name]) :
    (CommandTree.ofReadings (Reading.ofLevel [] (e :: oneRecord name))).detailAt [name] = none := by
  rw [← Option.not_isSome_iff_eq_none, CommandTree.isSome_detailAt_ofReadings,
    Reading.commands_ofLevel]
  rintro ⟨d, hd⟩
  obtain ⟨l, hl, hplace⟩ := List.mem_map.mp hd
  have hpath : l.1 = [name] := congrArg Prod.fst hplace
  rw [Leaf.ofLevel, Leaf.ofLevel_oneRecord hname, List.mem_append, List.mem_singleton] at hl
  rcases hl with hl | rfl
  · obtain ⟨hnil, -⟩ | ⟨ws, hws, hplace⟩ := Leaf.mem_ofEntry hl
    · exact hnil rfl
    · have hprefix : ws <+: [name] := by
        rcases hplace with h | ⟨es, -, h⟩
        · exact (h.symm.trans hpath) ▸ List.prefix_rfl
        · exact hpath ▸ Leaf.prefix_of_mem h
      -- the words of a key are not none, so they are the whole path
      rcases List.prefix_cons_iff.mp hprefix with h | ⟨rest, rfl, h⟩
      · exact (Key.words_of_role hws).1 h
      · rw [List.prefix_nil.mp h] at hws
        exact he hws
  · simp at hpath

/-- An entry that stands out makes some flat dictionary a nested one, and a command gets lost. -/
theorem not_isHarmless_of_not_flatEntry {e : Key × Value} (hflat : isFlatEntry e = false) :
    ¬ IsHarmless e := by
  obtain ⟨name, hname, hone, hkept, he⟩ : ∃ name, (Key.text name).role = .words [name] ∧
      (oneRecord name).all isFlatEntry = true ∧
      ((CommandTree.ofReadings (Reading.ofFlat (oneRecord name))).detailAt [name]).isSome = true ∧
      e.1.role ≠ .words [name] := by
    by_cases ha : e.1.role = .words ["a"]
    · exact ⟨"b", by rfl, by rfl, by rfl, by simp [ha]⟩
    · exact ⟨"a", by rfl, by rfl, by rfl, ha⟩
  intro hharmless
  have hfresh : ∀ x ∈ [] ++ oneRecord name, x.1.same e.1 = false := by
    intro x hx
    rw [List.nil_append, oneRecord, List.mem_singleton] at hx
    rw [hx, Key.text_same, decide_eq_false_iff_not]
    intro hkey
    exact he (hkey ▸ hname)
  obtain ⟨b, c, hb, hc, htree, -⟩ :=
    hharmless [] (oneRecord name) ((Shape.detect_eq_flat_iff _).mpr hone) hfresh
  rw [List.nil_append, build_of_flat hone, Except.ok.injEq] at hb
  rw [List.nil_append, build_of_not_flat (by simp [hflat]), Except.ok.injEq] at hc
  rw [← hb, ← hc, Build.tree_ofReadings, Build.tree_ofReadings] at htree
  rw [← htree, detailAt_oneRecord hname he] at hkept
  simp at hkept

theorem isHarmless_iff_flatEntry {e : Key × Value} (he : IsRejected e) :
    IsHarmless e ↔ isFlatEntry e = true := by
  refine ⟨fun h => ?_, isHarmless_of_flatEntry he⟩
  by_contra hflat
  exact not_isHarmless_of_not_flatEntry (Bool.eq_false_iff.mpr hflat) h

theorem isHarmless_numeric_description :
    IsRejected (.text "show arp", .map [(.text "description", .int 42)]) ∧
      IsHarmless (.text "show arp", .map [(.text "description", .int 42)]) := by
  have h : IsRejected (.text "show arp", .map [(.text "description", .int 42)]) := by
    decide
  exact ⟨h, (isHarmless_iff_flatEntry h).mpr (by rfl)⟩

/-- A number in place of a record takes the command beside it away: its record is read as a level,
and the section of the record as a command. -/
theorem number_hides_command :
    let vlan : Key × Value := (.text "show vlan", .map [(.text "description", .text "VLANs")])
    let bad : Key × Value := (.text "bad", .int 42)
    IsRejected bad ∧ vlan.1.same bad.1 = false ∧ Shape.detect (.map [vlan]) = .ok .flat ∧
      ∃ b c, build (.map [vlan]) none = .ok b ∧ build (.map [vlan, bad]) none = .ok c ∧
        b.tree.commands.map Prod.fst = [["show", "vlan"]] ∧
        c.tree.commands.map Prod.fst = [["show", "vlan", "description"]] := by
  refine ⟨by decide, by rfl, rfl, _, _, rfl, rfl, ?_, ?_⟩ <;> decide +kernel

end SwitchLexicon
