import SwitchLexicon.Proofs.Dictionary.Construct
import SwitchLexicon.Proofs.Tree.Unfold

/-!
The commands of an index as a dictionary of records. A record with all its sections is read as the
entry that it was written from, so the index of the exported dictionary has the same commands. Where
the first index has no dead ends its whole tree comes back.
-/
namespace SwitchLexicon

/-- The name has single spaces between its words and none around them. -/
def Detail.IsTidy (d : Detail) : Prop :=
  Text.unwords (Text.words d.command) = d.command

namespace Reading

theorem isTidy_of_mem {s : Shape} {raw : Value} {rs : List Reading}
    (h : ofDictionary s raw = .ok rs) : ∀ c ∈ rs.filterMap command?, c.2.IsTidy := by
  have hsource : ∀ (s : Source) (c : List String × Detail), s.command? = some c → c.2.IsTidy := by
    rintro s ⟨path, d⟩ hc
    obtain ⟨name, ⟨-, -, hrecord⟩, -⟩ := (s.command?_eq_some_iff path d).mp hc
    rw [Detail.IsTidy, Detail.command_of_ofRecord hrecord, Text.words_unwords_words]
  intro c hc
  cases s <;> cases raw <;> simp only [ofDictionary, Except.ok.injEq, reduceCtorEq] at h
  · rw [← h, commands_ofFlat] at hc
    obtain ⟨s, -, hs⟩ := List.mem_filterMap.mp hc
    exact hsource s c hs
  · rw [← h, commands_ofRecords] at hc
    obtain ⟨s, -, hs⟩ := List.mem_filterMap.mp hc
    exact hsource s c hs
  · rw [← h, commands_ofLevel] at hc
    obtain ⟨l, hl, rfl⟩ := List.mem_map.mp hc
    obtain ⟨-, htokens⟩ := Leaf.tokens_of_mem (by simp) hl
    have hwords : Text.words (Text.unwords l.1) = l.1 :=
      Text.words_unwords fun w hw => (htokens w hw).word
    exact congrArg Text.unwords hwords

theorem ofRecord_toValue {d : Detail} (htidy : d.IsTidy) (hpath : tokenize d.command ≠ [])
    (position : Nat) : ofRecord position d.toValue = .command (tokenize d.command) d := by
  have hrecord : ofRecord position d.toValue = ofCommand (.text d.command) d.toValue := rfl
  have hblank : Text.isBlankText d.command = false := by
    rwa [← Bool.not_eq_true, ← tokenize_eq_nil_iff]
  rw [Detail.IsTidy] at htidy
  rw [hrecord, ofCommand, hblank, htidy, Detail.ofRecord_toValue]
  rfl

theorem ofRecords_toValue {ds : List Detail}
    (h : ∀ d ∈ ds, d.IsTidy ∧ tokenize d.command ≠ []) (position : Nat) :
    ofRecords position (ds.map Detail.toValue) =
      ds.map fun d => .command (tokenize d.command) d := by
  induction ds generalizing position with
  | nil => rfl
  | cons d ds ih =>
    obtain ⟨htidy, hpath⟩ := h d (by simp)
    rw [List.map_cons, ofRecords, ofRecord_toValue htidy hpath,
      ih fun e he => h e (List.mem_cons_of_mem _ he), List.map_cons]

end Reading

namespace CommandTree

theorem detailAt_ofReadings_commands {t : CommandTree} (ht : t.WellBuilt) {rs : List Reading}
    (hrs : rs.filterMap Reading.command? = t.commands) (p : List String) :
    (ofReadings rs).detailAt p = t.detailAt p := by
  have hsound : ∀ d, (ofReadings rs).detailAt p = some d → t.detailAt p = some d := by
    intro d hd
    have hmem := mem_of_detailAt_ofReadings hd
    rw [hrs] at hmem
    exact ((mem_commands ht.ordered p d).mp hmem).2
  cases hd : (ofReadings rs).detailAt p with
  | some d => rw [hsound d hd]
  | none =>
    cases he : t.detailAt p with
    | none => rfl
    | some e =>
      have hmem : (p, e) ∈ rs.filterMap Reading.command? := by
        rw [hrs]
        exact (mem_commands ht.ordered p e).mpr ⟨(ht.named p e he).1, he⟩
      have hsome := (isSome_detailAt_ofReadings rs p).mpr ⟨e, hmem⟩
      simp [hd] at hsome

/-- Without dead ends the commands of a tree make all of its places. -/
theorem ofReadings_commands {t : CommandTree} (ht : t.WellBuilt) (hon : t.LeadsOn)
    {rs : List Reading} (hrs : rs.filterMap Reading.command? = t.commands)
    (hopened : rs.filterMap Reading.opened? = []) : ofReadings rs = t := by
  refine (ordered_ofReadings rs).eq_of_places ht.ordered (fun p => ?_)
    (detailAt_ofReadings_commands ht hrs)
  rw [isSome_get?_ofReadings, hrs, hopened]
  constructor
  · rintro (rfl | ⟨⟨q, d⟩, hc, hpq⟩ | ⟨q, hq, -⟩)
    · rw [get?_nil]
      rfl
    · have hd := ((mem_commands ht.ordered q d).mp hc).2
      exact isSome_get?_of_prefix hpq (isSome_get?_of_detailAt hd)
    · simp at hq
  · intro hp
    by_cases hnil : p = []
    · exact Or.inl hnil
    · obtain ⟨q, d, hpq, hd⟩ := hon p hnil hp
      have hc := (mem_commands ht.ordered q d).mpr ⟨(ht.named q d hd).1, hd⟩
      exact Or.inr (Or.inl ⟨(q, d), hc, hpq⟩)

end CommandTree

namespace Index

def exported (i : Index) : Value :=
  .list (i.commands.map Detail.toValue)

theorem commands_eq {i : Index} {t : CommandTree} (hi : i.tree = some t) :
    i.commands = t.commands.map Prod.snd := by
  simp [commands, entries, hi, Function.comp_def]

theorem entries_congr {i j : Index} {s t : CommandTree} (hi : i.tree = some s)
    (hj : j.tree = some t) (h : t.commands = s.commands) : j.entries = i.entries := by
  rw [entries, entries, hi, hj]
  dsimp only
  rw [h]

/-- The readings of an exported dictionary: the commands of the tree in their order. -/
theorem readings_exported {raw : Value} {shape : Option Shape} {b : Build}
    (hb : build raw shape = .ok b) :
    Reading.ofRecords 0 ((ofBuild b).commands.map Detail.toValue) =
      b.tree.commands.map fun c => .command c.1 c.2 := by
  have hwell := wellBuilt_of_build hb
  have hnamed : ∀ c ∈ b.tree.commands, c.2.IsTidy ∧ c.1 ≠ [] ∧ tokenize c.2.command = c.1 := by
    rintro ⟨p, d⟩ hc
    have hd := ((CommandTree.mem_commands hwell.ordered p d).mp hc).2
    refine ⟨?_, hwell.named p d hd⟩
    obtain ⟨s, rs, -, hrs, rfl⟩ := build_eq_ok_iff.mp hb
    exact Reading.isTidy_of_mem hrs (p, d) (CommandTree.mem_of_detailAt_ofReadings hd)
  have hproper : ∀ d ∈ b.tree.commands.map Prod.snd, d.IsTidy ∧ tokenize d.command ≠ [] := by
    intro d hd
    obtain ⟨c, hc, rfl⟩ := List.mem_map.mp hd
    obtain ⟨htidy, hne, hpath⟩ := hnamed c hc
    exact ⟨htidy, hpath ▸ hne⟩
  rw [commands_eq rfl, Reading.ofRecords_toValue hproper, List.map_map]
  exact List.map_congr_left fun c hc => by simp [(hnamed c hc).2.2]

theorem text_of_mem_exported (i : Index) :
    ∀ source ∈ Source.ofDictionary .records i.exported, source.command.text? ≠ none := by
  intro source hsource
  obtain ⟨v, hv, hrecord⟩ := List.mem_filterMap.mp hsource
  obtain ⟨d, -, rfl⟩ := List.mem_map.mp hv
  obtain rfl := Option.some.inj hrecord
  exact Option.some_ne_none _

theorem export_import {raw : Value} {shape : Option Shape} {i : Index}
    (h : (ofValue raw shape).result = .ok i) :
    ∃ j, (ofValue i.exported none).result = .ok j ∧ j.skipped = [] ∧ j.commands = i.commands ∧
      ∀ s, Shape.chosen raw shape = .ok s → s ≠ .nested →
        j.nodeCount = i.nodeCount ∧
          ∀ line cursor, j.suggest line cursor = i.suggest line cursor := by
  obtain ⟨b, hb, hnone, rfl, -⟩ := exists_build_of_ofValue h
  have hwell := wellBuilt_of_build hb
  have hreadings := readings_exported hb
  let rs : List Reading := b.tree.commands.map fun c => .command c.1 c.2
  have hcommands : rs.filterMap Reading.command? = b.tree.commands := by
    simp [rs, Reading.command?, Function.comp_def]
  have hopened : rs.filterMap Reading.opened? = [] := by
    simp [rs, Reading.opened?]
  have hskipped : rs.filterMap Reading.skip? = [] := by
    simp [rs, Reading.skip?]
  have hbuild : build (ofBuild b).exported none = .ok (.ofReadings .records rs) :=
    build_eq_ok_iff.mpr ⟨.records, rs, rfl, congrArg Except.ok hreadings, rfl⟩
  -- Every way of the second tree is one of the first.
  have hdepth : (CommandTree.ofReadings rs).depth ≤ Stack.levels levelCalls := by
    have hfirst := (CommandTree.depth_le_iff hwell.ordered _).mp (depth_le_of_not_meets hb hnone)
    refine (CommandTree.depth_le_iff (CommandTree.ordered_ofReadings rs) _).mpr fun p hp => ?_
    rw [CommandTree.isSome_get?_ofReadings, hcommands, hopened] at hp
    rcases hp with rfl | ⟨⟨q, d⟩, hc, hpq⟩ | ⟨q, hq, -⟩
    · exact Nat.zero_le _
    · have hd := ((CommandTree.mem_commands hwell.ordered q d).mp hc).2
      exact hpq.length_le.trans (hfirst q (CommandTree.isSome_get?_of_detailAt hd))
    · cases hq
  have hmeets := not_meets_of_texts hbuild rfl (by decide) (text_of_mem_exported _) hdepth
  refine ⟨ofBuild (.ofReadings .records rs), by rw [ofValue_of_not_meets hbuild hmeets],
    hskipped, ?_, ?_⟩
  · have hlist : (CommandTree.ofReadings rs).commands = b.tree.commands :=
      CommandTree.commands_congr (CommandTree.ordered_ofReadings rs) hwell.ordered
        (CommandTree.detailAt_ofReadings_commands hwell hcommands)
    exact congrArg (List.map Prod.snd) (entries_congr rfl rfl hlist)
  · intro s hs hne
    have htree : CommandTree.ofReadings rs = b.tree :=
      CommandTree.ofReadings_commands hwell (leadsOn_of_build hb hs hne) hcommands hopened
    have hsame : (ofBuild (.ofReadings .records rs)).tree = (ofBuild b).tree :=
      congrArg some htree
    exact ⟨by rw [nodeCount, nodeCount, hsame],
      fun line cursor => by rw [suggest, suggest, hsame]⟩

def arpEntries : Entries :=
  [(.text "SHOW  Arp", .text "Address table"),
    (.text "clear arp", .ofEntries [("parameters", .list [.ofEntries [("name", .text "ip")]])]),
    (.text "arp", .ofEntries [("description", .int 42)])]

theorem export_import_arp :
    ∃ i j, (ofValue (.map arpEntries) none).result = .ok i ∧ i.skipped = ["arp"] ∧
      i.commands.map Detail.command = ["clear arp", "SHOW Arp"] ∧
      (ofValue i.exported none).result = .ok j ∧ j.skipped = [] ∧ j.commands = i.commands ∧
      j.nodeCount = i.nodeCount ∧ j.suggest "show A" none = i.suggest "show A" none := by
  have h : (ofValue (.map arpEntries) none).result =
      .ok (ofBuild (.ofReadings .flat (Reading.ofFlat arpEntries))) :=
    result_ofValue_of_isOk rfl (by decide +kernel)
  obtain ⟨j, hj, hskipped, hcommands, hflat⟩ := export_import h
  obtain ⟨hcount, hsuggest⟩ := hflat .flat rfl (by decide)
  exact ⟨_, j, h, by rfl, by decide +kernel, hj, hskipped, hcommands, hcount,
    hsuggest _ _⟩

end Index

end SwitchLexicon
