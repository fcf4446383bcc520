import Mathlib.Data.Finset.Card
import Mathlib.Data.Finset.Union
import Mathlib.Data.List.Infix
import SwitchLexicon.Proofs.Dictionary.Construct
import SwitchLexicon.Proofs.Dictionary.Skipped

/-!
The statistics of an index against the dictionary. The nodes of a tree are its places, each counted
once, so overlapping ways and repeated spellings do not count twice: below the root there is one
node for each beginning of an accepted command, and one command for each path.
-/
namespace SwitchLexicon

namespace CommandTree

mutual

def places : CommandTree → List (List String)
  | .node _ cs => [] :: placesAll cs

def placesAll : Children → List (List String)
  | [] => []
  | (w, t) :: rest => t.places.map (w :: ·) ++ placesAll rest

end

mutual

theorem length_places : (t : CommandTree) → t.places.length = t.count
  | .node d cs => by rw [places, count, List.length_cons, length_placesAll cs, Nat.add_comm]

theorem length_placesAll : (cs : Children) → (placesAll cs).length = countAll cs
  | [] => by rw [placesAll, countAll, List.length_nil]
  | (w, t) :: rest => by
    rw [placesAll, countAll, List.length_append, List.length_map, length_places t,
      length_placesAll rest]

end

theorem placesAll_eq (cs : Children) :
    placesAll cs = cs.flatMap fun c => c.2.places.map (c.1 :: ·) := by
  induction cs with
  | nil => simp [placesAll]
  | cons c cs ih =>
    obtain ⟨w, t⟩ := c
    simp [placesAll, ih]

theorem Ordered.mem_places {t : CommandTree} (ht : t.Ordered) (p : List String) :
    p ∈ t.places ↔ (t.get? p).isSome = true := by
  induction ht generalizing p with
  | @node d cs sorted below ih =>
    rw [places, placesAll_eq, List.mem_cons, List.mem_flatMap]
    cases p with
    | nil => simp [get?_nil]
    | cons w ws =>
      rw [get?_cons, Option.isSome_bind, Option.any_eq_true]
      constructor
      · rintro (hnil | ⟨c, hc, hp⟩)
        · cases hnil
        · obtain ⟨q, hq, hcons⟩ := List.mem_map.mp hp
          obtain ⟨rfl, rfl⟩ := List.cons.inj hcons
          exact ⟨c.2, lookup_of_sorted sorted hc, (ih c hc q).mp hq⟩
      · rintro ⟨s, hs, hws⟩
        have hmem : (w, s) ∈ cs := Children.mem_of_lookup hs
        exact Or.inr ⟨(w, s), hmem, List.mem_map_of_mem ((ih _ hmem ws).mpr hws)⟩

theorem Ordered.nodup_places {t : CommandTree} (ht : t.Ordered) : t.places.Nodup := by
  induction ht with
  | @node d cs sorted below ih =>
    rw [places, placesAll_eq, List.nodup_cons]
    refine ⟨by simp, List.nodup_flatMap.mpr ⟨fun c hc => ?_, ?_⟩⟩
    · exact (ih c hc).map fun p q hpq => (List.cons.inj hpq).2
    · -- the first words of two children differ
      rw [List.pairwise_map] at sorted
      refine sorted.imp fun {a b} hlt p hpa hpb => ?_
      obtain ⟨q, -, rfl⟩ := List.mem_map.mp hpa
      obtain ⟨r, -, hcons⟩ := List.mem_map.mp hpb
      exact hlt.ne (List.cons.inj hcons).1.symm

theorem Ordered.count_eq_card {t : CommandTree} (ht : t.Ordered) {s : Finset (List String)}
    (h : ∀ p, p ∈ s ↔ (t.get? p).isSome = true) : t.count = s.card := by
  have hplaces : t.places.toFinset = s := by
    ext p
    rw [List.mem_toFinset, ht.mem_places, h]
  rw [← hplaces, List.toFinset_card_of_nodup ht.nodup_places, length_places]

theorem Ordered.length_commands_eq_card {t : CommandTree} (ht : t.Ordered)
    {s : Finset (List String)} (h : ∀ p, p ∈ s ↔ p ≠ [] ∧ (t.detailAt p).isSome = true) :
    t.commands.length = s.card := by
  have hnodup : (t.commands.map Prod.fst).Nodup :=
    List.pairwise_map.mpr ((commands_sorted ht).imp fun hlt => hlt.ne)
  have hpaths : (t.commands.map Prod.fst).toFinset = s := by
    ext p
    rw [List.mem_toFinset, List.mem_map, h, Option.isSome_iff_exists]
    constructor
    · rintro ⟨⟨q, d⟩, hc, rfl⟩
      obtain ⟨hne, hd⟩ := (mem_commands ht q d).mp hc
      exact ⟨hne, d, hd⟩
    · rintro ⟨hne, d, hd⟩
      exact ⟨(p, d), (mem_commands ht p d).mpr ⟨hne, hd⟩, rfl⟩
  rw [← hpaths, List.toFinset_card_of_nodup hnodup, List.length_map]

end CommandTree

def Source.paths (sources : List Source) : Finset (List String) :=
  ((sources.filter fun s => decide s.IsAccepted).filterMap fun s =>
    s.command.text?.map tokenize).toFinset

/-- What the paths begin with; nothing at all is no beginning. -/
def beginnings (paths : Finset (List String)) : Finset (List String) :=
  (paths.biUnion fun p => p.inits.toFinset).erase []

theorem mem_beginnings {paths : Finset (List String)} {p : List String} :
    p ∈ beginnings paths ↔ p ≠ [] ∧ ∃ q ∈ paths, p <+: q := by
  simp [beginnings]

namespace Source

theorem mem_paths {sources : List Source} {p : List String} :
    p ∈ paths sources ↔ ∃ s ∈ sources, ∃ d, s.command? = some (p, d) := by
  simp only [paths, List.mem_toFinset, List.mem_filterMap, List.mem_filter, decide_eq_true_eq]
  constructor
  · rintro ⟨s, ⟨hs, name, d, haccepts⟩, hp⟩
    rw [haccepts.1] at hp
    exact ⟨s, hs, d, (s.command?_eq_some_iff p d).mpr ⟨name, haccepts, Option.some.inj hp⟩⟩
  · rintro ⟨s, hs, d, hd⟩
    obtain ⟨name, haccepts, hname⟩ := (s.command?_eq_some_iff p d).mp hd
    refine ⟨s, ⟨hs, name, d, haccepts⟩, ?_⟩
    rw [haccepts.1, ← hname]
    rfl

theorem mem_paths_of_commands {rs : List Reading} {sources : List Source}
    (h : rs.filterMap Reading.command? = sources.filterMap command?) {p : List String} :
    p ∈ paths sources ↔ ∃ d, (p, d) ∈ rs.filterMap Reading.command? := by
  rw [mem_paths, h]
  simp only [List.mem_filterMap]
  constructor
  · rintro ⟨s, hs, d, hd⟩
    exact ⟨d, s, hs, hd⟩
  · rintro ⟨d, s, hs, hd⟩
    exact ⟨s, hs, d, hd⟩

theorem ne_nil_of_mem_paths {sources : List Source} {p : List String}
    (h : p ∈ paths sources) : p ≠ [] := by
  obtain ⟨s, -, d, hd⟩ := mem_paths.mp h
  exact (isProper_of_command? hd).ne_nil

end Source

namespace CommandTree

variable {rs : List Reading} {sources : List Source}

theorem length_commands_ofReadings
    (h : rs.filterMap Reading.command? = sources.filterMap Source.command?) :
    (ofReadings rs).commands.length = (Source.paths sources).card := by
  refine (ordered_ofReadings rs).length_commands_eq_card fun p => ?_
  rw [isSome_detailAt_ofReadings, ← Source.mem_paths_of_commands h]
  exact (and_iff_right_of_imp Source.ne_nil_of_mem_paths).symm

theorem count_ofReadings (h : rs.filterMap Reading.command? = sources.filterMap Source.command?)
    (hopened : rs.filterMap Reading.opened? = []) :
    (ofReadings rs).count = 1 + (beginnings (Source.paths sources)).card := by
  have hroot : [] ∉ beginnings (Source.paths sources) := fun hnil => (mem_beginnings.mp hnil).1 rfl
  rw [Nat.add_comm, ← Finset.card_insert_of_notMem hroot]
  refine (ordered_ofReadings rs).count_eq_card fun p => ?_
  rw [Finset.mem_insert, isSome_get?_ofReadings, hopened, mem_beginnings]
  constructor
  · rintro (hnil | ⟨-, q, hq, hpq⟩)
    · exact Or.inl hnil
    · obtain ⟨d, hd⟩ := (Source.mem_paths_of_commands h).mp hq
      exact Or.inr (Or.inl ⟨(q, d), hd, hpq⟩)
  · rintro (hnil | ⟨⟨q, d⟩, hd, hpq⟩ | ⟨q, hq, -⟩)
    · exact Or.inl hnil
    · by_cases hp : p = []
      · exact Or.inl hp
      · exact Or.inr ⟨hp, q, (Source.mem_paths_of_commands h).mpr ⟨d, hd⟩, hpq⟩
    · cases hq

end CommandTree

namespace Value

def sources : Shape → Value → List Source
  | .flat, .map es => Source.ofEntries es
  | .records, .list rs => Source.ofRecords rs
  | _, _ => []

def refusals : Shape → Value → Nat
  | .flat, .map es => es.countP fun e => !entryAccepted e
  | .records, .list rs => rs.countP fun v => !recordAccepted v
  | _, _ => 0

end Value

theorem Reading.commands_ofDictionary {s : Shape} {raw : Value} {rs : List Reading}
    (h : ofDictionary s raw = .ok rs) (hs : s ≠ .nested) :
    rs.filterMap command? = (raw.sources s).filterMap Source.command? := by
  cases s <;> cases raw <;> simp only [ofDictionary, Except.ok.injEq, reduceCtorEq] at h
  · rw [← h, commands_ofFlat, Value.sources]
  · rw [← h, commands_ofRecords, Value.sources]
  · exact absurd rfl hs

namespace Refused

theorem length_reports_ofRecords (position : Nat) (vs : List Value) :
    (reports (ofRecords position vs)).length = vs.countP fun v => !recordAccepted v := by
  induction vs generalizing position with
  | nil => rfl
  | cons v vs ih =>
    rw [ofRecords, reports_append, List.length_append, ih, List.countP_cons, Nat.add_comm]
    cases recordAccepted v <;> rfl

theorem length_reports {s : Shape} (hs : s ≠ .nested) (raw : Value) :
    (reports (raw.refused s)).length = raw.refusals s := by
  cases s with
  | flat =>
    cases raw with
    | map es =>
      have hreported : ∀ fs : Entries, (fs.map fun e => entry e.1 e.2).filter isReported =
          fs.map fun e => entry e.1 e.2 := by
        intro fs
        refine List.filter_eq_self.mpr fun r hr => ?_
        obtain ⟨e, -, rfl⟩ := List.mem_map.mp hr
        rfl
      rw [Value.refused, reports, hreported, List.length_map, List.length_map, Value.refusals,
        List.countP_eq_length_filter]
    | _ => rfl
  | records =>
    cases raw with
    | list vs => exact length_reports_ofRecords 0 vs
    | _ => rfl
  | nested => exact absurd rfl hs

end Refused

theorem Build.length_skipped {s : Shape} {raw : Value} {rs : List Reading}
    (h : Reading.ofDictionary s raw = .ok rs) (hs : s ≠ .nested) :
    (ofReadings s rs).skipped.length = raw.refusals s := by
  have htakes : s.takes raw = true := by
    cases s <;> cases raw <;> simp_all [Shape.takes, Reading.ofDictionary]
  obtain ⟨readings, kept, hreadings, -, -, hreports⟩ := Reading.siftedBy_ofDictionary htakes
  obtain rfl : readings = rs := Except.ok.inj (hreadings.symm.trans h)
  rw [skipped_ofReadings, List.length_map, ← hreports, Refused.length_reports hs]

namespace Index

theorem stats_count_accepted {raw : Value} {shape : Option Shape} {s : Shape} {i : Index}
    (hs : Shape.chosen raw shape = .ok s) (hne : s ≠ .nested)
    (h : (ofValue raw shape).result = .ok i) :
    let paths := Source.paths (raw.sources s)
    i.stats =
      { enabled := true
        commands := paths.card
        nodes := 1 + (beginnings paths).card
        skipped := raw.refusals s
        error := "" } := by
  obtain ⟨b, hb, -, rfl, -⟩ := exists_build_of_ofValue h
  obtain ⟨r, rs, hr, hrs, rfl⟩ := build_eq_ok_iff.mp hb
  obtain rfl : r = s := Except.ok.inj (hr.symm.trans hs)
  have hcommands := Reading.commands_ofDictionary hrs hne
  have hopened := Reading.opened_ofDictionary hrs hne
  have hsize : (ofBuild (.ofReadings r rs)).size =
      (CommandTree.ofReadings rs).commands.length := List.length_map _
  have hnodes : (ofBuild (.ofReadings r rs)).nodeCount = (CommandTree.ofReadings rs).count := rfl
  rw [stats, hsize, hnodes, CommandTree.length_commands_ofReadings hcommands,
    CommandTree.count_ofReadings hcommands hopened]
  exact congrArg (Stats.mk true _ _ · "") (Build.length_skipped hrs hne)

/-- Two spellings of one command, one command on the way to another, and an entry without a name. -/
def overlappingEntries : Entries :=
  [(.text "show ip interface", .text "x"), (.text "SHOW  Vlan", .text "y"), (.text " ", .null),
    (.text "show vlan", .null), (.text "show", .null)]

theorem stats_count_accepted_overlapping :
    ∃ i, (ofValue (.map overlappingEntries) (some .flat)).result = .ok i ∧
      i.stats = ⟨true, 3, 5, 1, ""⟩ := by
  have h : (ofValue (.map overlappingEntries) (some .flat)).result =
      .ok (ofBuild (.ofReadings .flat (Reading.ofFlat overlappingEntries))) :=
    result_ofValue_of_isOk rfl (by decide +kernel)
  have hpaths : Source.paths (Value.sources .flat (.map overlappingEntries)) =
      {["show", "ip", "interface"], ["show", "vlan"], ["show"]} := by
    decide
  have hrefusals : Value.refusals .flat (.map overlappingEntries) = 1 := by rfl
  refine ⟨_, h, (stats_count_accepted (s := .flat) rfl (by decide) h).trans ?_⟩
  rw [hpaths, hrefusals]
  rfl

end Index

end SwitchLexicon
