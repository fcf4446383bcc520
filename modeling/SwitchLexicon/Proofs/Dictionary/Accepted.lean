import SwitchLexicon.Proofs.Detail.Record
import SwitchLexicon.Proofs.Dictionary.Readings
import SwitchLexicon.Proofs.Tree.Path

/-!
Dictionaries that spell each command in full: mappings from commands to records, and lists of
records that name their commands. Their tree has the ways to the accepted entries and no others, and
at the end of a way stands what the last accepted entry for it says. Both forms of a dictionary give
the same tree.
-/
namespace SwitchLexicon

structure Source where
  command : Value
  record : Value

namespace Source

def Accepts (s : Source) (name : String) (d : Detail) : Prop :=
  s.command = .text name ∧ (∃ c ∈ name.toList, Text.isBlank c = false) ∧
    Detail.ofRecord (Text.unwords (Text.words name)) s.record = .ok d

def command? (s : Source) : Option (List String × Detail) :=
  (Reading.ofCommand s.command s.record).command?

def ofEntries (es : Entries) : List Source :=
  es.map fun e => ⟨e.1.toValue, e.2⟩

def ofRecord? : Value → Option Source
  | .map fields => some ⟨(Entries.get? "command" fields).getD .null, .map fields⟩
  | _ => none

def ofRecords (rs : List Value) : List Source :=
  rs.filterMap ofRecord?

theorem command?_eq_some_iff (s : Source) (path : List String) (d : Detail) :
    s.command? = some (path, d) ↔ ∃ name, s.Accepts name d ∧ tokenize name = path := by
  obtain ⟨command, record⟩ := s
  cases command with
  | text name =>
    simp only [command?, Reading.ofCommand, Accepts, Value.text.injEq,
      ← Text.isBlankText_eq_false_iff]
    cases hblank : Text.isBlankText name with
    | true => simp [Reading.command?, hblank]
    | false =>
      cases hrecord : Detail.ofRecord (Text.unwords (Text.words name)) record with
      | error e => simp [Reading.command?, hblank, hrecord]
      | ok e => simp [Reading.command?, hblank, hrecord, and_comm]
  | _ => simp [command?, Reading.ofCommand, Reading.command?, Accepts]

end Source

/-- The tree shows the accepted sources, a later one in place of an earlier one at its path. -/
structure CommandTree.Shows (sources : List Source) (t : CommandTree) : Prop where
  place_iff : ∀ p, (t.get? p).isSome = true ↔
    p = [] ∨ ∃ s ∈ sources, ∃ name d, s.Accepts name d ∧ p <+: tokenize name
  detail_iff : ∀ p d, t.detailAt p = some d ↔
    ∃ before s after name, sources = before ++ s :: after ∧ s.Accepts name d ∧
      tokenize name = p ∧ d.command = Text.unwords (Text.words name) ∧
      ∀ x ∈ after, ∀ other e, x.Accepts other e → tokenize other ≠ p

theorem CommandTree.shows_ofReadings {rs : List Reading} {sources : List Source}
    (hcommands : rs.filterMap Reading.command? = sources.filterMap Source.command?)
    (hopened : rs.filterMap Reading.opened? = []) : (ofReadings rs).Shows sources where
  place_iff p := by
    rw [isSome_get?_ofReadings, hcommands, hopened]
    simp only [List.mem_filterMap, List.not_mem_nil, false_and, exists_false, or_false]
    refine or_congr Iff.rfl ⟨?_, ?_⟩
    · rintro ⟨⟨path, d⟩, ⟨s, hs, hcommand⟩, hp⟩
      obtain ⟨name, haccepts, rfl⟩ := (s.command?_eq_some_iff path d).mp hcommand
      exact ⟨s, hs, name, d, haccepts, hp⟩
    · rintro ⟨s, hs, name, d, haccepts, hp⟩
      have hcommand := (s.command?_eq_some_iff _ d).mpr ⟨name, haccepts, rfl⟩
      exact ⟨(tokenize name, d), ⟨s, hs, hcommand⟩, hp⟩
  detail_iff p d := by
    rw [detailAt_ofReadings, hcommands, findSome?_entryFor_eq_some_iff]
    constructor
    · rintro ⟨before, s, after, hsplit, hs, hafter⟩
      obtain ⟨name, haccepts, hname⟩ := (s.command?_eq_some_iff p d).mp hs
      refine ⟨before, s, after, name, hsplit, haccepts, hname,
        Detail.command_of_ofRecord haccepts.2.2, fun x hx other e he hother => ?_⟩
      exact hafter x hx e ((x.command?_eq_some_iff p e).mpr ⟨other, he, hother⟩)
    · rintro ⟨before, s, after, name, hsplit, haccepts, hname, -, hafter⟩
      refine ⟨before, s, after, hsplit, (s.command?_eq_some_iff p d).mpr ⟨name, haccepts, hname⟩,
        fun x hx e he => ?_⟩
      obtain ⟨other, hother, hpath⟩ := (x.command?_eq_some_iff p e).mp he
      exact hafter x hx other e hother hpath

namespace Reading

theorem opened?_ofCommand (command record : Value) : (ofCommand command record).opened? = none := by
  cases command with
  | text name =>
    rw [ofCommand]
    split
    · rfl
    · split <;> rfl
  | _ => rfl

theorem opened?_ofRecord (position : Nat) (record : Value) :
    (ofRecord position record).opened? = none := by
  cases record with
  | map fields => exact opened?_ofCommand _ _
  | _ => rfl

theorem command?_ofRecord (position : Nat) (record : Value) :
    (ofRecord position record).command? = (Source.ofRecord? record).bind Source.command? := by
  cases record with
  | map fields => rfl
  | _ => rfl

theorem commands_ofFlat (es : Entries) :
    (ofFlat es).filterMap command? = (Source.ofEntries es).filterMap Source.command? := by
  simp only [ofFlat, Source.ofEntries, List.filterMap_map]
  rfl

theorem opened_ofFlat (es : Entries) : (ofFlat es).filterMap opened? = [] := by
  simp [ofFlat, opened?_ofCommand]

theorem commands_ofRecords (position : Nat) (rs : List Value) :
    (ofRecords position rs).filterMap command? =
      (Source.ofRecords rs).filterMap Source.command? := by
  rw [Source.ofRecords, List.filterMap_filterMap]
  induction rs generalizing position with
  | nil => rfl
  | cons r rs ih => simp only [ofRecords, List.filterMap_cons, command?_ofRecord, ih]

theorem opened_ofRecords (position : Nat) (rs : List Value) :
    (ofRecords position rs).filterMap opened? = [] := by
  induction rs generalizing position with
  | nil => rfl
  | cons r rs ih => simp only [ofRecords, List.filterMap_cons, opened?_ofRecord, ih]

end Reading

def sectionsOf : Value → Option Entries
  | .map fields => some fields
  | .text description => some [(.text "description", .text description)]
  | .null => some []
  | _ => none

theorem Detail.ofRecord_sections {v : Value} {fields : Entries} (h : sectionsOf v = some fields)
    (name : String) : ofRecord name (.map fields) = ofRecord name v := by
  cases v with
  | map es =>
    rw [sectionsOf, Option.some.injEq] at h
    rw [h]
  | text description =>
    rw [sectionsOf, Option.some.injEq] at h
    rw [← h, ofRecord_description]
  | null =>
    rw [sectionsOf, Option.some.injEq] at h
    rw [← h, ofRecord_nothing]
  | _ => simp [sectionsOf] at h

/-- The entry of a mapping as a record that names its command; what is no record stays as it is. -/
def recordOf (e : Key × Value) : Value :=
  match sectionsOf e.2 with
  | some fields => .map (Entries.put "command" e.1.toValue fields)
  | none => e.2

namespace Reading

theorem ofCommand_congr (command : Value) {record other : Value}
    (h : ∀ name, Detail.ofRecord name record = Detail.ofRecord name other) :
    ofCommand command record = ofCommand command other := by
  cases command with
  | text name => simp only [ofCommand, h]
  | _ => rfl

theorem apply_ofCommand_of_error {command record : Value} (t : CommandTree)
    (h : ∀ name, ∃ e, Detail.ofRecord name record = .error e) :
    (ofCommand command record).apply t = t := by
  cases command with
  | text name =>
    obtain ⟨e, he⟩ := h (Text.unwords (Text.words name))
    simp only [ofCommand, he]
    split <;> rfl
  | _ => rfl

theorem apply_recordOf (t : CommandTree) (position : Nat) (e : Key × Value) :
    (ofRecord position (recordOf e)).apply t = (ofCommand e.1.toValue e.2).apply t := by
  cases h : sectionsOf e.2 with
  | some fields =>
    have hrecord : ofRecord position (recordOf e) = ofCommand e.1.toValue e.2 := by
      simp only [recordOf, h, ofRecord, Entries.get?_put_self, Option.getD_some]
      refine ofCommand_congr _ fun name => ?_
      rw [Detail.ofRecord_put, Detail.ofRecord_sections h]
    rw [hrecord]
  | none =>
    -- such a value is refused as a record, and it is no mapping either
    obtain ⟨k, v⟩ := e
    have herror : ∀ name, ∃ e, Detail.ofRecord name v = .error e := by
      intro name
      cases v <;> simp_all [sectionsOf, Detail.ofRecord]
    rw [apply_ofCommand_of_error t herror]
    cases v <;> simp_all [sectionsOf, recordOf, ofRecord, Reading.apply]

theorem foldl_recordOf (t : CommandTree) (position : Nat) (es : Entries) :
    (ofRecords position (es.map recordOf)).foldl Reading.apply t =
      (ofFlat es).foldl Reading.apply t := by
  induction es generalizing t position with
  | nil => rfl
  | cons e es ih =>
    simp only [List.map_cons, ofRecords, List.foldl_cons, ofFlat, apply_recordOf]
    exact ih _ (position + 1)

end Reading

theorem build_shows_accepted :
    (∀ es : Entries, ∃ b, build (.map es) (some .flat) = .ok b ∧
      b.tree.Shows (Source.ofEntries es)) ∧
    (∀ rs : List Value, ∃ b, build (.list rs) (some .records) = .ok b ∧
      b.tree.Shows (Source.ofRecords rs)) ∧
    ∀ es : Entries, ∃ b c, build (.map es) (some .flat) = .ok b ∧
      build (.list (es.map recordOf)) (some .records) = .ok c ∧ b.tree = c.tree := by
  refine ⟨fun es => ⟨.ofReadings .flat (Reading.ofFlat es), rfl, ?_⟩,
    fun rs => ⟨.ofReadings .records (Reading.ofRecords 0 rs), rfl, ?_⟩,
    fun es => ⟨.ofReadings .flat (Reading.ofFlat es),
      .ofReadings .records (Reading.ofRecords 0 (es.map recordOf)), rfl, rfl, ?_⟩⟩
  · exact CommandTree.shows_ofReadings (Reading.commands_ofFlat es) (Reading.opened_ofFlat es)
  · exact CommandTree.shows_ofReadings (Reading.commands_ofRecords 0 rs)
      (Reading.opened_ofRecords 0 rs)
  · exact (Reading.foldl_recordOf .empty 0 es).symm

end SwitchLexicon
