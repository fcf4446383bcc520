import SwitchLexicon.Proofs.Dictionary.Construct
import SwitchLexicon.Proofs.Dictionary.Nested

/-!
Entries that make no sense. A dictionary is sifted into what is read and what is refused: taking out
the refused entries changes nothing in the tree, and every one of them is reported once, in the
order in which they are met. Only reserved keys without a meaning go unreported. An entry that
cannot be reported, since it is too deep or too long to be shown, ends the building of the
dictionary.
-/
namespace SwitchLexicon

namespace Shape

def takes : Shape → Value → Bool
  | .records, .list _ => true
  | .flat, .map _ => true
  | .nested, .map _ => true
  | _, _ => false

def mismatch : Shape → BuildError
  | .records => .recordsNotList
  | .flat => .flatNotMapping
  | .nested => .nestedNotMapping

end Shape

def Source.IsAccepted (s : Source) : Prop :=
  ∃ name d, s.Accepts name d

theorem Source.isAccepted_iff (s : Source) : s.IsAccepted ↔ s.command?.isSome = true := by
  rw [Option.isSome_iff_exists]
  constructor
  · rintro ⟨name, d, h⟩
    exact ⟨_, (s.command?_eq_some_iff _ d).mpr ⟨name, h, rfl⟩⟩
  · rintro ⟨⟨path, d⟩, h⟩
    obtain ⟨name, haccepts, -⟩ := (s.command?_eq_some_iff path d).mp h
    exact ⟨name, d, haccepts⟩

instance (s : Source) : Decidable s.IsAccepted :=
  decidable_of_iff _ s.isAccepted_iff.symm

def entryAccepted (e : Key × Value) : Bool :=
  decide (Source.IsAccepted ⟨e.1.toValue, e.2⟩)

def recordAccepted (v : Value) : Bool :=
  (Source.ofRecord? v).any fun s => decide s.IsAccepted

def optionAccepted : Value → Bool
  | .text option => !Text.isBlankText option
  | _ => false

/-- An entry that is refused, with all that its report depends on. -/
inductive Refused where
  | entry (k : Key) (v : Value)
  | record (position : Nat) (v : Value)
  | key (path : List String) (k : Key) (v : Value)
  | option (path : List String) (v : Value)

structure Sifted where
  kept : Entries
  refused : List Refused

namespace Sifted

def keep (k : Key) (v : Value) : Sifted := ⟨[(k, v)], []⟩

def drop (path : List String) (k : Key) (v : Value) : Sifted := ⟨[], [.key path k v]⟩

def append (a b : Sifted) : Sifted := ⟨a.kept ++ b.kept, a.refused ++ b.refused⟩

mutual

def ofLevel (path : List String) : List (Key × Value) → Sifted
  | [] => ⟨[], []⟩
  | (k, v) :: rest => (ofEntry path k v).append (ofLevel path rest)

def ofEntry (path : List String) (k : Key) (v : Value) : Sifted :=
  match k.role with
  | .options =>
    match v with
    | .list options =>
      ⟨[(k, .list (options.filter optionAccepted))],
        (options.filter fun o => !optionAccepted o).map (.option path)⟩
    | v => drop path k v
  | .description =>
    match v with
    | .text description => if path = [] then drop path k v else keep k (.text description)
    | v => drop path k v
  | .words ws =>
    match v with
    | .map es =>
      let below := ofLevel (path ++ ws) es
      ⟨[(k, .map below.kept)], below.refused⟩
    | .text description => keep k (.text description)
    | .null => keep k .null
    | v => drop path k v
  | .other => drop path k v

end

end Sifted

def Value.cleaned : Shape → Value → Value
  | .flat, .map es => .map (es.filter entryAccepted)
  | .records, .list rs => .list (rs.filter recordAccepted)
  | .nested, .map es => .map (Sifted.ofLevel [] es).kept
  | _, v => v

def Refused.ofRecords (position : Nat) : List Value → List Refused
  | [] => []
  | v :: vs =>
    (if recordAccepted v then [] else [.record position v]) ++ ofRecords (position + 1) vs

def Value.refused : Shape → Value → List Refused
  | .flat, .map es => (es.filter fun e => !entryAccepted e).map fun e => .entry e.1 e.2
  | .records, .list rs => Refused.ofRecords 0 rs
  | .nested, .map es => (Sifted.ofLevel [] es).refused
  | _, _ => []

abbrev Report := String × SkipReason

def Source.report (s : Source) : Report :=
  match s.command with
  | .text name =>
    if Text.isBlankText name then (s.command.quoted, .badCommand) else (name, .invalidRecord)
  | v => (v.quoted, .badCommand)

def Key.isUnknownReserved : Key → Bool
  | .text key => isReserved key && key != optionsKey && key != descriptionKey
  | _ => false

namespace Refused

def isReported : Refused → Bool
  | .key _ k _ => !k.isUnknownReserved
  | _ => true

def report : Refused → Report
  | .entry k v => Source.report ⟨k.toValue, v⟩
  | .record position v =>
    match Source.ofRecord? v with
    | some s => s.report
    | none => ("#" ++ toString position, .recordNotMapping)
  | .key path k v =>
    match k.role with
    | .options => (Reading.placeName path, .optionsNotList)
    | .description => (Reading.placeName path, .misplacedDescription)
    | .words ws =>
      match v with
      | .list _ => (Text.unwords (path ++ ws), .listValue)
      | _ => (Text.unwords (path ++ ws), .invalidRecord)
    | .other =>
      if k.isText then (Reading.placeName path, .emptyKey) else (k.quoted, .keyNotText)
  | .option path v => (Reading.placeName path, .invalidOption v)

def reports (rs : List Refused) : List Report :=
  (rs.filter isReported).map report

theorem reports_append (rs qs : List Refused) : reports (rs ++ qs) = reports rs ++ reports qs := by
  simp [reports]

end Refused

def Report.row (r : Report) : Journal.Row :=
  ⟨Journal.debug, Journal.builder, "Skipping dictionary entry " ++ r.1 ++ ": " ++ r.2.message⟩

def Journal.Row.isSkip (row : Journal.Row) : Bool :=
  Text.startsWith row.message "Skipping dictionary entry "

namespace Reading

def isAccepted : Reading → Bool
  | .command _ _ => true
  | .opened _ => true
  | .skipped _ _ => false
  | .ignored _ _ => false

def report? : Reading → Option Report
  | .skipped entry reason => some (entry, reason)
  | _ => none

theorem apply_of_not_accepted {r : Reading} (h : r.isAccepted = false) (t : CommandTree) :
    r.apply t = t := by
  cases r <;> simp_all [isAccepted, Reading.apply]

/-- `kept` is read as what was accepted of `rs`, and the others of `rs` are the reports. -/
structure SiftedBy (rs kept : List Reading) (reports : List Report) : Prop where
  kept_eq : kept = rs.filter isAccepted
  reports_eq : reports = rs.filterMap report?

theorem SiftedBy.append {rs qs kept more : List Reading} {reports others : List Report}
    (h : SiftedBy rs kept reports) (h' : SiftedBy qs more others) :
    SiftedBy (rs ++ qs) (kept ++ more) (reports ++ others) :=
  ⟨by rw [h.kept_eq, h'.kept_eq, List.filter_append],
    by rw [h.reports_eq, h'.reports_eq, List.filterMap_append]⟩

theorem siftedBy_accepted {r : Reading} (h : r.isAccepted = true) : SiftedBy [r] [r] [] := by
  cases r with
  | command path d => exact ⟨rfl, rfl⟩
  | opened path => exact ⟨rfl, rfl⟩
  | _ => simp [isAccepted] at h

theorem siftedBy_skipped (p : Report) : SiftedBy [.skipped p.1 p.2] [] [p] := ⟨rfl, rfl⟩

theorem ofCommand_source (s : Source) :
    (s.IsAccepted ∧ (ofCommand s.command s.record).isAccepted = true) ∨
      (¬ s.IsAccepted ∧
        ofCommand s.command s.record = .skipped s.report.1 s.report.2) := by
  rw [s.isAccepted_iff, Source.command?]
  obtain ⟨command, record⟩ := s
  cases command with
  | text name =>
    simp only [ofCommand, Source.report]
    cases Text.isBlankText name with
    | true => exact Or.inr ⟨by simp [command?], rfl⟩
    | false =>
      cases Detail.ofRecord (Text.unwords (Text.words name)) record with
      | ok d => exact Or.inl ⟨rfl, rfl⟩
      | error e => exact Or.inr ⟨by simp [command?], rfl⟩
  | _ => exact Or.inr ⟨by simp [ofCommand, command?], rfl⟩

theorem siftedBy_ofFlat (es : Entries) :
    SiftedBy (ofFlat es) (ofFlat (es.filter entryAccepted))
      (Refused.reports (Value.refused .flat (.map es))) := by
  induction es with
  | nil => exact ⟨rfl, rfl⟩
  | cons e es ih =>
    have hcons : ∀ fs, ofFlat (e :: fs) = [ofCommand e.1.toValue e.2] ++ ofFlat fs := fun _ => rfl
    rcases ofCommand_source ⟨e.1.toValue, e.2⟩ with ⟨hsource, hread⟩ | ⟨hsource, hread⟩
    · have haccepted : entryAccepted e = true := decide_eq_true hsource
      simp only [Value.refused, List.filter_cons, haccepted, if_true, Bool.not_true,
        Bool.false_eq_true, if_false, hcons]
      exact (siftedBy_accepted hread).append ih
    · have haccepted : entryAccepted e = false := decide_eq_false hsource
      simp only [Value.refused, List.filter_cons, haccepted, Bool.not_false, if_true,
        Bool.false_eq_true, if_false, List.map_cons, hcons, hread]
      exact (siftedBy_skipped (Source.report ⟨e.1.toValue, e.2⟩)).append ih

theorem ofRecord_source (v : Value) :
    (recordAccepted v = true ∧ ∃ r, r.isAccepted = true ∧ ∀ position, ofRecord position v = r) ∨
      (recordAccepted v = false ∧ ∀ position, ofRecord position v =
        .skipped (Refused.record position v).report.1 (Refused.record position v).report.2) := by
  cases hs : Source.ofRecord? v with
  | none =>
    refine Or.inr ⟨by simp [recordAccepted, hs], fun position => ?_⟩
    cases v <;> simp_all [Source.ofRecord?, ofRecord, Refused.report]
  | some s =>
    have hread : ∀ position, ofRecord position v = ofCommand s.command s.record := by
      intro position
      cases v <;> simp_all [Source.ofRecord?, ofRecord]
      simp [← hs]
    rcases ofCommand_source s with ⟨hsource, haccepted⟩ | ⟨hsource, hskipped⟩
    · exact Or.inl ⟨by simp [recordAccepted, hs, hsource], _, haccepted, hread⟩
    · refine Or.inr ⟨by simp [recordAccepted, hs, hsource], fun position => ?_⟩
      rw [hread, hskipped, Refused.report, hs]

theorem siftedBy_ofRecords (position start : Nat) (vs : List Value) :
    SiftedBy (ofRecords position vs) (ofRecords start (vs.filter recordAccepted))
      (Refused.reports (Refused.ofRecords position vs)) := by
  induction vs generalizing position start with
  | nil => exact ⟨rfl, rfl⟩
  | cons v vs ih =>
    have hcons : ∀ n ws, ofRecords n (v :: ws) = [ofRecord n v] ++ ofRecords (n + 1) ws :=
      fun _ _ => rfl
    rw [Refused.ofRecords, Refused.reports_append, hcons]
    rcases ofRecord_source v with ⟨haccepted, r, hr, hread⟩ | ⟨haccepted, hread⟩
    · rw [List.filter_cons_of_pos haccepted, hcons, if_pos haccepted, hread, hread]
      exact (siftedBy_accepted hr).append (ih (position + 1) (start + 1))
    · rw [List.filter_cons_of_neg (by simp [haccepted]), if_neg (by simp [haccepted]), hread]
      exact (siftedBy_skipped (Refused.record position v).report).append (ih (position + 1) start)

theorem siftedBy_ofOptions (path : List String) (options : List Value) :
    SiftedBy (options.map (ofOption path)) ((options.filter optionAccepted).map (ofOption path))
      (Refused.reports ((options.filter fun o => !optionAccepted o).map (.option path))) := by
  induction options with
  | nil => exact ⟨rfl, rfl⟩
  | cons o options ih =>
    cases ho : optionAccepted o with
    | true =>
      have hread : (ofOption path o).isAccepted = true := by
        cases o <;> simp_all [optionAccepted, ofOption, isAccepted]
      simp only [List.filter_cons, ho, if_true, Bool.not_true, Bool.false_eq_true, if_false,
        List.map_cons]
      exact (siftedBy_accepted hread).append ih
    | false =>
      have hread : ofOption path o = .skipped (placeName path) (.invalidOption o) := by
        cases o <;> simp_all [optionAccepted, ofOption]
      simp only [List.filter_cons, ho, Bool.not_false, if_true, Bool.false_eq_true, if_false,
        List.map_cons, hread]
      exact (siftedBy_skipped (placeName path, .invalidOption o)).append ih

theorem siftedBy_other {k : Key} (hk : k.role = .other) (path : List String) (v : Value) :
    SiftedBy (ofEntry path k v) [] (Refused.reports [.key path k v]) := by
  cases k with
  | text key =>
    rw [Key.role] at hk
    split at hk
    · simp at hk
    next hoptions =>
      split at hk
      · simp at hk
      next hdescription =>
        split at hk
        next hother =>
          rw [ofEntry.eq_def]
          dsimp only
          rw [if_neg hoptions, if_neg hdescription]
          cases hreserved : isReserved key with
          | true =>
            exact ⟨by simp [isAccepted], by simp [Refused.reports, Refused.isReported,
              Key.isUnknownReserved, hreserved, hoptions, hdescription, report?]⟩
          | false =>
            have hempty : (tokenize key).isEmpty = true := by simpa [hreserved] using hother
            have hrole : (Key.text key).role = .other := by
              simp [Key.role, hoptions, hdescription, hempty]
            exact ⟨by simp [isAccepted, hempty], by simp [Refused.reports, Refused.isReported,
              Key.isUnknownReserved, Key.isText, hreserved, hempty, report?, Refused.report,
              hrole]⟩
        · simp at hk
  | _ =>
    rw [ofEntry.eq_def]
    exact ⟨rfl, rfl⟩

theorem isUnknownReserved_of_role {k : Key} (hk : k.role ≠ .other) :
    k.isUnknownReserved = false := by
  cases k with
  | text key =>
    rw [Key.role] at hk
    by_cases hoptions : key = optionsKey
    · simp [Key.isUnknownReserved, hoptions]
    · by_cases hdescription : key = descriptionKey
      · simp [Key.isUnknownReserved, hdescription]
      · rw [if_neg hoptions, if_neg hdescription] at hk
        split at hk
        · simp at hk
        next hother => simp_all [Key.isUnknownReserved]
  | _ => rfl

theorem siftedBy_drop {k : Key} (hk : k.role ≠ .other) {path : List String} {v : Value}
    (hread : ofEntry path k v =
      [.skipped (Refused.key path k v).report.1 (Refused.key path k v).report.2]) :
    SiftedBy (ofEntry path k v) [] (Refused.reports [.key path k v]) := by
  rw [hread]
  simpa [Refused.reports, Refused.isReported, isUnknownReserved_of_role hk] using
    siftedBy_skipped (Refused.key path k v).report

theorem siftedBy_ofEntry (path : List String) (k : Key) (v : Value)
    (ih : ∀ es, v = .map es → ∀ path, SiftedBy (ofLevel path es)
      (ofLevel path (Sifted.ofLevel path es).kept)
      (Refused.reports (Sifted.ofLevel path es).refused)) :
    SiftedBy (ofEntry path k v) (ofLevel path (Sifted.ofEntry path k v).kept)
      (Refused.reports (Sifted.ofEntry path k v).refused) := by
  have hrole := ofEntry_role path k
  have hlevel : ∀ w, ofLevel path [(k, w)] = ofEntry path k w := fun w => by simp [ofLevel]
  rw [Sifted.ofEntry.eq_def]
  cases hk : k.role with
  | options =>
    simp only [hk] at hrole
    cases v with
    | list options =>
      simpa only [hlevel, hrole, ofOptions] using siftedBy_ofOptions path options
    | _ => exact siftedBy_drop (by simp [hk]) (by simp [hrole, ofOptions, Refused.report, hk])
  | description =>
    simp only [hk] at hrole
    cases v with
    | text description =>
      by_cases hpath : path = []
      · simp only [hpath, if_true]
        subst hpath
        exact siftedBy_drop (by simp [hk]) (by simp [hrole, ofDescription, Refused.report, hk])
      · simp only [hpath, if_false, Sifted.keep, hlevel, hrole]
        exact siftedBy_accepted (by simp [ofDescription, hpath, isAccepted])
    | _ => exact siftedBy_drop (by simp [hk]) (by simp [hrole, ofDescription, Refused.report, hk])
  | words ws =>
    simp only [hk] at hrole
    cases v with
    | map es =>
      simp only [hlevel, hrole]
      exact (siftedBy_accepted (r := .opened (path ++ ws)) rfl).append (ih es rfl (path ++ ws))
    | text description =>
      simp only [Sifted.keep, hlevel, hrole]
      exact siftedBy_accepted rfl
    | null =>
      simp only [Sifted.keep, hlevel, hrole]
      exact siftedBy_accepted rfl
    | _ =>
      exact siftedBy_drop (by simp [hk])
        (by simp [hrole, ofLeaf, Detail.ofRecord, Refused.report, hk])
  | other => simpa [Sifted.drop, ofLevel] using siftedBy_other hk path v

theorem ofLevel_append (path : List String) (es fs : Entries) :
    ofLevel path (es ++ fs) = ofLevel path es ++ ofLevel path fs := by
  induction es with
  | nil => rfl
  | cons e es ih =>
    obtain ⟨k, v⟩ := e
    rw [List.cons_append, ofLevel, ofLevel, ih, List.append_assoc]

theorem siftedBy_ofLevel (path : List String) (es : Entries) :
    SiftedBy (ofLevel path es) (ofLevel path (Sifted.ofLevel path es).kept)
      (Refused.reports (Sifted.ofLevel path es).refused) := by
  induction es using Entries.levelInduction generalizing path with
  | nil => exact ⟨rfl, rfl⟩
  | cons k v rest ihv ihrest =>
    rw [ofLevel, Sifted.ofLevel, Sifted.append, ofLevel_append, Refused.reports_append]
    exact (siftedBy_ofEntry path k v ihv).append (ihrest path)

theorem siftedBy_ofDictionary {shape : Shape} {raw : Value} (h : shape.takes raw = true) :
    ∃ rs kept, ofDictionary shape raw = .ok rs ∧
      ofDictionary shape (raw.cleaned shape) = .ok kept ∧
      SiftedBy rs kept (Refused.reports (raw.refused shape)) := by
  cases shape <;> cases raw <;> simp only [Shape.takes, Bool.false_eq_true] at h
  · exact ⟨_, _, rfl, rfl, siftedBy_ofFlat _⟩
  · exact ⟨_, _, rfl, rfl, siftedBy_ofRecords 0 0 _⟩
  · exact ⟨_, _, rfl, rfl, siftedBy_ofLevel [] _⟩

theorem foldl_apply_accepted (rs : List Reading) (t : CommandTree) :
    (rs.filter isAccepted).foldl Reading.apply t = rs.foldl Reading.apply t := by
  induction rs generalizing t with
  | nil => rfl
  | cons r rs ih =>
    cases hr : r.isAccepted with
    | true => rw [List.filter_cons_of_pos hr, List.foldl_cons, List.foldl_cons, ih]
    | false =>
      rw [List.filter_cons_of_neg (by simp [hr]), List.foldl_cons, apply_of_not_accepted hr, ih]

theorem skips_eq_reports (rs : List Reading) :
    rs.filterMap skip? = (rs.filterMap report?).map Prod.fst := by
  rw [List.map_filterMap]
  refine List.filterMap_congr fun r _ => ?_
  cases r <;> rfl

theorem filter_row? (r : Reading) :
    r.row?.filter Journal.Row.isSkip = r.report?.map Report.row := by
  cases r with
  | skipped entry reason =>
    have hrow : (skipped entry reason).row? = some (Report.row (entry, reason)) := rfl
    have hskip : (Report.row (entry, reason)).isSkip = true := by
      simp [Report.row, Journal.Row.isSkip, Text.startsWith]
    rw [hrow, Option.filter_some, if_pos hskip]
    rfl
  | ignored key under =>
    simp only [row?, Option.filter_some, Journal.Row.isSkip, Text.startsWith, String.toList_append]
    rfl
  | command path d => rfl
  | opened path => rfl

theorem skipRows_eq_reports (rs : List Reading) :
    (rs.filterMap row?).filter Journal.Row.isSkip = (rs.filterMap report?).map Report.row := by
  rw [List.filter_filterMap, List.map_filterMap]
  exact List.filterMap_congr fun r _ => filter_row? r

theorem grade_of_row? {r : Reading} {row : Journal.Row} (h : r.row? = some row) :
    row.grade = Journal.debug := by
  cases r <;> simp [row?] at h <;> simp [← h]

end Reading

namespace Build

variable (shape : Shape) (rs : List Reading)

theorem skipped_ofReadings :
    (ofReadings shape rs).skipped = (rs.filterMap Reading.report?).map Prod.fst :=
  Reading.skips_eq_reports rs

theorem isSkip_skippedRow (count : Nat) : (skippedRow count).isSkip = false := by
  simp only [skippedRow, Journal.Row.isSkip, Text.startsWith, String.toList_append]
  rfl

theorem isSkip_builtRow (nodes : Nat) : (builtRow shape nodes).isSkip = false := by
  simp only [builtRow, Journal.Row.isSkip, Text.startsWith, String.toList_append]
  rfl

theorem skipRows_ofReadings :
    (ofReadings shape rs).log.filter Journal.Row.isSkip =
      (rs.filterMap Reading.report?).map Report.row := by
  simp only [ofReadings, List.filter_append, Reading.skipRows_eq_reports]
  split <;> simp [isSkip_skippedRow, isSkip_builtRow]

theorem warnings_ofReadings :
    ((ofReadings shape rs).log.filter fun row => row.grade == Journal.warning) =
      if (ofReadings shape rs).skipped.isEmpty then []
      else [skippedRow (ofReadings shape rs).skipped.length] := by
  have hrows : ((rs.filterMap Reading.row?).filter fun row => row.grade == Journal.warning) =
      [] := by
    rw [List.filter_eq_nil_iff]
    intro row hrow
    obtain ⟨r, -, hr⟩ := List.mem_filterMap.mp hrow
    rw [Reading.grade_of_row? hr]
    decide
  have hlog : (ofReadings shape rs).log = rs.filterMap Reading.row? ++
      (if (ofReadings shape rs).skipped.isEmpty then []
        else [skippedRow (ofReadings shape rs).skipped.length]) ++
      [builtRow shape (CommandTree.ofReadings rs).count] := rfl
  rw [hlog, List.filter_append, List.filter_append, hrows]
  cases (ofReadings shape rs).skipped with
  | nil => rfl
  | cons entry entries => rfl

end Build

theorem build_of_not_takes {shape : Shape} {raw : Value} (h : shape.takes raw = false) :
    build raw (some shape) = .error shape.mismatch := by
  cases shape <;> cases raw <;> simp_all [Shape.takes, Shape.mismatch] <;> rfl

theorem exists_build_cleaned {shape : Shape} {raw : Value} (h : shape.takes raw = true) :
    ∃ b c, build raw (some shape) = .ok b ∧ build (raw.cleaned shape) (some shape) = .ok c ∧
      c.tree = b.tree ∧ c.skipped = [] ∧
      b.skipped = (Refused.reports (raw.refused shape)).map Prod.fst ∧
      b.log.filter Journal.Row.isSkip = (Refused.reports (raw.refused shape)).map Report.row ∧
      (b.log.filter fun row => row.grade == Journal.warning) =
        if b.skipped.isEmpty then [] else [skippedRow b.skipped.length] := by
  have hbuild : ∀ v rs, Reading.ofDictionary shape v = .ok rs →
      build v (some shape) = .ok (.ofReadings shape rs) := by
    intro v rs hrs
    rw [build]
    simp [hrs, bind, Except.bind, pure, Except.pure]
  obtain ⟨rs, kept, hrs, hkept, hkept_eq, hreports⟩ := Reading.siftedBy_ofDictionary h
  refine ⟨.ofReadings shape rs, .ofReadings shape kept, hbuild _ _ hrs, hbuild _ _ hkept, ?_, ?_,
    ?_, ?_, Build.warnings_ofReadings shape rs⟩
  · rw [Build.tree_ofReadings, Build.tree_ofReadings, hkept_eq]
    exact Reading.foldl_apply_accepted rs .empty
  · rw [Build.skipped_ofReadings, hkept_eq, List.filterMap_filter]
    have hnone : ∀ r : Reading, (if r.isAccepted = true then r.report? else none) = none := by
      intro r
      cases r <;> rfl
    simp [hnone]
  · rw [Build.skipped_ofReadings, hreports]
  · rw [Build.skipRows_ofReadings, hreports]

/-! ## Bounds of the sifted dictionary -/

namespace LevelMeets

theorem of_append {levels : Nat} {es fs : Entries} {l : Limit}
    (h : LevelMeets levels (es ++ fs) l) : LevelMeets levels es l ∨ LevelMeets levels fs l := by
  cases h with
  | key mem name => exact (List.mem_append.mp mem).imp (.key · name) (.key · name)
  | option mem listed option =>
    exact (List.mem_append.mp mem).imp (.option · listed option) (.option · listed option)
  | tooDeep mem words deep =>
    exact (List.mem_append.mp mem).imp (.tooDeep · words deep) (.tooDeep · words deep)
  | inside mem words meets =>
    exact (List.mem_append.mp mem).imp (.inside · words meets) (.inside · words meets)

theorem not_nil {levels : Nat} {l : Limit} : ¬LevelMeets levels [] l := by
  intro h
  cases h with
  | key mem _ => cases mem
  | option mem _ _ => cases mem
  | tooDeep mem _ _ => cases mem
  | inside mem _ _ => cases mem

/-- Of an option list nothing but its items matters, and of a level nothing but what it meets. -/
theorem of_changed {levels : Nat} {k : Key} {v w : Value} {l : Limit}
    (h : LevelMeets levels [(k, w)] l)
    (hoptions : ∀ kept, w = .list kept → ∃ options, v = .list options ∧ kept ⊆ options)
    (hlevel : ∀ kept, w = .map kept → ∃ es, v = .map es ∧
      (LevelMeets (levels + 1) kept l → LevelMeets (levels + 1) es l)) :
    LevelMeets levels [(k, v)] l := by
  cases h with
  | key mem name =>
    obtain rfl := List.mem_singleton.mp mem
    exact .key (e := (k, v)) (.head _) name
  | option mem listed option =>
    obtain ⟨rfl, rfl⟩ := Prod.mk.inj (List.mem_singleton.mp mem)
    obtain ⟨options, rfl, hsub⟩ := hoptions _ rfl
    exact .option (.head _) (hsub listed) option
  | tooDeep mem words deep =>
    obtain ⟨rfl, rfl⟩ := Prod.mk.inj (List.mem_singleton.mp mem)
    obtain ⟨es, rfl, -⟩ := hlevel _ rfl
    exact .tooDeep (.head _) words deep
  | inside mem words meets =>
    obtain ⟨rfl, rfl⟩ := Prod.mk.inj (List.mem_singleton.mp mem)
    obtain ⟨es, rfl, hes⟩ := hlevel _ rfl
    exact .inside (.head _) words (hes meets)

theorem of_siftedEntry {levels : Nat} {path : List String} {k : Key} {v : Value} {l : Limit}
    (ih : ∀ es, v = .map es → ∀ levels path,
      LevelMeets levels (Sifted.ofLevel path es).kept l → LevelMeets levels es l)
    (h : LevelMeets levels (Sifted.ofEntry path k v).kept l) : LevelMeets levels [(k, v)] l := by
  rw [Sifted.ofEntry.eq_def] at h
  cases hk : k.role with
  | options =>
    rw [hk] at h
    cases v with
    | list options =>
      refine h.of_changed (fun kept hkept => ⟨options, rfl, ?_⟩) nofun
      obtain rfl := Value.list.inj hkept
      exact List.filter_sublist.subset
    | _ => exact absurd h not_nil
  | description =>
    rw [hk] at h
    cases v with
    | text description =>
      dsimp only at h
      split at h
      · exact absurd h not_nil
      · exact h
    | _ => exact absurd h not_nil
  | words ws =>
    rw [hk] at h
    cases v with
    | map es =>
      refine h.of_changed nofun fun kept hkept => ⟨es, rfl, fun hmeets => ?_⟩
      obtain rfl := Value.map.inj hkept
      exact ih es rfl _ _ hmeets
    | text description => exact h
    | null => exact h
    | _ => exact absurd h not_nil
  | other =>
    rw [hk] at h
    exact absurd h not_nil

theorem of_sifted {levels : Nat} {path : List String} {es : Entries} {l : Limit}
    (h : LevelMeets levels (Sifted.ofLevel path es).kept l) : LevelMeets levels es l := by
  induction es using Entries.levelInduction generalizing levels path with
  | nil => exact h
  | cons k v rest ihv ihrest =>
    rw [Sifted.ofLevel, Sifted.append] at h
    rcases h.of_append with h | h
    · exact (h.of_siftedEntry fun es hes levels path hmeets => ihv es hes hmeets).mono (by simp)
    · exact (ihrest h).mono (List.subset_cons_self _ _)

end LevelMeets

theorem Meets.of_cleaned {shape : Shape} {raw : Value} {l : Limit} (htakes : shape.takes raw = true)
    (h : Meets (raw.cleaned shape) (some shape) l) : Meets raw (some shape) l := by
  cases h with
  | name chosen mem name =>
    obtain rfl := Except.ok.inj chosen
    refine .name rfl ?_ name
    cases shape <;> cases raw <;> simp only [Shape.takes, Bool.false_eq_true] at htakes
    · exact List.map_subset _ List.filter_sublist.subset mem
    · exact List.filterMap_subset _ List.filter_sublist.subset mem
    · cases mem
  | level chosen map level =>
    obtain rfl := Except.ok.inj chosen
    cases raw <;> simp only [Shape.takes, Bool.false_eq_true] at htakes
    obtain rfl := Value.map.inj map
    exact .level rfl rfl level.of_sifted
  | tree built deep =>
    obtain ⟨b, c, hb, hc, htree, -⟩ := exists_build_cleaned htakes
    obtain rfl := Except.ok.inj (hc.symm.trans built)
    exact .tree hb (htree ▸ deep)

/-- Data of the wrong kind is refused as a whole, and nothing but a bound can end a build besides.
What is skipped without meeting one has no effect on the tree, and it is told of once. -/
theorem construct_skips_accounted (shape : Shape) (raw : Value) :
    let c := construct raw (some shape)
    let reports := Refused.reports (raw.refused shape)
    (shape.takes raw = false ∧ c = ⟨.error (.shape shape.mismatch), [], []⟩) ∨
    (shape.takes raw = true ∧ ∃ l, Meets raw (some shape) l ∧ c.tree = .error (.limit l) ∧
      c.skipped <+: reports.map Prod.fst) ∨
    (shape.takes raw = true ∧ (∀ l, ¬Meets raw (some shape) l) ∧
      ∃ t log, c.tree = .ok t ∧
        construct (raw.cleaned shape) (some shape) = ⟨.ok t, [], log⟩ ∧
        c.skipped = reports.map Prod.fst ∧
        c.log.filter Journal.Row.isSkip = reports.map Report.row ∧
        (c.log.filter fun row => row.grade == Journal.warning) =
          if c.skipped.isEmpty then [] else [skippedRow c.skipped.length]) := by
  intro c reports
  cases htakes : shape.takes raw with
  | false => exact .inl ⟨rfl, construct_of_error (build_of_not_takes htakes)⟩
  | true =>
    obtain ⟨b, d, hb, hd, htree, hnone, hskipped, hrows, hwarnings⟩ := exists_build_cleaned htakes
    rcases construct_cases hb with ⟨hmeets, hconstruct⟩ | ⟨l, hmeets, herror⟩
    · have hcleaned := construct_of_not_meets hd fun l h => hmeets l (h.of_cleaned htakes)
      refine .inr (.inr ⟨rfl, hmeets, b.tree, d.log, ?_, ?_, ?_, ?_, ?_⟩)
      · exact congrArg Construction.tree hconstruct
      · rw [hcleaned, htree, hnone]
      · exact (congrArg Construction.skipped hconstruct).trans hskipped
      · rw [← hrows]
        exact congrArg (fun c => c.log.filter Journal.Row.isSkip) hconstruct
      · have hc : c = _ := hconstruct
        rw [hc]
        exact hwarnings
    · exact .inr (.inl ⟨rfl, l, hmeets, herror, hskipped ▸ isPrefix_skipped_construct hb⟩)

/-! ## An option that cannot be shown -/

def Value.boxed : Nat → Value
  | 0 => .list []
  | n + 1 => .list [boxed n]

def Entries.nested (key : String) : Nat → Entries → Entries
  | 0, es => es
  | n + 1, es => [(.text key, .map (nested key n es))]

/-- An option that lies under 250 keys and is a list of 600 levels. -/
def deepOption : Value :=
  .map (Entries.nested "a" 250 [(.text optionsKey, .list [.boxed 599])])

theorem Value.unshowable_boxed {room n : Nat} (h : room ≤ n) :
    (boxed n).Unshowable room .nesting := by
  induction room generalizing n with
  | zero => exact .noRoom _
  | succ room ih =>
    obtain ⟨m, rfl⟩ : ∃ m, n = m + 1 := ⟨n - 1, by omega⟩
    exact .item (.head _) (ih (by omega))

theorem LevelMeets.nested {key : String} {ws : List String} (hkey : (Key.text key).role = .words ws)
    {es : Entries} {l : Limit} (n levels : Nat) (h : LevelMeets (levels + n) es l) :
    LevelMeets levels (Entries.nested key n es) l := by
  induction n generalizing levels with
  | zero => exact h
  | succ n ih => exact .inside (.head _) hkey (ih (levels + 1) (by rwa [Nat.add_right_comm]))

theorem construct_fails_on_deep_option :
    Shape.takes .nested deepOption = true ∧
      ∃ l, (construct deepOption (some .nested)).tree = .error (.limit l) := by
  have htakes : Shape.takes .nested deepOption = true := rfl
  have hoption : (Value.boxed 599).Untellable 250 .nesting :=
    ⟨rfl, Value.unshowable_boxed (by decide)⟩
  have hkey : (Key.text "a").role = .words ["a"] := by rfl
  have hlevel : LevelMeets 0 (Entries.nested "a" 250 [(.text optionsKey, .list [.boxed 599])])
      .nesting :=
    .nested hkey 250 0 (.option (.head _) (.head _) hoption)
  obtain ⟨b, -, hb, -⟩ := exists_build_cleaned htakes
  obtain ⟨l, -, herror⟩ := tree_construct_of_meets hb (.level rfl rfl hlevel)
  exact ⟨htakes, l, herror⟩

end SwitchLexicon
