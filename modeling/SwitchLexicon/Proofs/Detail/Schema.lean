import SwitchLexicon.Proofs.Detail.Record

/-!
Records against their schema. A record has slots where something is demanded: its sections, their
items, and the parts of the items. It is read exactly when every slot has what is demanded there,
what was read is the record with its gaps filled, and otherwise every slot that has something else
is reported, in the order of the slots.
-/
namespace SwitchLexicon

/-- What a section of a record has to be; items that gloss a term have it under its own name. -/
inductive SectionKind where
  | text
  | texts
  | mapping
  | glosses (termName : String)
deriving DecidableEq, Repr

def Detail.sections : List (String × SectionKind) :=
  [("description", .text), ("syntax", .text), ("parameters", .glosses "name"), ("defaults", .text),
    ("platforms_supported", .mapping), ("usage_guidelines", .texts), ("examples", .texts),
    ("release_history", .texts), ("related_commands", .glosses "command"), ("mib_objects", .texts),
    ("output_definitions", .glosses "field")]

example : "command" :: Detail.sections.map Prod.fst = Detail.fieldNames := rfl

/-! ## What is well typed -/

def IsGloss (termName : String) (v : Value) : Prop :=
  ∃ es, v = .map es ∧ (∃ s, Entries.get? termName es = some (.text s)) ∧
    ∀ w, Entries.get? "description" es = some w → ∃ s, w = .text s

def SectionKind.Allows : SectionKind → Value → Prop
  | .text, v => ∃ s, v = .text s
  | .texts, v => ∃ vs, v = .list vs ∧ ∀ x ∈ vs, ∃ s, x = .text s
  | .mapping, v => ∃ es, v = .map es ∧ ∀ e ∈ es, (∃ k, e.1 = .text k) ∧ ∃ s, e.2 = .text s
  | .glosses termName, v => ∃ vs, v = .list vs ∧ ∀ x ∈ vs, IsGloss termName x

def WellTyped (es : Entries) : Prop :=
  ∀ s ∈ Detail.sections, ∀ v, Entries.get? s.1 es = some v → s.2.Allows v

/-! ## The slots of a record -/

inductive Demand where
  | text
  | list
  | mapping
  | record
deriving DecidableEq, Repr

namespace Demand

def isMet : Demand → Value → Bool
  | .text, .text _ => true
  | .list, .list _ => true
  | .mapping, .map _ => true
  | .record, .map _ => true
  | _, _ => false

def misfit : Demand → Misfit
  | .text => .notText
  | .list => .notList
  | .mapping => .notMapping
  | .record => .notRecord

end Demand

/-- A slot with what is demanded there and what it has, if anything. -/
structure Slot where
  path : List PathStep
  demand : Demand
  value : Option Value

namespace Slot

def under (step : PathStep) (p : Slot) : Slot :=
  { p with path := step :: p.path }

def finding? (p : Slot) : Option Finding :=
  match p.value with
  | none => some ⟨p.path, .missing⟩
  | some v => if p.demand.isMet v then none else some ⟨p.path, p.demand.misfit⟩

def ofText (v : Value) : List Slot := [⟨[], .text, some v⟩]

def ofList (ofItem : Value → List Slot) (v : Value) : List Slot :=
  ⟨[], .list, some v⟩ ::
    match v with
    | .list vs => vs.zipIdx.flatMap fun x => (ofItem x.1).map (under (.item x.2))
    | _ => []

def ofMapping (v : Value) : List Slot :=
  ⟨[], .mapping, some v⟩ ::
    match v with
    | .map es => es.flatMap fun e =>
      [⟨[.key e.1, .keyItself], .text, some e.1.toValue⟩, ⟨[.key e.1], .text, some e.2⟩]
    | _ => []

def ofField (slots : Value → List Slot) (name : String) (es : Entries) : List Slot :=
  match Entries.get? name es with
  | some v => (slots v).map (under (.field name))
  | none => []

def ofGloss (termName : String) (v : Value) : List Slot :=
  ⟨[], .record, some v⟩ ::
    match v with
    | .map es =>
      ⟨[.field termName], .text, Entries.get? termName es⟩ :: ofField ofText "description" es
    | _ => []

def ofSection : SectionKind → Value → List Slot
  | .text => ofText
  | .texts => ofList ofText
  | .mapping => ofMapping
  | .glosses termName => ofList (ofGloss termName)

def ofRecord (es : Entries) : List Slot :=
  Detail.sections.flatMap fun s => ofField (ofSection s.2) s.1 es

end Slot

def faults (ps : List Slot) : List Finding :=
  ps.filterMap Slot.finding?

/-! ## The record with its gaps filled -/

def Value.mapItems (f : Value → Value) : Value → Value
  | .list vs => .list (vs.map f)
  | v => v

namespace SectionKind

def completed : SectionKind → Value → Value
  | .glosses termName => Value.mapItems fun x =>
    .ofEntries [(termName, (x.get? termName).getD .null),
      ("description", (x.get? "description").getD (.text ""))]
  | _ => id

def empty : SectionKind → Value
  | .text => .text ""
  | .mapping => .map []
  | _ => .list []

/-- The section without what is not known in its items. -/
def trimmed : SectionKind → Value → Value
  | .glosses termName => Value.mapItems fun x =>
    match x with
    | .map es => .map (es.filter fun e => e.1 = .text termName ∨ e.1 = .text "description")
    | x => x
  | _ => id

end SectionKind

namespace Detail

def sectionValue (es : Entries) (s : String × SectionKind) : Value :=
  ((Entries.get? s.1 es).map s.2.completed).getD s.2.empty

def completedRecord (command : String) (es : Entries) : Value :=
  .ofEntries (("command", .text command) :: sections.map fun s => (s.1, sectionValue es s))

def trimmedRecord (es : Entries) : Entries :=
  es.filterMap fun e =>
    (sections.find? fun s => e.1 = .text s.1).map fun s => (e.1, s.2.trimmed e.2)

end Detail

/-! ## Checks and the slots that they look at -/

section

variable (ps qs : List Slot)

@[simp] theorem faults_nil : faults [] = [] := rfl

theorem faults_append : faults (ps ++ qs) = faults ps ++ faults qs :=
  List.filterMap_append

theorem faults_under (step : PathStep) :
    faults (ps.map (.under step)) = (faults ps).map (.under step) := by
  have hslot (p : Slot) : (p.under step).finding? = p.finding?.map (.under step) := by
    obtain ⟨path, demand, value⟩ := p
    cases value with
    | none => rfl
    | some v =>
      cases hmet : demand.isMet v <;> simp [Slot.under, Slot.finding?, hmet, Finding.under]
  rw [faults, faults, List.filterMap_map, List.map_filterMap]
  exact congrArg (ps.filterMap ·) (funext hslot)

theorem faults_flatMap_eq_nil_iff {α : Type} (f : α → List Slot) (as : List α) :
    faults (as.flatMap f) = [] ↔ ∀ a ∈ as, faults (f a) = [] := by
  induction as with
  | nil => simp
  | cons a as ih => simp [faults_append, ih]

end

namespace Checked

/-- The findings of a check; where there are none it has a value with the property. -/
inductive Finds {α : Type} (P : α → Prop) : Checked α → List Finding → Prop
  | fits {a : α} (holds : P a) : Finds P (.fits a) []
  | misfits {fs : List Finding} (nonempty : fs ≠ []) : Finds P (.misfits fs) fs

namespace Finds

variable {α β : Type} {P : β → Prop} {Q : α → Prop} {fs gs : List Finding}

theorem apply {f : Checked (α → β)} {a : Checked α}
    (hf : f.Finds (fun g => ∀ x, Q x → P (g x)) fs) (ha : a.Finds Q gs) :
    (f.apply a).Finds P (fs ++ gs) := by
  cases hf with
  | fits holds =>
    cases ha with
    | fits hx => exact .fits (holds _ hx)
    | misfits nonempty => exact .misfits nonempty
  | misfits nonempty =>
    cases ha with
    | fits hx =>
      rw [List.append_nil]
      exact .misfits nonempty
    | misfits => exact .misfits (List.append_ne_nil_of_left_ne_nil nonempty _)

theorem imp {R : α → Prop} {c : Checked α} (h : c.Finds Q fs) (hQR : ∀ a, Q a → R a) :
    c.Finds R fs := by
  cases h with
  | fits holds => exact .fits (hQR _ holds)
  | misfits nonempty => exact .misfits nonempty

theorem under {c : Checked α} (h : c.Finds Q fs) (step : PathStep) :
    (c.under step).Finds Q (fs.map (.under step)) := by
  cases h with
  | fits holds => exact .fits holds
  | misfits nonempty => exact .misfits (by simpa using nonempty)

theorem cons {R : List α → Prop} {P : List α → Prop} {head : Checked α}
    {tail : Checked (List α)} (hhead : head.Finds Q fs) (htail : tail.Finds P gs)
    (hcons : ∀ a, Q a → ∀ as, P as → R (a :: as)) : (Checked.cons head tail).Finds R (fs ++ gs) :=
  apply (apply (.fits hcons) hhead) htail

end Finds

end Checked

/-- What a check reads is written as the completed value, and it finds what is wrong with the
slots. -/
def Reads {α : Type} (check : Value → Checked α) (write : α → Value) (complete : Value → Value)
    (slots : Value → List Slot) : Prop :=
  ∀ v, (check v).Finds (fun a => write a = complete v) (faults (slots v))

namespace Reads

variable {α : Type} {check : Value → Checked α} {write : α → Value} {complete : Value → Value}
  {slots : Value → List Slot}

theorem items (h : Reads check write complete slots) (n : Nat) (vs : List Value) :
    (Checked.items check n vs).Finds (fun as => as.map write = vs.map complete)
      (faults ((vs.zipIdx n).flatMap fun x => (slots x.1).map (.under (.item x.2)))) := by
  induction vs generalizing n with
  | nil => exact .fits rfl
  | cons v vs ih =>
    rw [List.zipIdx_cons, List.flatMap_cons, faults_append, faults_under]
    refine ((h v).under _).cons (ih (n + 1)) fun a ha as has => ?_
    rw [List.map_cons, List.map_cons, ha, has]

theorem list (h : Reads check write complete slots) :
    Reads (Detail.checkList check) (fun as => .list (as.map write)) (Value.mapItems complete)
      (Slot.ofList slots) := by
  intro v
  cases v with
  | list vs => exact (h.items 0 vs).imp fun as has => congrArg Value.list has
  | _ => exact .misfits (by simp)

theorem optional (h : Reads check write complete slots) (default : α) (name : String)
    (es : Entries) : (Detail.optional default check name es).Finds
      (fun a => write a = ((Entries.get? name es).map complete).getD (write default))
      (faults (Slot.ofField slots name es)) := by
  rw [Detail.optional, Slot.ofField]
  cases Entries.get? name es with
  | none => exact .fits rfl
  | some v =>
    rw [faults_under]
    exact (h v).under _

end Reads

namespace Detail

theorem reads_text : Reads checkText .text id Slot.ofText := by
  intro v
  cases v with
  | text s => exact .fits rfl
  | _ => exact .misfits (by simp)

theorem finds_required (name : String) (es : Entries) :
    (required checkText name es).Finds (fun s => .text s = (Entries.get? name es).getD .null)
      (faults [⟨[.field name], .text, Entries.get? name es⟩]) := by
  rw [required]
  cases Entries.get? name es with
  | none => exact .misfits (by simp)
  | some v =>
    have hunder := faults_under (Slot.ofText v) (.field name)
    exact hunder ▸ (reads_text v).under _

theorem reads_gloss (termName : String) :
    Reads (checkGloss termName)
      (fun g => .ofEntries [(termName, .text g.term), ("description", .text g.description)])
      (fun x => .ofEntries [(termName, (x.get? termName).getD .null),
        ("description", (x.get? "description").getD (.text ""))])
      (Slot.ofGloss termName) := by
  intro v
  cases v with
  | map es =>
    have hfaults : faults (Slot.ofGloss termName (.map es)) =
        faults [⟨[.field termName], .text, Entries.get? termName es⟩] ++
          faults (Slot.ofField Slot.ofText "description" es) :=
      faults_append [⟨[.field termName], .text, Entries.get? termName es⟩] _
    rw [hfaults, checkGloss]
    refine .apply (.apply (.fits fun term hterm description hdescription => ?_)
      (finds_required termName es)) (reads_text.optional "" "description" es)
    rw [Option.map_id_fun, id] at hdescription
    simp only [Value.get?, hterm, hdescription]
  | _ => exact .misfits (by simp)

theorem finds_pair (k : Key) (v : Value) :
    (Checked.apply (Checked.apply (.fits Prod.mk) (checkKey k)) (checkText v)).Finds
      (fun p => (Key.text p.1, Value.text p.2) = (k, v))
      (faults [⟨[.keyItself], .text, some k.toValue⟩, ⟨[], .text, some v⟩]) := by
  have hkey : (checkKey k).Finds (fun s => .text s = k)
      (faults [⟨[.keyItself], .text, some k.toValue⟩]) := by
    cases k with
    | text s => exact .fits rfl
    | _ => exact .misfits (by simp)
  refine faults_append [_] [_] ▸ .apply (.apply (.fits fun s hs t ht => ?_) hkey) (reads_text v)
  rw [hs, ht, id]

theorem finds_checkPairs (es : Entries) :
    (checkPairs es).Finds (fun ps => ps.map (fun p => (Key.text p.1, Value.text p.2)) = es)
      (faults (es.flatMap fun e =>
        [⟨[.key e.1, .keyItself], .text, some e.1.toValue⟩, ⟨[.key e.1], .text, some e.2⟩])) := by
  induction es with
  | nil => exact .fits rfl
  | cons e es ih =>
    obtain ⟨k, v⟩ := e
    have hpair := (finds_pair k v).under (.key k)
    rw [← faults_under] at hpair
    rw [List.flatMap_cons, faults_append]
    refine hpair.cons ih fun p hp ps hps => ?_
    rw [List.map_cons, hp, hps]

theorem reads_mapping :
    Reads checkMapping (fun ps => .ofEntries (ps.map fun p => (p.1, .text p.2))) id
      Slot.ofMapping := by
  intro v
  cases v with
  | map es =>
    refine (finds_checkPairs es).imp fun ps hps => ?_
    simp only [Value.ofEntries, List.map_map]
    exact congrArg Value.map hps
  | _ => exact .misfits (by simp)

theorem mapItems_id (v : Value) : v.mapItems id = v := by
  cases v with
  | list vs => exact congrArg Value.list (List.map_id vs)
  | _ => rfl

theorem reads_texts : Reads (checkList checkText) texts id (Slot.ofList Slot.ofText) := by
  intro v
  exact (reads_text.list v).imp fun ss hss => hss.trans (mapItems_id v)

theorem finds_section (kind : SectionKind) {α : Type} {check : Value → Checked α}
    {write : α → Value} (h : Reads check write kind.completed (Slot.ofSection kind)) (default : α)
    (hdefault : write default = kind.empty) (name : String) (es : Entries) :
    (optional default check name es).Finds (fun a => write a = sectionValue es (name, kind))
      (faults (Slot.ofField (Slot.ofSection kind) name es)) := by
  rw [sectionValue, ← hdefault]
  exact h.optional default name es

theorem finds_checkSections (command : String) (es : Entries) :
    (checkSections command es).Finds (fun d => d.toValue = completedRecord command es)
      (faults (Slot.ofRecord es)) := by
  have htext (name : String) := finds_section .text reads_text "" rfl name es
  have htexts (name : String) := finds_section .texts reads_texts [] rfl name es
  have hmapping := finds_section .mapping reads_mapping [] rfl "platforms_supported" es
  have hglosses (name termName : String) :=
    finds_section (.glosses termName) (reads_gloss termName).list [] rfl name es
  have hslots : faults (Slot.ofRecord es) =
      (sections.map fun s => faults (Slot.ofField (Slot.ofSection s.2) s.1 es)).foldl (· ++ ·)
        [] := by
    simp [Slot.ofRecord, sections, faults_append]
  rw [hslots]
  -- one section after the other, each of them one more argument of the entry
  refine .apply (.apply (.apply (.apply (.apply (.apply (.apply (.apply (.apply (.apply (.apply
    (.fits ?_) (htext _)) (htext _)) (hglosses _ _)) (htext _)) hmapping) (htexts _)) (htexts _))
    (htexts _)) (hglosses _ _)) (htexts _)) (hglosses _ _)
  intro description h₁ form h₂ parameters h₃ defaults h₄ platforms h₅ guidelines h₆ examples h₇
    history h₈ related h₉ mibObjects h₁₀ outputs h₁₁
  simp only [completedRecord, sections, List.map_cons, List.map_nil, ← h₁, ← h₂, ← h₃, ← h₄, ← h₅,
    ← h₆, ← h₇, ← h₈, ← h₉, ← h₁₀, ← h₁₁]
  rfl

end Detail

/-! ## Without faults -/

theorem faults_text_iff (path : List PathStep) (v : Option Value) :
    faults [⟨path, .text, v⟩] = [] ↔ ∃ s, v = some (.text s) := by
  cases v with
  | none => simp [faults, Slot.finding?]
  | some v => cases v <;> simp [faults, Slot.finding?, Demand.isMet]

theorem faults_ofText_iff (v : Value) : faults (Slot.ofText v) = [] ↔ ∃ s, v = .text s := by
  rw [Slot.ofText, faults_text_iff]
  simp only [Option.some.injEq]

theorem faults_ofField_iff (slots : Value → List Slot) (name : String) (es : Entries) :
    faults (Slot.ofField slots name es) = [] ↔
      ∀ v, Entries.get? name es = some v → faults (slots v) = [] := by
  rw [Slot.ofField]
  cases Entries.get? name es with
  | none => simp
  | some v => simp [faults_under]

theorem faults_ofList_iff (ofItem : Value → List Slot) (v : Value) :
    faults (Slot.ofList ofItem v) = [] ↔
      ∃ vs, v = .list vs ∧ ∀ x ∈ vs, faults (ofItem x) = [] := by
  cases v with
  | list vs =>
    have hitems : faults (Slot.ofList ofItem (.list vs)) =
        faults (vs.zipIdx.flatMap fun x => (ofItem x.1).map (.under (.item x.2))) := rfl
    have hfirst := List.forall_mem_map (f := Prod.fst) (l := vs.zipIdx)
      (P := fun x => faults (ofItem x) = [])
    rw [List.zipIdx_map_fst] at hfirst
    rw [hitems, faults_flatMap_eq_nil_iff]
    simp only [faults_under, List.map_eq_nil_iff, Value.list.injEq, exists_eq_left', hfirst]
  | _ => simp [faults, Slot.ofList, Slot.finding?, Demand.isMet]

theorem faults_ofMapping_iff (v : Value) :
    faults (Slot.ofMapping v) = [] ↔ SectionKind.mapping.Allows v := by
  cases v with
  | map es =>
    have hentries : faults (Slot.ofMapping (.map es)) = faults (es.flatMap fun e =>
        [⟨[.key e.1, .keyItself], .text, some e.1.toValue⟩] ++ [⟨[.key e.1], .text, some e.2⟩]) :=
      rfl
    have hkey (k : Key) : (∃ s, k.toValue = .text s) ↔ ∃ s, k = .text s := by
      cases k <;> simp [Key.toValue]
    rw [hentries, faults_flatMap_eq_nil_iff]
    simp only [faults_append, List.append_eq_nil_iff, faults_text_iff, Option.some.injEq, hkey,
      SectionKind.Allows, Value.map.injEq, exists_eq_left']
  | _ => simp [faults, Slot.ofMapping, Slot.finding?, Demand.isMet, SectionKind.Allows]

theorem faults_ofGloss_iff (termName : String) (v : Value) :
    faults (Slot.ofGloss termName v) = [] ↔ IsGloss termName v := by
  cases v with
  | map es =>
    have hparts : faults (Slot.ofGloss termName (.map es)) =
        faults ([⟨[.field termName], .text, Entries.get? termName es⟩] ++
          Slot.ofField Slot.ofText "description" es) := rfl
    rw [hparts, faults_append, List.append_eq_nil_iff]
    simp only [faults_text_iff, faults_ofField_iff, faults_ofText_iff, IsGloss, Value.map.injEq,
      exists_eq_left']
  | _ => simp [faults, Slot.ofGloss, Slot.finding?, Demand.isMet, IsGloss]

theorem faults_ofSection_iff (kind : SectionKind) (v : Value) :
    faults (Slot.ofSection kind v) = [] ↔ kind.Allows v := by
  cases kind with
  | text => exact faults_ofText_iff v
  | texts => simp only [Slot.ofSection, faults_ofList_iff, faults_ofText_iff, SectionKind.Allows]
  | mapping => exact faults_ofMapping_iff v
  | glosses termName =>
    simp only [Slot.ofSection, faults_ofList_iff, faults_ofGloss_iff, SectionKind.Allows]

theorem faults_ofRecord_iff (es : Entries) : faults (Slot.ofRecord es) = [] ↔ WellTyped es := by
  rw [Slot.ofRecord, faults_flatMap_eq_nil_iff]
  simp only [faults_ofField_iff, faults_ofSection_iff]
  rfl

/-! ## What is not known -/

theorem get?_filter {keep : Key × Value → Bool} {name : String}
    (h : ∀ v, keep (.text name, v) = true) (es : Entries) :
    Entries.get? name (es.filter keep) = Entries.get? name es := by
  induction es with
  | nil => rfl
  | cons e es ih =>
    obtain ⟨k, v⟩ := e
    by_cases hk : k = .text name
    · subst hk
      rw [List.filter_cons_of_pos (h v)]
      simp [Entries.get?]
    · cases hkeep : keep (k, v) <;> simp [hkeep, Entries.get?, hk, ih]

theorem Checked.items_congr {α : Type} {check : Value → Checked α} {f : Value → Value}
    (h : ∀ v, check (f v) = check v) (n : Nat) (vs : List Value) :
    items check n (vs.map f) = items check n vs := by
  induction vs generalizing n with
  | nil => rfl
  | cons v vs ih => rw [List.map_cons, items, items, h, ih]

namespace Detail

theorem checkList_trimmed (termName : String) (v : Value) :
    checkList (checkGloss termName) ((SectionKind.glosses termName).trimmed v) =
      checkList (checkGloss termName) v := by
  cases v with
  | list vs =>
    refine Checked.items_congr (fun x => ?_) 0 vs
    cases x with
    | map es =>
      simp only [checkGloss, required, optional]
      rw [get?_filter (by simp), get?_filter (by simp)]
    | _ => rfl
  | _ => rfl

theorem find?_sections :
    ∀ s ∈ sections, sections.find? (fun t => Key.text s.1 = .text t.1) = some s := by
  decide

theorem get?_trimmedRecord {s : String × SectionKind} (h : s ∈ sections) (es : Entries) :
    Entries.get? s.1 (trimmedRecord es) = (Entries.get? s.1 es).map s.2.trimmed := by
  induction es with
  | nil => rfl
  | cons e es ih =>
    obtain ⟨k, v⟩ := e
    rw [trimmedRecord, List.filterMap_cons, ← trimmedRecord]
    by_cases hk : k = .text s.1
    · subst hk
      rw [find?_sections s h]
      simp [Entries.get?]
    · cases hfind : sections.find? fun t => k = .text t.1 <;> simp [Entries.get?, hk, ih]

theorem optional_trimmed {α : Type} {check : Value → Checked α} {s : String × SectionKind}
    (h : s ∈ sections) (hcheck : ∀ v, check (s.2.trimmed v) = check v) (default : α)
    (es : Entries) :
    optional default check s.1 (trimmedRecord es) = optional default check s.1 es := by
  rw [optional, optional, get?_trimmedRecord h]
  cases Entries.get? s.1 es with
  | none => rfl
  | some v => exact congrArg (Checked.under _) (hcheck v)

theorem checkSections_trimmed (command : String) (es : Entries) :
    checkSections command (trimmedRecord es) = checkSections command es := by
  have htext (name : String) (h : (name, SectionKind.text) ∈ sections) :=
    optional_trimmed h (fun v => (rfl : checkText v = checkText v)) "" es
  have htexts (name : String) (h : (name, SectionKind.texts) ∈ sections) :=
    optional_trimmed h (fun v => (rfl : checkList checkText v = checkList checkText v)) [] es
  have hmapping : optional [] checkMapping "platforms_supported" (trimmedRecord es) =
      optional [] checkMapping "platforms_supported" es :=
    optional_trimmed (s := ("platforms_supported", .mapping)) (by decide) (fun v => rfl) [] es
  have hglosses (name termName : String) (h : (name, SectionKind.glosses termName) ∈ sections) :=
    optional_trimmed h (checkList_trimmed termName) [] es
  simp only [checkSections]
  rw [htext _ (by decide), htext "syntax" (by decide), hglosses "parameters" "name" (by decide),
    htext "defaults" (by decide), hmapping, htexts "usage_guidelines" (by decide),
    htexts "examples" (by decide), htexts "release_history" (by decide),
    hglosses "related_commands" "command" (by decide), htexts "mib_objects" (by decide),
    hglosses "output_definitions" "field" (by decide)]

/-! ## Reading a record -/

theorem ofRecord_map {es : Entries} (htexts : ∀ e ∈ es, e.1.isText = true) (command : String) :
    ofRecord command (.map es) = match checkSections command es with
      | .fits d => .ok d
      | .misfits fs => .error (.misfits fs) := by
  rw [ofRecord]
  cases checkSections command es <;> exact if_pos (List.all_eq_true.mpr htexts)

theorem isText_trimmedRecord {es : Entries} (htexts : ∀ e ∈ es, e.1.isText = true) :
    ∀ e ∈ trimmedRecord es, e.1.isText = true := by
  intro e he
  obtain ⟨e', he', hsome⟩ := List.mem_filterMap.mp he
  obtain ⟨s, -, rfl⟩ := Option.map_eq_some_iff.mp hsome
  exact htexts e' he'

theorem ofRecord_cases {es : Entries} (htexts : ∀ e ∈ es, e.1.isText = true) (command : String) :
    (∃ d, ofRecord command (.map es) = .ok d ∧ d.toValue = completedRecord command es ∧
      faults (Slot.ofRecord es) = []) ∨
    ofRecord command (.map es) = .error (.misfits (faults (Slot.ofRecord es))) ∧
      faults (Slot.ofRecord es) ≠ [] := by
  have hfinds := finds_checkSections command es
  rw [ofRecord_map htexts]
  generalize checkSections command es = c at hfinds ⊢
  generalize faults (Slot.ofRecord es) = fs at hfinds ⊢
  cases hfinds with
  | fits holds => exact .inl ⟨_, rfl, holds, rfl⟩
  | misfits nonempty => exact .inr ⟨rfl, nonempty⟩

/-- A record is read exactly when it is well typed. What was read is the record with its gaps filled
and is read again as it is; what is refused has every fault reported, in order; and the name of a
command, the unknown sections and the unknown parts of items play no part. -/
theorem ofRecord_schema (command : String) (es : Entries)
    (htexts : ∀ e ∈ es, e.1.isText = true) :
    ((∃ d, ofRecord command (.map es) = .ok d) ↔ WellTyped es) ∧
    (∀ d, ofRecord command (.map es) = .ok d → d.command = command ∧
      d.toValue = completedRecord command es ∧ ofRecord command d.toValue = .ok d) ∧
    (∀ e, ofRecord command (.map es) = .error e →
      e = .misfits (faults (Slot.ofRecord es)) ∧ faults (Slot.ofRecord es) ≠ []) ∧
    ofRecord command (.map (trimmedRecord es)) = ofRecord command (.map es) := by
  have htrimmed : ofRecord command (.map (trimmedRecord es)) = ofRecord command (.map es) := by
    rw [ofRecord_map htexts, ofRecord_map (isText_trimmedRecord htexts), checkSections_trimmed]
  rw [← faults_ofRecord_iff]
  obtain ⟨d, hd, hvalue, hfaults⟩ | ⟨herror, hfaults⟩ := ofRecord_cases htexts command
  · refine ⟨iff_of_true ⟨d, hd⟩ hfaults, ?_, ?_, htrimmed⟩
    · intro d' hd'
      obtain rfl : d = d' := Except.ok.inj (hd.symm.trans hd')
      obtain rfl := command_of_ofRecord hd
      exact ⟨rfl, hvalue, ofRecord_toValue d⟩
    · intro e he
      cases hd.symm.trans he
  · refine ⟨iff_of_false ?_ hfaults, ?_, ?_, htrimmed⟩
    · rintro ⟨d, hd⟩
      cases herror.symm.trans hd
    · intro d hd
      cases herror.symm.trans hd
    · intro e he
      exact ⟨(Except.error.inj (herror.symm.trans he)).symm, hfaults⟩

def vlanRecord (parameter : Entries) : Entries :=
  [(.text "vendor", .int 1), (.text "parameters", .list [.map parameter]), (.text "command", .null)]

theorem ofRecord_schema_vlan :
    WellTyped (vlanRecord [(.text "range", .null), (.text "name", .text "id")]) ∧
    (∃ d, ofRecord "vlan" (.map (vlanRecord [(.text "range", .null), (.text "name", .text "id")])) =
        .ok d ∧ d.command = "vlan" ∧ d.parameters = [⟨"id", ""⟩] ∧
        ofRecord "vlan" d.toValue = .ok d) ∧
    ofRecord "vlan" (.map [(.text "parameters", .list [.map [(.text "name", .text "id")]])]) =
      ofRecord "vlan" (.map (vlanRecord [(.text "range", .null), (.text "name", .text "id")])) ∧
    ¬ WellTyped (vlanRecord [(.text "description", .int 2), (.text "range", .null)]) ∧
    faults (Slot.ofRecord (vlanRecord [(.text "description", .int 2), (.text "range", .null)])) =
      [⟨[.field "parameters", .item 0, .field "name"], .missing⟩,
        ⟨[.field "parameters", .item 0, .field "description"], .notText⟩] := by
  have hread := ofRecord_schema "vlan"
    (vlanRecord [(.text "range", .null), (.text "name", .text "id")]) (by decide)
  have hrefused := ofRecord_schema "vlan"
    (vlanRecord [(.text "description", .int 2), (.text "range", .null)]) (by decide)
  refine ⟨hread.1.mp ⟨_, rfl⟩, ⟨_, rfl, rfl, rfl, (hread.2.1 _ rfl).2.2⟩,
    hread.2.2.2, fun hwell => ?_, ?_⟩
  · obtain ⟨d, hd⟩ := hrefused.1.mpr hwell
    cases hd
  · exact (RecordError.misfits.inj (hrefused.2.2.1 _ rfl).1).symm

end Detail

end SwitchLexicon
