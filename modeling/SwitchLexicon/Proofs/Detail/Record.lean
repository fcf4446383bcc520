import SwitchLexicon.Detail.Record

/-!
Records and the name of their command. The name that a record is read under is the name of its
entry, and a name inside the record makes no difference. What is written of an entry is read as that
entry again.
-/
namespace SwitchLexicon

theorem Key.same_text (k : Key) (name : String) :
    k.same (.text name) = decide (k = .text name) := by
  cases k with
  | float x =>
    cases hx : x.toInt? with
    | none => simp [Key.same, Key.whole?, hx]
    | some n => simp [Key.same, Key.whole?, hx]
  | null => simp [Key.same, Key.whole?]
  | bool b => simp [Key.same, Key.whole?]
  | int n => simp [Key.same, Key.whole?]
  | text s =>
    rw [Bool.eq_iff_iff]
    simp [Key.same, Key.whole?]

namespace Entries

theorem get?_put_self (name : String) (v : Value) (es : Entries) :
    (es.put name v).get? name = some v := by
  induction es with
  | nil => simp [put, insert, get?]
  | cons e es ih =>
    obtain ⟨k, w⟩ := e
    by_cases hk : k = .text name
    · simp [put, insert, get?, Key.same_text, hk]
    · simpa [put, insert, get?, Key.same_text, hk] using ih

theorem get?_put_of_ne {name other : String} (h : other ≠ name) (v : Value) (es : Entries) :
    (es.put name v).get? other = es.get? other := by
  induction es with
  | nil => simp [put, insert, get?, h.symm]
  | cons e es ih =>
    obtain ⟨k, w⟩ := e
    by_cases hk : k = .text name
    · simp [put, insert, get?, Key.same_text, hk, h.symm]
    · by_cases hother : k = .text other
      · simp [put, insert, get?, Key.same_text, hother, h]
      · simpa [put, insert, get?, Key.same_text, hk, hother] using ih

theorem all_isText_put (name : String) (v : Value) (es : Entries) :
    ((es.put name v).all fun e => e.1.isText) = es.all fun e => e.1.isText := by
  induction es with
  | nil => simp [put, insert, Key.isText]
  | cons e es ih =>
    obtain ⟨k, w⟩ := e
    by_cases hk : k = .text name
    · simp [put, insert, Key.same_text, hk]
    · simpa [put, insert, Key.same_text, hk] using congrArg (k.isText && ·) ih

end Entries

namespace Checked

def Holds {α : Type} (P : α → Prop) : Checked α → Prop
  | .fits a => P a
  | .misfits _ => True

theorem Holds.apply {α β : Type} {P : β → Prop} {f : Checked (α → β)}
    (hf : f.Holds fun g => ∀ x, P (g x)) (a : Checked α) : (f.apply a).Holds P := by
  cases f with
  | fits g =>
    cases a with
    | fits x => exact hf x
    | misfits fs => trivial
  | misfits fs => cases a <;> trivial

end Checked

namespace Detail

theorem checkSections_command (command : String) (es : Entries) :
    (checkSections command es).Holds fun d => d.command = command := by
  -- each section is one more argument, and the name is set before all of them
  unfold checkSections
  iterate 11 apply Checked.Holds.apply
  simp [Checked.Holds]

theorem command_of_ofRecord {command : String} {record : Value} {d : Detail}
    (h : ofRecord command record = .ok d) : d.command = command := by
  cases record with
  | text s =>
    rw [ofRecord, Except.ok.injEq] at h
    rw [← h]
  | null =>
    rw [ofRecord, Except.ok.injEq] at h
    rw [← h]
  | map es =>
    rw [ofRecord] at h
    split at h
    · have hsections := checkSections_command command es
      cases hes : checkSections command es with
      | fits e =>
        rw [hes] at h hsections
        rw [Except.ok.injEq] at h
        exact h ▸ hsections
      | misfits fs => simp [hes] at h
    · simp at h
  | _ => simp [ofRecord] at h

theorem checkSections_put (command : String) (v : Value) (es : Entries) :
    checkSections command (es.put "command" v) = checkSections command es := by
  have hget : ∀ name, name ≠ "command" → (es.put "command" v).get? name = es.get? name :=
    fun name h => Entries.get?_put_of_ne h v es
  simp [checkSections, optional, hget]

theorem ofRecord_put (command : String) (v : Value) (es : Entries) :
    ofRecord command (.map (es.put "command" v)) = ofRecord command (.map es) := by
  simp only [ofRecord, Entries.all_isText_put, checkSections_put]

theorem ofRecord_description (command description : String) :
    ofRecord command (.map [(.text "description", .text description)]) =
      ofRecord command (.text description) := by
  rfl

theorem ofRecord_nothing (command : String) :
    ofRecord command (.map []) = ofRecord command .null := by
  rfl

end Detail

namespace Checked

theorem items_map {α : Type} {check : Value → Checked α} {write : α → Value}
    (h : ∀ a, check (write a) = .fits a) (position : Nat) (as : List α) :
    items check position (as.map write) = .fits as := by
  induction as generalizing position with
  | nil => rfl
  | cons a as ih =>
    rw [List.map_cons, items, h, ih]
    rfl

end Checked

namespace Detail

theorem checkList_texts (ss : List String) : checkList checkText (texts ss) = .fits ss :=
  Checked.items_map (fun s => (rfl : checkText (.text s) = .fits s)) 0 ss

theorem checkGloss_gloss {termName : String} (h : termName ≠ "description") (g : Gloss) :
    checkGloss termName
      (.ofEntries [(termName, .text g.term), ("description", .text g.description)]) = .fits g := by
  have hdescription : Entries.get? "description"
      [(.text termName, .text g.term), (.text "description", .text g.description)] =
        some (.text g.description) := by
    simp [Entries.get?, h]
  simp only [checkGloss, Value.ofEntries, List.map_cons, List.map_nil, required, optional,
    hdescription]
  simp [Entries.get?, checkText, Checked.under, Checked.apply]

theorem checkList_glosses {termName : String} (h : termName ≠ "description") (gs : List Gloss) :
    checkList (checkGloss termName) (glosses termName gs) = .fits gs :=
  Checked.items_map (checkGloss_gloss h) 0 gs

theorem checkMapping_platforms (ps : List (String × String)) :
    checkMapping (.ofEntries (ps.map fun p => (p.1, .text p.2))) = .fits ps := by
  simp only [checkMapping, Value.ofEntries, List.map_map]
  induction ps with
  | nil => rfl
  | cons p ps ih =>
    rw [List.map_cons, checkPairs, ih]
    rfl

theorem ofRecord_toValue_as (command : String) (d : Detail) :
    ofRecord command d.toValue = .ok { d with command := command } := by
  obtain ⟨es, hes⟩ : ∃ es, d.toValue = .map es := ⟨_, rfl⟩
  have htexts : (es.all fun e => e.1.isText) = true := by
    cases hes
    rfl
  have hsections : checkSections command es = .fits { d with command := command } := by
    cases hes
    simp [checkSections, optional, Entries.get?, checkList_texts, checkList_glosses,
      checkMapping_platforms, checkText, Checked.under, Checked.apply]
  rw [hes, ofRecord, htexts, hsections]
  rfl

theorem ofRecord_toValue (d : Detail) : ofRecord d.command d.toValue = .ok d :=
  ofRecord_toValue_as d.command d

end Detail

end SwitchLexicon
