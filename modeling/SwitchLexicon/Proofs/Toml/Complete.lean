import SwitchLexicon.Proofs.Text.Encodable
import SwitchLexicon.Toml.Writer

/-!
Values with a TOML form. A document is written to its end exactly if all in it has a form: there is
no null, keys are texts, texts can be encoded and numbers are not too long. It does not matter which
entries are written on a line and which as tables of their own.
-/
namespace SwitchLexicon.Toml

open Text

def keyHasForm : Key → Bool
  | .text s => isEncodable s
  | _ => false

mutual

def hasForm : Value → Bool
  | .null => false
  | .bool _ => true
  | .int n => decide ((toString n.natAbs).length ≤ digitLimit)
  | .float _ => true
  | .text s => isEncodable s
  | .moment _ => true
  | .list items => allHaveForm items
  | .map es => entriesHaveForm es

def allHaveForm : List Value → Bool
  | [] => true
  | v :: vs => hasForm v && allHaveForm vs

def entriesHaveForm : List (Key × Value) → Bool
  | [] => true
  | (k, v) :: es => keyHasForm k && hasForm v && entriesHaveForm es

end

theorem allHaveForm_eq (vs : List Value) : allHaveForm vs = vs.all hasForm := by
  induction vs with
  | nil => rfl
  | cons v vs ih => rw [allHaveForm, List.all_cons, ih]

theorem entriesHaveForm_eq (es : List (Key × Value)) :
    entriesHaveForm es = es.all fun e => keyHasForm e.1 && hasForm e.2 := by
  induction es with
  | nil => rfl
  | cons e es ih => rw [entriesHaveForm, List.all_cons, ih]

theorem escapedChar_ascii {c : Char} (h : c.toNat < 128) : ∀ d ∈ escapedChar c, d.toNat < 128 := by
  rw [escapedChar]
  split_ifs <;> simp [h]
  exact isAscii_hexDigits

theorem escapedChar_of_ge {c : Char} (h : 128 ≤ c.toNat) : escapedChar c = [c] := by
  have hcontrol : isControl c = false := by
    have hdelete : c.toNat ≠ 0x7F := by omega
    simp only [isControl, Bool.or_eq_false_iff, Bool.and_eq_false_iff, decide_eq_false_iff_not,
      beq_eq_false_iff_ne]
    exact ⟨Or.inl (by omega), hdelete⟩
  have hother : ∀ d : Char, d.toNat < 128 → c ≠ d := by
    rintro d hd rfl
    omega
  rw [escapedChar, if_neg (by omega), if_neg (hother '\n' (by decide)), if_neg (by omega),
    if_neg (hother '\r' (by decide)), if_neg (by omega), if_neg (hother '\\' (by decide)),
    if_neg (by simp [hcontrol])]

theorem all_escapedChar (c : Char) :
    ((escapedChar c).all fun d => (surrogate? d).isNone) = (surrogate? c).isNone := by
  by_cases h : c.toNat < 128
  · rw [← isEncodable_ofList, isEncodable_of_ascii (escapedChar_ascii h),
      surrogate?_eq_none (by omega)]
    rfl
  · rw [escapedChar_of_ge (by omega)]
    simp

@[simp] theorem isEncodable_textLiteral (s : String) :
    isEncodable (textLiteral s) = isEncodable s := by
  have hbody : isEncodable (String.ofList (s.toList.flatMap escapedChar)) = isEncodable s := by
    rw [isEncodable_ofList, List.all_flatMap, isEncodable]
    simp only [all_escapedChar]
  have hquote : isEncodable "\"" = true := by decide
  rw [textLiteral, isEncodable_append, isEncodable_append, hbody, hquote, Bool.true_and,
    Bool.and_true]

@[simp] theorem isEncodable_nameText (s : String) : isEncodable (nameText s) = isEncodable s := by
  rw [nameText]
  split
  · rfl
  · exact isEncodable_textLiteral s

theorem any_keyText? (k : Key) : (keyText? k).any isEncodable = keyHasForm k := by
  cases k with
  | text s => exact isEncodable_nameText s
  | null => rfl
  | bool b => rfl
  | int n => rfl
  | float x => rfl

@[simp] theorem isEncodable_indent (level : Nat) : isEncodable (indent level) = true :=
  isEncodable_replicate (by decide) _

theorem any_intText? (n : Int) : (intText? n).any isEncodable = hasForm (.int n) := by
  rw [intText?, hasForm]
  split
  next h =>
    rw [Option.any_none, eq_comm, decide_eq_false_iff_not]
    omega
  next h =>
    rw [Option.any_some, isEncodable_int, eq_comm, decide_eq_true_eq]
    omega

theorem isEncodable_listLines (level : Nat) (lines : List String) :
    isEncodable ("[\n" ++ String.join (lines.map fun l => indent (level + 1) ++ l ++ ",\n") ++
      indent level ++ "]") = lines.all isEncodable := by
  have hopen : isEncodable "[\n" = true := by decide
  have hend : isEncodable ",\n" = true := by decide
  have hclose : isEncodable "]" = true := by decide
  simp [isEncodable_join, List.all_map, Function.comp_def, hopen, hend, hclose]

theorem isEncodable_inlineTable (pairs : List String) :
    isEncodable ("\x7b " ++ ", ".intercalate pairs ++ " \x7d") = pairs.all isEncodable := by
  have hopen : isEncodable "\x7b " = true := by decide
  have hclose : isEncodable " \x7d" = true := by decide
  have hcomma : isEncodable ", " = true := by decide
  rw [isEncodable_append, isEncodable_append, hopen, hclose, isEncodable_intercalate hcomma,
    Bool.true_and, Bool.and_true]

theorem isEncodable_pair (name l : String) :
    isEncodable (name ++ " = " ++ l) = (isEncodable name && isEncodable l) := by
  have hequals : isEncodable " = " = true := by decide
  rw [isEncodable_append, isEncodable_append, hequals, Bool.and_true]

mutual

theorem any_inline? (level : Nat) : ∀ v, (inline? level v).any isEncodable = hasForm v
  | .null => rfl
  | .bool b => by
    rw [inline?, Option.any_some, hasForm]
    cases b <;> decide
  | .int n => by rw [inline?, any_intText?]
  | .float x => by rw [inline?, Option.any_some, x.isEncodable_text, hasForm]
  | .text s => by rw [inline?, Option.any_some, isEncodable_textLiteral, hasForm]
  | .moment m => by rw [inline?, Option.any_some, m.isEncodable_text, hasForm]
  | .list [] => by
    rw [inline?, Option.any_some, hasForm, allHaveForm]
    decide
  | .list (v :: vs) => by
    rw [hasForm, ← any_inlineItems? (level + 1) (v :: vs), inline?, Option.any_map]
    · simp only [isEncodable_listLines]
    · simp
  | .map [] => by
    rw [inline?, Option.any_some, hasForm, entriesHaveForm]
    decide
  | .map (e :: es) => by
    rw [hasForm, ← any_inlineEntries? (e :: es), inline?, Option.any_map]
    · simp only [isEncodable_inlineTable]
    · simp

theorem any_inlineItems? (level : Nat) :
    ∀ vs, (inlineItems? level vs).any (·.all isEncodable) = allHaveForm vs
  | [] => rfl
  | v :: vs => by
    rw [allHaveForm, ← any_inline? level v, ← any_inlineItems? level vs, inlineItems?]
    cases inline? level v with
    | none => rfl
    | some l =>
      cases inlineItems? level vs with
      | none => simp
      | some ls => simp

theorem any_inlineEntries? : ∀ es, (inlineEntries? es).any (·.all isEncodable) = entriesHaveForm es
  | [] => rfl
  | (k, v) :: es => by
    rw [entriesHaveForm, ← any_keyText?, ← any_inline? 0 v, ← any_inlineEntries? es, inlineEntries?]
    cases keyText? k with
    | none => rfl
    | some name =>
      cases inline? 0 v with
      | none => simp
      | some l =>
        cases inlineEntries? es with
        | none => simp
        | some ls => simp only [Option.any_some, List.all_cons, isEncodable_pair]

end

theorem exists_none_of_allFitLine? {vs : List Value} (h : allFitLine? vs = none) :
    ∃ v ∈ vs, inline? 0 v = none := by
  induction vs with
  | nil => simp [allFitLine?] at h
  | cons v vs ih =>
    cases hv : inline? 0 v with
    | none => exact ⟨v, by simp, hv⟩
    | some l =>
      rw [allFitLine?, hv] at h
      dsimp only at h
      split at h
      · obtain ⟨u, hu, hnone⟩ := ih h
        exact ⟨u, List.mem_cons_of_mem _ hu, hnone⟩
      · simp at h

theorem hasForm_of_styleOf_none {v : Value} (h : styleOf v = none) : hasForm v = false := by
  cases v with
  | list items =>
    rw [styleOf] at h
    split at h
    · obtain ⟨v, hv, hnone⟩ := exists_none_of_allFitLine? (Option.map_eq_none_iff.mp h)
      have hform : hasForm v = false := by rw [← any_inline? 0 v, hnone, Option.any_none]
      rw [hasForm, allHaveForm_eq, List.all_eq_false]
      exact ⟨v, hv, by simp [hform]⟩
    · simp at h
  | _ => simp [styleOf] at h

namespace Written

theorem complete_piece (s : String) : (piece s).complete = isEncodable s := by
  rw [piece, isSome_encodeUtf8?]
  cases isEncodable s <;> rfl

theorem complete_followedBy (a b : Written) :
    (a.followedBy b).complete = (a.complete && b.complete) := by
  rw [followedBy]
  cases h : a.complete with
  | true => rfl
  | false => simp [h]

end Written

open Written

theorem complete_entryLine (e : Key × Value) :
    (entryLine e).complete = (keyHasForm e.1 && hasForm e.2) := by
  obtain ⟨k, v⟩ := e
  have hend : isEncodable "\n" = true := by decide
  rw [← any_keyText?, ← any_inline? 0, entryLine]
  cases keyText? k with
  | none => rfl
  | some name =>
    cases inline? 0 v with
    | none => simp [failed]
    | some l =>
      simp only [complete_piece]
      rw [isEncodable_append, isEncodable_pair, hend, Bool.and_true, Option.any_some,
        Option.any_some]

theorem complete_entryLines (es : List (Key × Value)) :
    (entryLines es).complete =
      es.all fun e => !(styleOf e.2 == some .line) || (keyHasForm e.1 && hasForm e.2) := by
  rw [entryLines]
  induction es with
  | nil => rfl
  | cons e es ih =>
    rw [List.all_cons, ← ih, List.filter_cons]
    cases styleOf e.2 == some .line with
    | true => simp [complete_followedBy, complete_entryLine]
    | false => simp

/-- A table without a header is the whole document or has a table below it. -/
theorem header_cases (path : String) (inList : Bool) (styles : List Style) :
    (header path inList styles = "" ∧ (path = "" ∨ ∃ s ∈ styles, s ≠ .line)) ∨
      ((header path inList styles).isEmpty = false ∧
        isEncodable (header path inList styles) = isEncodable path) := by
  have hends : isEncodable "[" = true ∧ isEncodable "[[" = true ∧ isEncodable "]\n" = true ∧
      isEncodable "]]\n" = true := by decide
  rw [header]
  split_ifs with hlist hown
  · exact Or.inr ⟨by simp, by simp [hends]⟩
  · exact Or.inr ⟨by simp, by simp [hends]⟩
  · refine Or.inl ⟨rfl, ?_⟩
    by_cases hpath : path = ""
    · exact Or.inl hpath
    · right
      simp [hpath] at hown
      exact hown.2

def isSection (v : Value) : Bool :=
  styleOf v == some .table || styleOf v == some .tables

def sectionDone (path : String) (k : Key) (v : Value) : Bool :=
  !isSection v || (isEncodable path && keyHasForm k && hasForm v)

theorem styles_eq_none {es : List (Key × Value)} (h : es.mapM (fun e => styleOf e.2) = none) :
    ∃ e ∈ es, styleOf e.2 = none := by
  induction es with
  | nil => simp at h
  | cons e es ih =>
    cases he : styleOf e.2 with
    | none => exact ⟨e, by simp, he⟩
    | some s =>
      cases hrest : es.mapM fun e => styleOf e.2 with
      | none =>
        obtain ⟨d, hd, hnone⟩ := ih hrest
        exact ⟨d, List.mem_cons_of_mem _ hd, hnone⟩
      | some styles => simp [List.mapM_cons, he, hrest] at h

theorem styles_eq_some {es : List (Key × Value)} {styles : List Style}
    (h : es.mapM (fun e => styleOf e.2) = some styles) :
    es.map (fun e => styleOf e.2) = styles.map some := by
  induction es generalizing styles with
  | nil => simp_all
  | cons e es ih =>
    rw [List.mapM_cons] at h
    obtain ⟨s, hs, h⟩ := Option.bind_eq_some_iff.mp h
    obtain ⟨rest, hrest, h⟩ := Option.bind_eq_some_iff.mp h
    obtain rfl : s :: rest = styles := Option.some.inj h
    rw [List.map_cons, List.map_cons, ih hrest, hs]

theorem all_split {path : String} {es : List (Key × Value)} (h : ∀ e ∈ es, styleOf e.2 ≠ none) :
    (isEncodable path && ((es.all fun e => !(styleOf e.2 == some .line) ||
      (keyHasForm e.1 && hasForm e.2)) && es.all fun e => sectionDone path e.1 e.2)) =
      (isEncodable path && es.all fun e => keyHasForm e.1 && hasForm e.2) := by
  cases hpath : isEncodable path with
  | false => rfl
  | true =>
    rw [Bool.true_and, Bool.true_and, Bool.eq_iff_iff, Bool.and_eq_true, List.all_eq_true,
      List.all_eq_true, List.all_eq_true, ← forall₂_and]
    refine forall₂_congr fun e he => ?_
    rw [sectionDone, isSection, hpath]
    cases hstyle : styleOf e.2 with
    | none => exact absurd hstyle (h e he)
    | some s => cases s <;> simp

theorem complete_table {path : String} {es : List (Key × Value)}
    (h : ∀ begun, (writeSections path begun es).complete = es.all fun e => sectionDone path e.1 e.2)
    (inList : Bool) :
    ((writeOwn path inList es).1.followedBy
      (writeSections path (writeOwn path inList es).2 es)).complete =
      (isEncodable path && entriesHaveForm es) := by
  rw [complete_followedBy, h, entriesHaveForm_eq]
  cases hstyles : es.mapM fun e => styleOf e.2 with
  | none =>
    obtain ⟨e, he, hnone⟩ := styles_eq_none hstyles
    have hform : (es.all fun e => keyHasForm e.1 && hasForm e.2) = false :=
      List.all_eq_false.mpr ⟨e, he, by simp [hasForm_of_styleOf_none hnone]⟩
    simp [writeOwn, hstyles, failed, hform]
  | some styles =>
    have hmap := styles_eq_some hstyles
    have hstyled : ∀ e ∈ es, styleOf e.2 ≠ none := by
      intro e he hnone
      have hmem : styleOf e.2 ∈ styles.map some := hmap ▸ List.mem_map_of_mem he
      simp [hnone] at hmem
    rw [← all_split hstyled]
    simp only [writeOwn, hstyles, complete_followedBy, complete_entryLines]
    rcases header_cases path inList styles with ⟨hhead, htop⟩ | ⟨hhead, hencodable⟩
    · rw [hhead]
      rcases htop with rfl | ⟨s, hs, hline⟩
      · rfl
      · -- the section below writes the whole path, so it stands for the header that is left out
        obtain ⟨e, he, hstyle⟩ := List.mem_map.mp (hmap ▸ List.mem_map_of_mem hs)
        cases hpath : isEncodable path with
        | true => rfl
        | false =>
          have hsection : (es.all fun e => sectionDone path e.1 e.2) = false := by
            refine List.all_eq_false.mpr ⟨e, he, ?_⟩
            rw [sectionDone, isSection, hstyle, hpath]
            cases s <;> simp at hline ⊢
          rw [hsection, Bool.and_false, Bool.false_and]
    · simp only [hhead, Bool.false_eq_true, if_false, complete_piece, hencodable, Bool.and_assoc]

theorem isEncodable_pathTo (path name : String) :
    isEncodable (pathTo path name) = (isEncodable path && isEncodable name) := by
  have hdot : isEncodable "." = true := by decide
  rw [pathTo]
  split
  next h =>
    rw [String.isEmpty_iff.mp h]
    rfl
  next => rw [isEncodable_append, isEncodable_append, hdot, Bool.and_true]

theorem complete_underKey {path : String} {k : Key} {w : String → Written} {b : Bool}
    (h : ∀ path, (w path).complete = (isEncodable path && b)) (begun : Bool) :
    (underKey path begun k w).complete = (isEncodable path && keyHasForm k && b) := by
  have hgap : (gap begun).complete = true := by
    cases begun <;> decide
  rw [underKey, complete_followedBy, hgap, Bool.true_and, ← any_keyText?]
  cases keyText? k with
  | none => simp [failed]
  | some name => rw [h, isEncodable_pathTo, Option.any_some]

theorem styleOf_tables {items : List Value} (h : styleOf (.list items) = some .tables) :
    items ≠ [] ∧ items.all isTable = true := by
  rw [styleOf] at h
  split at h
  next htables => simpa using htables
  next => simp at h

theorem styleOf_list_ne_table (items : List Value) : styleOf (.list items) ≠ some .table := by
  rw [styleOf]
  split
  · cases allFitLine? items with
    | none => simp
    | some fit => cases fit <;> simp
  · simp

theorem all_and_left {vs : List Value} (hvs : vs ≠ []) {b : Bool} {p : Value → Bool} :
    (vs.all fun v => b && p v) = (b && vs.all p) := by
  cases b with
  | true => rfl
  | false =>
    obtain ⟨v, vs, rfl⟩ := List.exists_cons_of_ne_nil hvs
    rfl

mutual

theorem complete_writeSections (path : String) (begun : Bool) :
    ∀ es, (writeSections path begun es).complete = es.all fun e => sectionDone path e.1 e.2
  | [] => rfl
  | (k, v) :: es => by
    rw [writeSections, complete_followedBy, complete_writeSection path begun k v,
      complete_writeSections path _ es, List.all_cons]

theorem complete_writeSection (path : String) (begun : Bool) (k : Key) :
    ∀ v, (writeSection path begun k v).complete = sectionDone path k v
  | .map es => by
    rw [writeSection]
    exact complete_underKey
      (fun path => complete_table (complete_writeSections path · es) false) begun
  | .list items => by
    rw [writeSection]
    split
    next h =>
      obtain ⟨hsome, htables⟩ := styleOf_tables h
      rw [complete_writeItems path begun k items htables, sectionDone, isSection, h, hasForm,
        allHaveForm_eq]
      exact all_and_left hsome
    next h =>
      have hsection : isSection (.list items) = false := by
        simpa [isSection, h] using styleOf_list_ne_table items
      rw [sectionDone, hsection]
      rfl
  | .null => rfl
  | .bool _ => rfl
  | .int _ => rfl
  | .float _ => rfl
  | .text _ => rfl
  | .moment _ => rfl

theorem complete_writeItems (path : String) (begun : Bool) (k : Key) :
    ∀ vs, vs.all isTable = true → (writeItems path begun k vs).complete =
      vs.all fun v => isEncodable path && keyHasForm k && hasForm v
  | [], _ => rfl
  | v :: vs, h => by
    rw [List.all_cons, Bool.and_eq_true] at h
    rw [writeItems, complete_followedBy, complete_writeItem path begun k v h.1,
      complete_writeItems path true k vs h.2, List.all_cons]

theorem complete_writeItem (path : String) (begun : Bool) (k : Key) :
    ∀ v, isTable v = true →
      (writeItem path begun k v).complete = (isEncodable path && keyHasForm k && hasForm v)
  | .map es, _ => by
    rw [writeItem]
    exact complete_underKey
      (fun path => complete_table (complete_writeSections path · es) true) begun

end

theorem complete_write (es : Entries) : (write (.map es)).complete = hasForm (.map es) :=
  complete_table (complete_writeSections "" · es) false

end SwitchLexicon.Toml
