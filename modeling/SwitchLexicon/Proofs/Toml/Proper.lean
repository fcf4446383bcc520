import SwitchLexicon.Proofs.Detail.Record
import SwitchLexicon.Proofs.Value.Mapping
import SwitchLexicon.Toml.Reader

/-!
What is read from a TOML document has one entry a key, in every table of it. A document is changed
in one way only, by entries that are put or added, and a name that is there already is not added.
-/
namespace SwitchLexicon

theorem Settings.find?_text (name : String) (es : Entries) :
    find? (.text name) es = Entries.get? name es := by
  induction es with
  | nil => rfl
  | cons e es ih => simp only [find?, Entries.get?, Key.same_text, decide_eq_true_eq, ih]

namespace Entries

theorem append_eq_put {name : String} {es : Entries} (h : get? name es = none) (v : Value) :
    es ++ [(.text name, v)] = put name v es := by
  rw [put, insert_of_new (Settings.find?_eq_none_iff.mp ((Settings.find?_text name es).trans h))]

end Entries

namespace Value

theorem Proper.insert {es : Entries} (h : Proper (.map es)) (l : Key) {v : Value} (hv : v.Proper) :
    Proper (.map (Entries.insert l v es)) := by
  refine .map (h.distinct.insert l v) fun e he => ?_
  rcases Entries.mem_insert he with he | ⟨rfl, -⟩
  · exact h.values e he
  · exact hv

theorem Proper.get? {name : String} {v : Value} {es : Entries} (h : Proper (.map es))
    (hv : Entries.get? name es = some v) : v.Proper := by
  rw [← Settings.find?_text] at hv
  exact h.find? hv

theorem proper_empty : Proper (.map []) :=
  .map List.Pairwise.nil (by simp)

theorem Proper.singleton (k : Key) {v : Value} (hv : v.Proper) : Proper (.map [(k, v)]) :=
  proper_empty.insert k hv

end Value

namespace Toml

open Value (Proper)

theorem proper_alterAt {f : Entries → Option Entries}
    (hf : ∀ {es fs}, Proper (.map es) → f es = some fs → Proper (.map fs)) {path : KeyPath}
    {es fs : Entries} (hes : Proper (.map es)) (h : alterAt f path es = some fs) :
    Proper (.map fs) := by
  induction path generalizing es fs with
  | nil => exact hf hes h
  | cons name path ih =>
    rw [alterAt] at h
    split at h
    · obtain ⟨t, ht, rfl⟩ := Option.map_eq_some_iff.mp h
      exact hes.insert _ (ih Value.proper_empty ht)
    next t hname =>
      obtain ⟨u, hu, rfl⟩ := Option.map_eq_some_iff.mp h
      exact hes.insert _ (ih (hes.get? hname) hu)
    next items hname =>
      split at h
      next t hlast =>
        obtain ⟨u, hu, rfl⟩ := Option.map_eq_some_iff.mp h
        have hitems := (hes.get? hname).items
        refine hes.insert _ (.list fun v hv => ?_)
        rcases List.mem_append.mp hv with hv | hv
        · exact hitems v ((List.dropLast_sublist items).subset hv)
        · rw [List.mem_singleton.mp hv]
          exact ih (hitems _ (List.mem_of_getLast? hlast)) hu
      next => cases h
    next => cases h

theorem proper_addEntry {name : String} {v : Value} (hv : v.Proper) {es fs : Entries}
    (hes : Proper (.map es)) (h : addEntry name v es = some fs) : Proper (.map fs) := by
  rw [addEntry] at h
  split at h
  · cases h
  next hnew =>
    obtain rfl := Option.some.inj h
    rw [Entries.append_eq_put hnew]
    exact hes.insert _ hv

theorem proper_addTable {name : String} {es fs : Entries} (hes : Proper (.map es))
    (h : addTable name es = some fs) : Proper (.map fs) := by
  rw [addTable] at h
  split at h
  next hnew =>
    obtain rfl := Option.some.inj h
    rw [Entries.append_eq_put hnew]
    exact hes.insert _ (.list fun v hv => List.mem_singleton.mp hv ▸ Value.proper_empty)
  next items hname =>
    obtain rfl := Option.some.inj h
    refine hes.insert _ (.list fun v hv => ?_)
    rcases List.mem_append.mp hv with hv | hv
    · exact (hes.get? hname).items v hv
    · exact List.mem_singleton.mp hv ▸ Value.proper_empty
  next => cases h

namespace Document

def IsProper (d : Document) : Prop := Proper (.map d.entries)

theorem isProper_empty : IsProper {} :=
  Value.proper_empty

theorem IsProper.openTable {d e : Document} {path : KeyPath} (hd : d.IsProper)
    (h : d.openTable path = some e) : e.IsProper := by
  rw [Document.openTable] at h
  split at h
  · cases h
  · obtain ⟨es, hes, rfl⟩ := Option.map_eq_some_iff.mp h
    exact proper_alterAt (fun hes h => Option.some.inj h ▸ hes) hd hes

theorem IsProper.appendTable {d e : Document} {path : KeyPath} (hd : d.IsProper)
    (h : d.appendTable path = some e) : e.IsProper := by
  rw [Document.appendTable] at h
  split at h
  · cases h
  · dsimp only at h
    split at h
    · cases h
    · obtain ⟨es, hes, rfl⟩ := Option.map_eq_some_iff.mp h
      exact proper_alterAt proper_addTable hd hes

theorem IsProper.setKey {d e : Document} {header key : KeyPath} {v : Value} (hd : d.IsProper)
    (hv : v.Proper) (h : d.setKey header key v = some e) : e.IsProper := by
  rw [Document.setKey] at h
  split at h
  · cases h
  · split at h
    · cases h
    · obtain ⟨es, hes, rfl⟩ := Option.map_eq_some_iff.mp h
      exact proper_alterAt (proper_addEntry hv) hd hes

end Document

theorem isPlain_of_readWord {cs rest : List Char} {v : Value} (h : readWord cs = some (v, rest)) :
    v.isPlain = true := by
  obtain ⟨w, hw, hv⟩ := Option.map_eq_some_iff.mp h
  obtain ⟨rfl, -⟩ := Prod.mk.inj hv
  have hall : ∀ w ∈ words, w.2.isPlain = true := by simp [words, Value.isPlain]
  exact hall w (List.mem_of_find?_eq_some hw)

theorem isPlain_of_readBased {cs rest : List Char} {v : Value}
    (h : readBased cs = some (v, rest)) : v.isPlain = true := by
  rw [readBased.eq_def] at h
  split at h
  · simp only [Option.bind_eq_bind, Option.bind_eq_some_iff] at h
    obtain ⟨base, -, run, -, hv⟩ := h
    obtain ⟨rfl, -⟩ := Prod.mk.inj (Option.some.inj hv)
    rfl
  · cases h

theorem isPlain_of_readDecimal {cs rest : List Char} {v : Value}
    (h : readDecimal cs = some (v, rest)) : v.isPlain = true := by
  rw [readDecimal] at h
  simp only [Option.bind_eq_bind, Option.bind_eq_some_iff] at h
  obtain ⟨whole, -, hv⟩ := h
  split at hv
  · split at hv
    · cases hv
    · obtain ⟨rfl, -⟩ := Prod.mk.inj (Option.some.inj hv)
      rfl
  · obtain ⟨rfl, -⟩ := Prod.mk.inj (Option.some.inj hv)
    rfl

theorem isPlain_of_readScalar {cs rest : List Char} {v : Value}
    (h : readScalar cs = some (v, rest)) : v.isPlain = true := by
  rw [readScalar] at h
  split at h
  · split at h
    · obtain ⟨rfl, -⟩ := Prod.mk.inj (Option.some.inj h)
      rfl
    · cases h
  · split at h
    · obtain ⟨rfl, -⟩ := Prod.mk.inj (Option.some.inj h)
      rfl
    · cases hword : readWord cs with
      | some r =>
        obtain rfl : r = (v, rest) := by simpa [hword] using h
        exact isPlain_of_readWord hword
      | none =>
        cases hbased : readBased cs with
        | some r =>
          obtain rfl : r = (v, rest) := by simpa [hword, hbased] using h
          exact isPlain_of_readBased hbased
        | none => exact isPlain_of_readDecimal (by simpa [hword, hbased] using h)

structure ReadersProper (fuel : Nat) : Prop where
  value : ∀ {depth cs v rest}, readValue depth fuel cs = some (v, rest) → v.Proper
  items : ∀ {depth acc cs v rest}, (∀ x ∈ acc, Proper x) →
    readItems depth fuel acc cs = some (v, rest) → v.Proper
  pairs : ∀ {depth table cs v rest}, table.IsProper →
    readPairs depth fuel table cs = some (v, rest) → v.Proper

theorem readersProper_zero : ReadersProper 0 where
  value h := by cases h
  items _ h := by cases h
  pairs _ h := by cases h

section Readers

variable {fuel : Nat} (ih : ReadersProper fuel)
include ih

theorem proper_readValue {depth : Nat} {cs rest : List Char} {v : Value}
    (h : readValue depth (fuel + 1) cs = some (v, rest)) : v.Proper := by
  rw [readValue.eq_def] at h
  dsimp only at h
  split at h
  · split at h
    · cases h
    · split at h
      · cases h
      · obtain ⟨rfl, -⟩ := Prod.mk.inj (Option.some.inj h)
        exact .list (by simp)
      · exact ih.items (by simp) h
  · split at h
    · cases h
    · split at h
      · obtain ⟨rfl, -⟩ := Prod.mk.inj (Option.some.inj h)
        exact Value.proper_empty
      · exact ih.pairs Document.isProper_empty h
  · split at h
    · obtain ⟨r, -, hr⟩ := Option.map_eq_some_iff.mp h
      obtain ⟨rfl, -⟩ := Prod.mk.inj hr
      exact .plain rfl
    · exact .plain (isPlain_of_readScalar h)
  · cases h

theorem proper_readItems {depth : Nat} {acc : List Value} {cs rest : List Char} {v : Value}
    (hacc : ∀ x ∈ acc, Proper x) (h : readItems depth (fuel + 1) acc cs = some (v, rest)) :
    v.Proper := by
  rw [readItems.eq_def] at h
  dsimp only at h
  split at h
  · cases h
  next w tail hw =>
    have hitems : ∀ x ∈ w :: acc, Proper x := by
      intro x hx
      rcases List.mem_cons.mp hx with rfl | hx
      · exact ih.value hw
      · exact hacc x hx
    have hlist : Proper (.list (w :: acc).reverse) :=
      .list fun x hx => hitems x (List.mem_reverse.mp hx)
    split at h
    · obtain ⟨rfl, -⟩ := Prod.mk.inj (Option.some.inj h)
      exact hlist
    · split at h
      · cases h
      · obtain ⟨rfl, -⟩ := Prod.mk.inj (Option.some.inj h)
        exact hlist
      · exact ih.items hitems h
    · cases h

theorem proper_readPairs {depth : Nat} {table : Document} {cs rest : List Char} {v : Value}
    (htable : table.IsProper) (h : readPairs depth (fuel + 1) table cs = some (v, rest)) :
    v.Proper := by
  rw [readPairs.eq_def] at h
  dsimp only at h
  split at h
  · split at h
    · cases h
    next w tail hw =>
      split at h
      · cases h
      next next hnext =>
        have hproper := htable.setKey (ih.value hw) hnext
        split at h
        · obtain ⟨rfl, -⟩ := Prod.mk.inj (Option.some.inj h)
          exact hproper
        · exact ih.pairs hproper h
        · cases h
  · cases h

end Readers

theorem readersProper (fuel : Nat) : ReadersProper fuel := by
  induction fuel with
  | zero => exact readersProper_zero
  | succ fuel ih => exact ⟨proper_readValue ih, proper_readItems ih, proper_readPairs ih⟩

theorem proper_readStatement {d e : Document} {header next : KeyPath} {cs rest : List Char}
    (hd : d.IsProper) (h : readStatement d header cs = some ((e, next), rest)) : e.IsProper := by
  have hsettled : d.settlePending.IsProper := hd
  rw [readStatement.eq_def] at h
  split at h
  · obtain ⟨rfl, -⟩ := Prod.mk.inj (Prod.mk.inj (Option.some.inj h)).1
    exact hd
  · obtain ⟨rfl, -⟩ := Prod.mk.inj (Prod.mk.inj (Option.some.inj h)).1
    exact hd
  · obtain ⟨rfl, -⟩ := Prod.mk.inj (Prod.mk.inj (Option.some.inj h)).1
    exact hd
  · simp only [Option.bind_eq_bind, Option.bind_eq_some_iff] at h
    obtain ⟨path, -, f, hf, hv⟩ := h
    obtain ⟨rfl, -⟩ := Prod.mk.inj (Prod.mk.inj (Option.some.inj hv)).1
    exact hsettled.appendTable hf
  · simp only [Option.bind_eq_bind, Option.bind_eq_some_iff] at h
    obtain ⟨path, -, f, hf, hv⟩ := h
    obtain ⟨rfl, -⟩ := Prod.mk.inj (Prod.mk.inj (Option.some.inj hv)).1
    exact hsettled.openTable hf
  · simp only [Option.bind_eq_bind, Option.bind_eq_some_iff] at h
    obtain ⟨pair, hpair, f, hf, hv⟩ := h
    obtain ⟨rfl, -⟩ := Prod.mk.inj (Prod.mk.inj (Option.some.inj hv)).1
    refine hd.setKey ?_ hf
    rw [readPair] at hpair
    split at hpair
    · obtain ⟨r, hr, rfl⟩ := Option.map_eq_some_iff.mp hpair
      exact (readersProper _).value hr
    · cases hpair

theorem proper_readStatements {fuel : Nat} {d e : Document} {header : KeyPath} {cs : List Char}
    (hd : d.IsProper) (h : readStatements fuel d header cs = some e) : e.IsProper := by
  induction fuel generalizing d header cs with
  | zero =>
    cases cs with
    | nil => exact Option.some.inj h ▸ hd
    | cons c cs => cases h
  | succ fuel ih =>
    cases cs with
    | nil => exact Option.some.inj h ▸ hd
    | cons c cs =>
      simp only [readStatements, Option.bind_eq_bind, Option.bind_eq_some_iff] at h
      obtain ⟨⟨⟨f, next⟩, rest⟩, hstatement, tail, -, hrest⟩ := h
      exact ih (proper_readStatement hd hstatement) hrest

theorem proper_read {s : String} {es : Entries} (h : read s = some es) : Proper (.map es) := by
  obtain ⟨d, hd, rfl⟩ := Option.map_eq_some_iff.mp h
  exact proper_readStatements Document.isProper_empty hd

end Toml

end SwitchLexicon
