import Mathlib.Data.List.Induction
import SwitchLexicon.Settings.Merge

/-!
Mappings by what is found in them. Sameness of keys is symmetric and transitive, so an insertion
changes what is found under one key and nothing else. Two values are the same when no path through
keys and places tells them apart; the order of entries does not count. For equality it does, and
equality is decided.
-/
namespace SwitchLexicon

namespace Key

theorem same_cases {a b : Key} (h : a.same b = true) :
    (∃ n, a.whole? = some n ∧ b.whole? = some n) ∨ a = b := by
  unfold same at h
  split at h
  next m n ha hb =>
    obtain rfl : m = n := by simpa using h
    exact Or.inl ⟨m, ha, hb⟩
  next =>
    refine Or.inr ?_
    split at h
    · simp only [Bool.and_eq_true, beq_iff_eq] at h
      exact h.2
    · exact beq_iff_eq.mp h
  next => cases h

theorem same_of_whole {a b : Key} {n : Int} (ha : a.whole? = some n) (hb : b.whole? = some n) :
    a.same b = true := by
  simp [same, ha, hb]

theorem same_symm {a b : Key} (h : a.same b = true) : b.same a = true := by
  rcases same_cases h with ⟨n, ha, hb⟩ | rfl
  · exact same_of_whole hb ha
  · exact h

theorem same_trans {a b c : Key} (hab : a.same b = true) (hbc : b.same c = true) :
    a.same c = true := by
  rcases same_cases hab with ⟨m, ha, hb⟩ | rfl
  · rcases same_cases hbc with ⟨n, hb', hc⟩ | rfl
    · obtain rfl : m = n := Option.some.inj (hb.symm.trans hb')
      exact same_of_whole ha hc
    · exact hab
  · exact hbc

theorem same_congr {a b : Key} (h : a.same b = true) (c : Key) : c.same a = c.same b :=
  Bool.eq_iff_iff.mpr ⟨fun hca => same_trans hca h, fun hcb => same_trans hcb (same_symm h)⟩

theorem same_comm (a b : Key) : a.same b = b.same a :=
  Bool.eq_iff_iff.mpr ⟨same_symm, same_symm⟩

end Key

namespace Settings

theorem find?_congr {k l : Key} (h : k.same l = true) (es : Entries) : find? k es = find? l es := by
  induction es with
  | nil => rfl
  | cons e es ih => rw [find?, find?, Key.same_congr h, ih]

theorem mem_of_find? {k : Key} {v : Value} {es : Entries} (h : find? k es = some v) :
    ∃ l, (l, v) ∈ es := by
  induction es with
  | nil => simp [find?] at h
  | cons e es ih =>
    rw [find?] at h
    split at h
    · obtain rfl := Option.some.inj h
      exact ⟨e.1, List.mem_cons_self⟩
    · obtain ⟨l, hl⟩ := ih h
      exact ⟨l, List.mem_cons_of_mem _ hl⟩

theorem find?_eq_none_iff {k : Key} {es : Entries} :
    find? k es = none ↔ ∀ e ∈ es, e.1.same k = false := by
  induction es with
  | nil => simp [find?]
  | cons e es ih =>
    rw [find?, List.forall_mem_cons, ← ih]
    cases e.1.same k <;> simp

theorem find?_insert (k l : Key) (v : Value) (es : Entries) :
    find? k (Entries.insert l v es) = if l.same k then some v else find? k es := by
  induction es with
  | nil => rfl
  | cons e es ih =>
    obtain ⟨m, w⟩ := e
    rw [Entries.insert]
    cases hml : m.same l with
    | true =>
      rw [if_pos rfl, find?, find?, Key.same_comm m k, Key.same_congr hml k, Key.same_comm k l]
      cases l.same k <;> rfl
    | false =>
      rw [if_neg (by simp), find?, find?, ih]
      -- no key is the same as both, so the order of the two questions does not matter
      have hboth : ¬(m.same k = true ∧ l.same k = true) := by
        rintro ⟨hmk, hlk⟩
        rw [Key.same_trans hmk (Key.same_symm hlk)] at hml
        cases hml
      cases hmk : m.same k <;> cases hlk : l.same k <;> simp_all

end Settings

def Entries.Distinct (es : Entries) : Prop :=
  es.Pairwise fun a b => a.1.same b.1 = false

theorem Entries.Distinct.find?_tail {k l : Key} {v : Value} {es : Entries}
    (h : Entries.Distinct ((l, v) :: es)) (hl : l.same k = true) : Settings.find? k es = none := by
  rw [Settings.find?_eq_none_iff]
  intro e he
  have hle : l.same e.1 = false := (List.pairwise_cons.mp h).1 e he
  rw [← Key.same_congr hl, Key.same_comm, hle]

namespace Entries

theorem insert_of_new {k : Key} {es : Entries} (h : ∀ e ∈ es, e.1.same k = false) (v : Value) :
    insert k v es = es ++ [(k, v)] := by
  induction es with
  | nil => rfl
  | cons e es ih =>
    obtain ⟨l, w⟩ := e
    have hl : l.same k = false := h (l, w) (by simp)
    rw [insert, hl, if_neg Bool.false_ne_true, ih fun e he => h e (List.mem_cons_of_mem _ he)]
    rfl

theorem foldl_insert_of_distinct {es fs : Entries} (h : (es ++ fs).Distinct) :
    fs.foldl (fun es p => insert p.1 p.2 es) es = es ++ fs := by
  induction fs generalizing es with
  | nil => simp
  | cons f fs ih =>
    have hnew : ∀ e ∈ es, e.1.same f.1 = false := by
      intro e he
      exact (List.pairwise_append.mp h).2.2 e he f (by simp)
    have happend : es ++ f :: fs = es ++ [f] ++ fs := by simp
    rw [List.foldl_cons, insert_of_new hnew, happend]
    exact ih (by rwa [happend] at h)

theorem ofPairs_of_distinct {es : Entries} (h : es.Distinct) : ofPairs es = es :=
  foldl_insert_of_distinct h

theorem mem_insert {l : Key} {v : Value} {es : Entries} {e : Key × Value} (h : e ∈ insert l v es) :
    e ∈ es ∨ e.2 = v ∧ (e.1 = l ∨ ∃ w, (e.1, w) ∈ es) := by
  induction es with
  | nil =>
    obtain rfl := List.mem_singleton.mp h
    exact Or.inr ⟨rfl, Or.inl rfl⟩
  | cons f es ih =>
    obtain ⟨m, w⟩ := f
    rw [insert] at h
    split at h
    · rcases List.mem_cons.mp h with rfl | h
      · exact Or.inr ⟨rfl, Or.inr ⟨w, List.mem_cons_self⟩⟩
      · exact Or.inl (List.mem_cons_of_mem _ h)
    · rcases List.mem_cons.mp h with rfl | h
      · exact Or.inl List.mem_cons_self
      · rcases ih h with h | ⟨hv, hl | ⟨x, hx⟩⟩
        · exact Or.inl (List.mem_cons_of_mem _ h)
        · exact Or.inr ⟨hv, Or.inl hl⟩
        · exact Or.inr ⟨hv, Or.inr ⟨x, List.mem_cons_of_mem _ hx⟩⟩

theorem Distinct.insert {es : Entries} (h : es.Distinct) (l : Key) (v : Value) :
    (Entries.insert l v es).Distinct := by
  induction es with
  | nil => exact List.pairwise_singleton _ _
  | cons e es ih =>
    obtain ⟨m, w⟩ := e
    obtain ⟨hm, hes⟩ := List.pairwise_cons.mp h
    rw [Entries.insert]
    split
    · exact List.pairwise_cons.mpr ⟨hm, hes⟩
    next hml =>
      refine List.pairwise_cons.mpr ⟨fun f hf => ?_, ih hes⟩
      rcases mem_insert hf with hf | ⟨-, hl | ⟨x, hx⟩⟩
      · exact hm f hf
      · simpa [hl] using hml
      · exact hm (f.1, x) hx

theorem ofPairs_concat (es : Entries) (e : Key × Value) :
    ofPairs (es ++ [e]) = insert e.1 e.2 (ofPairs es) := by
  simp [ofPairs]

theorem distinct_ofPairs (es : Entries) : (ofPairs es).Distinct := by
  induction es using List.reverseRecOn with
  | nil => exact List.Pairwise.nil
  | append_singleton es e ih =>
    rw [ofPairs_concat]
    exact ih.insert e.1 e.2

theorem mem_ofPairs {es : Entries} {e : Key × Value} (h : e ∈ ofPairs es) :
    (∃ v, (e.1, v) ∈ es) ∧ ∃ k, (k, e.2) ∈ es := by
  induction es using List.reverseRecOn generalizing e with
  | nil => cases h
  | append_singleton es f ih =>
    rw [ofPairs_concat] at h
    have hlast : (f.1, f.2) ∈ es ++ [f] := by simp
    rcases mem_insert h with h | ⟨hv, hk | ⟨v, hw⟩⟩
    · obtain ⟨⟨v, hv⟩, k, hk⟩ := ih h
      exact ⟨⟨v, List.mem_append_left _ hv⟩, k, List.mem_append_left _ hk⟩
    · exact ⟨⟨f.2, hk ▸ hlast⟩, f.1, hv ▸ hlast⟩
    · obtain ⟨⟨v, hv'⟩, -⟩ := ih hw
      exact ⟨⟨v, List.mem_append_left _ hv'⟩, f.1, hv ▸ hlast⟩

end Entries

namespace Value

mutual

def equals : Value → Value → Bool
  | .null, .null => true
  | .bool a, .bool b => a == b
  | .int m, .int n => m == n
  | .float x, .float y => x == y
  | .text s, .text t => s == t
  | .moment m, .moment n => m == n
  | .list vs, .list ws => itemsEqual vs ws
  | .map es, .map fs => entriesEqual es fs
  | _, _ => false

def itemsEqual : List Value → List Value → Bool
  | [], [] => true
  | v :: vs, w :: ws => v.equals w && itemsEqual vs ws
  | _, _ => false

def entriesEqual : List (Key × Value) → List (Key × Value) → Bool
  | [], [] => true
  | (k, v) :: es, (l, w) :: fs => k == l && v.equals w && entriesEqual es fs
  | _, _ => false

end

mutual

theorem equals_iff : (v w : Value) → (v.equals w = true ↔ v = w)
  | .list vs, w => by cases w <;> simp [equals, itemsEqual_iff vs]
  | .map es, w => by cases w <;> simp [equals, entriesEqual_iff es]
  | .null, w => by cases w <;> simp [equals]
  | .bool _, w => by cases w <;> simp [equals]
  | .int _, w => by cases w <;> simp [equals]
  | .float _, w => by cases w <;> simp [equals]
  | .text _, w => by cases w <;> simp [equals]
  | .moment _, w => by cases w <;> simp [equals]

theorem itemsEqual_iff : (vs ws : List Value) → (itemsEqual vs ws = true ↔ vs = ws)
  | [], ws => by cases ws <;> simp [itemsEqual]
  | v :: vs, ws => by cases ws <;> simp [itemsEqual, equals_iff v, itemsEqual_iff vs]

theorem entriesEqual_iff : (es fs : List (Key × Value)) → (entriesEqual es fs = true ↔ es = fs)
  | [], fs => by cases fs <;> simp [entriesEqual]
  | (k, v) :: es, fs => by
    cases fs <;> simp [entriesEqual, equals_iff v, entriesEqual_iff es, Prod.ext_iff]

end

instance : DecidableEq Value := fun v w => decidable_of_iff _ (equals_iff v w)

def isPlain : Value → Bool
  | .list _ => false
  | .map _ => false
  | _ => true

/-- No mapping in the value has two entries for one key. -/
inductive Proper : Value → Prop
  | plain {v : Value} (plain : v.isPlain = true) : Proper v
  | list {vs : List Value} (items : ∀ v ∈ vs, Proper v) : Proper (.list vs)
  | map {es : Entries} (distinct : es.Distinct) (values : ∀ e ∈ es, Proper e.2) : Proper (.map es)

theorem Proper.distinct {es : Entries} (h : Proper (.map es)) : es.Distinct := by
  cases h with
  | plain h => cases h
  | map distinct values => exact distinct

theorem Proper.values {es : Entries} (h : Proper (.map es)) : ∀ e ∈ es, Proper e.2 := by
  cases h with
  | plain h => cases h
  | map distinct values => exact values

theorem Proper.items {vs : List Value} (h : Proper (.list vs)) : ∀ v ∈ vs, Proper v := by
  cases h with
  | plain h => cases h
  | list items => exact items

theorem Proper.find? {k : Key} {v : Value} {es : Entries} (h : Proper (.map es))
    (hv : Settings.find? k es = some v) : Proper v := by
  obtain ⟨l, hl⟩ := Settings.mem_of_find? hv
  exact h.values _ hl

inductive Step where
  | entry (k : Key)
  | item (n : Nat)
deriving DecidableEq, Repr

/-- What a value shows before any step into it. -/
inductive Face where
  | mapping
  | list
  | plain (v : Value)
deriving DecidableEq, Repr

def face : Value → Face
  | .map _ => .mapping
  | .list _ => .list
  | v => .plain v

def step? : Step → Value → Option Value
  | .entry k, .map es => Settings.find? k es
  | .item n, .list vs => vs[n]?
  | _, _ => none

def faceAt : List Step → Value → Option Face
  | [], v => some v.face
  | s :: path, v => (v.step? s).bind (faceAt path)

/-- No path tells the values apart. -/
def Same (v w : Value) : Prop :=
  ∀ path, v.faceAt path = w.faceAt path

theorem Same.step {v w : Value} (h : v.Same w) (s : Step) (path : List Step) :
    (v.step? s).bind (faceAt path) = (w.step? s).bind (faceAt path) :=
  h (s :: path)

theorem isSome_of_bind_face {x y : Option Value}
    (h : x.bind (faceAt []) = y.bind (faceAt [])) : x.isSome = y.isSome := by
  cases x <;> cases y <;> simp_all [faceAt]

end Value

end SwitchLexicon
