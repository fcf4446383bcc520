import SwitchLexicon.Json.Reader
import SwitchLexicon.Proofs.Value.Mapping

/-!
What is read from JSON text: leaves, in lists and in mappings that have one entry a name, nested no
deeper than the reader goes. Whole numbers among the leaves have no more digits than are allowed.
-/
namespace SwitchLexicon.Json

/-- Leaves in lists and mappings, at most `depth` levels deep. -/
inductive Layered (leaf : Value → Prop) : Nat → Value → Prop
  | leaf {depth : Nat} {v : Value} (holds : leaf v) : Layered leaf depth v
  | list {depth : Nat} {vs : List Value} (items : ∀ v ∈ vs, Layered leaf depth v) :
      Layered leaf (depth + 1) (.list vs)
  | map {depth : Nat} {es : Entries} (distinct : es.Distinct)
      (keys : ∀ e ∈ es, ∃ name, e.1 = .text name ∧ leaf (.text name))
      (values : ∀ e ∈ es, Layered leaf depth e.2) : Layered leaf (depth + 1) (.map es)

inductive Leaf : Value → Prop
  | null : Leaf .null
  | bool (b : Bool) : Leaf (.bool b)
  | int {n : Int} (short : n.natAbs < numberLimit) : Leaf (.int n)
  | float (x : Binary64) : Leaf (.float x)
  | text (s : String) : Leaf (.text s)

theorem layered_ofPairs {leaf : Value → Prop} {depth : Nat} {es : Entries}
    (keys : ∀ e ∈ es, ∃ name, e.1 = .text name ∧ leaf (.text name))
    (values : ∀ e ∈ es, Layered leaf depth e.2) :
    Layered leaf (depth + 1) (.map (Entries.ofPairs es)) := by
  refine .map (Entries.distinct_ofPairs es) (fun e he => ?_) fun e he => ?_
  · obtain ⟨⟨v, hv⟩, -⟩ := Entries.mem_ofPairs he
    exact keys (e.1, v) hv
  · obtain ⟨-, k, hk⟩ := Entries.mem_ofPairs he
    exact values (k, e.2) hk

theorem digitsValue_lt {ds : List Char} (h : ∀ d ∈ ds, isAsciiDigit d = true)
    (hshort : ds.length ≤ digitLimit) : digitsValue ds < numberLimit := by
  have hfold (n : Nat) :
      ds.foldl (fun n d => 10 * n + (d.toNat - 0x30)) n < (n + 1) * 10 ^ ds.length := by
    clear hshort
    induction ds generalizing n with
    | nil => simp
    | cons d ds ih =>
      have hd := h d (.head _)
      simp only [isAsciiDigit, Bool.and_eq_true, decide_eq_true_eq] at hd
      have hnext : 10 * n + (d.toNat - 0x30) + 1 ≤ (n + 1) * 10 := by omega
      refine Nat.lt_of_lt_of_le (ih (fun c hc => h c (.tail _ hc)) _) ?_
      rw [List.length_cons, Nat.pow_succ', ← Nat.mul_assoc]
      exact Nat.mul_le_mul_right _ hnext
  have hdigits := hfold 0
  rw [Nat.zero_add, Nat.one_mul] at hdigits
  unfold numberLimit
  generalize digitLimit = most at hshort ⊢
  exact Nat.lt_of_lt_of_le hdigits (Nat.pow_le_pow_right (by decide) hshort)

theorem leaf_readNumber {cs rest : List Char} {v : Value} (h : readNumber cs = .ok (v, rest)) :
    Leaf v := by
  revert h
  fun_cases readNumber cs with
  | case3 negative body whole _ fraction middle _ exponent tail _ _ hshort n =>
    intro h
    obtain ⟨rfl, -⟩ := Prod.mk.inj (Except.ok.inj h)
    have hdigits : ∀ d ∈ whole, isAsciiDigit d = true := by
      simp only [whole]
      split
      · simp [isAsciiDigit]
      · exact List.all_eq_true.mp List.all_takeWhile
    have hlt := digitsValue_lt hdigits (Nat.not_lt.mp hshort)
    refine .int ?_
    split
    · rwa [Int.natAbs_neg]
    · exact hlt
  | case4 =>
    intro h
    obtain ⟨rfl, -⟩ := Prod.mk.inj (Except.ok.inj h)
    exact .float _
  | _ => exact nofun

theorem leaf_readScalar {cs rest : List Char} {v : Value} (h : readScalar cs = .ok (v, rest)) :
    Leaf v := by
  rw [readScalar] at h
  split at h
  next word w hfound =>
    obtain ⟨rfl, -⟩ := Prod.mk.inj (Except.ok.inj h)
    have hmem := List.mem_of_find?_eq_some hfound
    simp only [literals, List.mem_cons, List.not_mem_nil, or_false, Prod.mk.injEq] at hmem
    rcases hmem with ⟨-, rfl⟩ | ⟨-, rfl⟩ | ⟨-, rfl⟩ | ⟨-, rfl⟩ | ⟨-, rfl⟩ | ⟨-, rfl⟩
    · exact .null
    · exact .bool true
    · exact .bool false
    all_goals exact .float _
  next => exact leaf_readNumber h

structure ReadersGive (fuel : Nat) : Prop where
  value : ∀ {depth cs v rest}, readValue depth fuel cs = .ok (v, rest) → Layered Leaf depth v
  items : ∀ {depth acc cs v rest}, (∀ w ∈ acc, Layered Leaf depth w) →
    readItems depth fuel acc cs = .ok (v, rest) → Layered Leaf (depth + 1) v
  entries : ∀ {depth acc cs v rest}, (∀ e ∈ acc, ∃ name, e.1 = Key.text name) →
    (∀ e ∈ acc, Layered Leaf depth e.2) →
    readEntries depth fuel acc cs = .ok (v, rest) → Layered Leaf (depth + 1) v

namespace ReadersGive

variable {fuel depth : Nat} {cs rest : List Char} {v : Value}

theorem readValue (h : ReadersGive fuel) (hv : readValue depth (fuel + 1) cs = .ok (v, rest)) :
    Layered Leaf depth v := by
  rw [Json.readValue.eq_def] at hv
  dsimp only at hv
  split at hv
  · split at hv
    · cases hv
    · obtain ⟨rfl, -⟩ := Prod.mk.inj (Except.ok.inj hv)
      exact .leaf (.text _)
  · split at hv
    · cases hv
    next hdepth =>
      rw [← Nat.sub_one_add_one hdepth]
      split at hv
      · obtain ⟨rfl, -⟩ := Prod.mk.inj (Except.ok.inj hv)
        exact .list (by simp)
      · exact h.items (by simp) hv
  · split at hv
    · cases hv
    next hdepth =>
      rw [← Nat.sub_one_add_one hdepth]
      split at hv
      · obtain ⟨rfl, -⟩ := Prod.mk.inj (Except.ok.inj hv)
        exact .map List.Pairwise.nil (by simp) (by simp)
      · exact h.entries (by simp) (by simp) hv
  · exact .leaf (leaf_readScalar hv)

theorem readItems (h : ReadersGive fuel) {acc : List Value}
    (hacc : ∀ w ∈ acc, Layered Leaf depth w)
    (hv : readItems depth (fuel + 1) acc cs = .ok (v, rest)) : Layered Leaf (depth + 1) v := by
  rw [Json.readItems.eq_def] at hv
  dsimp only at hv
  split at hv
  · cases hv
  next w afterItem hitem =>
    have hitems : ∀ u ∈ w :: acc, Layered Leaf depth u :=
      List.forall_mem_cons.mpr ⟨h.value hitem, hacc⟩
    split at hv
    · obtain ⟨rfl, -⟩ := Prod.mk.inj (Except.ok.inj hv)
      exact .list fun u hu => hitems u (List.mem_reverse.mp hu)
    · exact h.items hitems hv
    · cases hv

theorem readEntries (h : ReadersGive fuel) {acc : Entries}
    (hkeys : ∀ e ∈ acc, ∃ name, e.1 = Key.text name) (hvalues : ∀ e ∈ acc, Layered Leaf depth e.2)
    (hv : readEntries depth (fuel + 1) acc cs = .ok (v, rest)) : Layered Leaf (depth + 1) v := by
  rw [Json.readEntries.eq_def] at hv
  dsimp only at hv
  split at hv
  · split at hv
    · cases hv
    next name afterName hname =>
      split at hv
      · split at hv
        · cases hv
        next w afterValue hvalue =>
          have hnames : ∀ e ∈ (Key.text name, w) :: acc, ∃ name, e.1 = Key.text name :=
            List.forall_mem_cons.mpr ⟨⟨name, rfl⟩, hkeys⟩
          have hall : ∀ e ∈ (Key.text name, w) :: acc, Layered Leaf depth e.2 :=
            List.forall_mem_cons.mpr ⟨h.value hvalue, hvalues⟩
          split at hv
          · obtain ⟨rfl, -⟩ := Prod.mk.inj (Except.ok.inj hv)
            refine layered_ofPairs (fun e he => ?_) fun e he => hall e (List.mem_reverse.mp he)
            obtain ⟨name, hname⟩ := hnames e (List.mem_reverse.mp he)
            exact ⟨name, hname, .text name⟩
          · exact h.entries hnames hall hv
          · cases hv
      · cases hv
  · cases hv

end ReadersGive

theorem readersGive (fuel : Nat) : ReadersGive fuel := by
  induction fuel with
  | zero =>
    refine ⟨fun h => ?_, fun _ h => ?_, fun _ _ h => ?_⟩
    · rw [readValue] at h
      cases h
    · rw [readItems] at h
      cases h
    · rw [readEntries] at h
      cases h
  | succ fuel ih => exact ⟨ih.readValue, ih.readItems, ih.readEntries⟩

theorem layered_of_read {text : String} {v : Value} (h : read text = .ok v) :
    Layered Leaf depthLimit v := by
  rw [read] at h
  split at h
  next w hdocument =>
    obtain rfl := Except.ok.inj h
    rw [readDocument] at hdocument
    split at hdocument
    · cases hdocument
    · split at hdocument
      · cases hdocument
      next w' rest hvalue =>
        split at hdocument
        · obtain rfl := Except.ok.inj hdocument
          exact (readersGive _).value hvalue
        · cases hdocument
  all_goals cases h

end SwitchLexicon.Json
