import Mathlib.Data.List.Sort
import SwitchLexicon.Proofs.Tree.Children
import SwitchLexicon.Tree.Basic

/-!
What a change at a path does to the other places of a tree. Siblings stand in strictly increasing
order, which a change keeps; a change that leaves the children of its node alone adds the places on
its way and no others, and only the entry at its end can differ afterwards.
-/
namespace SwitchLexicon.CommandTree

inductive Ordered : CommandTree → Prop
  | node {d : Option Detail} {cs : Children} (sorted : (cs.map Prod.fst).Pairwise (· < ·))
      (below : ∀ c ∈ cs, c.2.Ordered) : Ordered (.node d cs)

/-- The reference entry at a path, if the path ends at a complete command. -/
def detailAt (path : List String) (t : CommandTree) : Option Detail :=
  (t.get? path).bind detail

theorem ordered_empty : Ordered empty := .node (by simp) (by simp)

theorem Ordered.sorted_tokens {t : CommandTree} (ht : t.Ordered) : t.tokens.Pairwise (· < ·) := by
  cases ht with
  | node sorted below => exact sorted

theorem get?_nil (t : CommandTree) : t.get? [] = some t := by
  rw [get?]

theorem get?_cons (w : String) (ws : List String) (t : CommandTree) :
    t.get? (w :: ws) = (t.child? w).bind (get? ws) := by
  rw [get?]

theorem get?_append (vs ws : List String) (t : CommandTree) :
    t.get? (vs ++ ws) = (t.get? vs).bind (get? ws) := by
  induction vs generalizing t with
  | nil => simp [get?_nil]
  | cons v vs ih =>
    rw [List.cons_append, get?_cons, get?_cons, Option.bind_assoc]
    exact congrArg _ (funext ih)

theorem isSome_child?_iff (w : String) (t : CommandTree) :
    (t.child? w).isSome = true ↔ w ∈ t.tokens :=
  Children.isSome_lookup_iff w t.children

theorem isSome_get?_of_prefix {p q : List String} {t : CommandTree} (hpq : p <+: q)
    (hq : (t.get? q).isSome = true) : (t.get? p).isSome = true := by
  obtain ⟨r, rfl⟩ := hpq
  rw [get?_append] at hq
  cases hp : t.get? p with
  | none => simp [hp] at hq
  | some s => rfl

theorem mem_tokens_iff_get? {p : List String} {t node : CommandTree} (hp : t.get? p = some node)
    (w : String) : w ∈ node.tokens ↔ (t.get? (p ++ [w])).isSome = true := by
  rw [get?_append, hp, Option.bind_some, get?_cons, ← isSome_child?_iff]
  cases node.child? w with
  | none => simp
  | some s => simp [get?_nil]

theorem lookup_of_sorted {w : String} {t : CommandTree} {cs : Children}
    (hcs : (cs.map Prod.fst).Pairwise (· < ·)) (h : (w, t) ∈ cs) : cs.lookup w = some t :=
  Children.lookup_of_mem hcs.nodup h

theorem Ordered.of_child? {t s : CommandTree} {w : String} (ht : t.Ordered)
    (hs : t.child? w = some s) : s.Ordered := by
  cases ht with
  | node sorted below => exact below _ (Children.mem_of_lookup hs)

theorem Ordered.of_get? {t s : CommandTree} {path : List String} (ht : t.Ordered)
    (hs : t.get? path = some s) : s.Ordered := by
  induction path generalizing t with
  | nil =>
    rw [get?_nil, Option.some.injEq] at hs
    exact hs ▸ ht
  | cons w ws ih =>
    rw [get?_cons] at hs
    obtain ⟨c, hc, hs⟩ := Option.bind_eq_some_iff.mp hs
    exact ih (ht.of_child? hc) hs

theorem lookup_eq_none_of_lt {w : String} {cs : Children} (h : ∀ v ∈ cs.map Prod.fst, w < v) :
    cs.lookup w = none := by
  rw [← Option.not_isSome_iff_eq_none, Children.isSome_lookup_iff]
  exact fun hw => (h w hw).false

theorem lookup_alterIn {cs : Children} (f : CommandTree → CommandTree) (u w : String)
    (hcs : (cs.map Prod.fst).Pairwise (· < ·)) :
    (alterIn w f cs).lookup u =
      if u = w then some (f ((cs.lookup w).getD empty)) else cs.lookup u := by
  induction cs with
  | nil => simp [alterIn, Children.lookup_cons]
  | cons c cs ih =>
    obtain ⟨v, t⟩ := c
    simp only [List.map_cons, List.pairwise_cons] at hcs
    by_cases hv : v = w
    · subst hv
      by_cases hu : u = v <;> simp [alterIn, Children.lookup_cons, hu]
    · by_cases hlt : w < v
      · -- `w` stands before all tokens of the list, so it is not among them
        have hnone : List.lookup w ((v, t) :: cs) = none := by
          apply lookup_eq_none_of_lt
          intro x hx
          rcases List.mem_cons.mp hx with rfl | hx
          · exact hlt
          · exact hlt.trans (hcs.1 x hx)
        rw [alterIn, if_neg hv, if_pos hlt, hnone, Children.lookup_cons, Option.getD_none]
      · rw [alterIn, if_neg hv, if_neg hlt]
        by_cases hu : u = v
        · subst hu
          simp [hv]
        · simp [Children.lookup_cons, Ne.symm hv, hu, ih hcs.2]

theorem mem_alterIn {cs : Children} {f : CommandTree → CommandTree} {w : String}
    {c : String × CommandTree} (h : c ∈ alterIn w f cs) :
    c ∈ cs ∨ c = (w, f empty) ∨ ∃ t, (w, t) ∈ cs ∧ c = (w, f t) := by
  induction cs with
  | nil => exact Or.inr (Or.inl (by simpa [alterIn] using h))
  | cons b cs ih =>
    obtain ⟨v, t⟩ := b
    rw [alterIn] at h
    split at h
    next hv =>
      subst hv
      rcases List.mem_cons.mp h with h | h
      · exact Or.inr (Or.inr ⟨t, by simp, h⟩)
      · exact Or.inl (List.mem_cons_of_mem _ h)
    next hv =>
      split at h
      · rcases List.mem_cons.mp h with h | h
        · exact Or.inr (Or.inl h)
        · exact Or.inl h
      · rcases List.mem_cons.mp h with h | h
        · exact Or.inl (by simp [h])
        · rcases ih h with h | h | ⟨s, hs, h⟩
          · exact Or.inl (List.mem_cons_of_mem _ h)
          · exact Or.inr (Or.inl h)
          · exact Or.inr (Or.inr ⟨s, List.mem_cons_of_mem _ hs, h⟩)

theorem token_mem_alterIn {cs : Children} {f : CommandTree → CommandTree} {w x : String}
    (h : x ∈ (alterIn w f cs).map Prod.fst) : x = w ∨ x ∈ cs.map Prod.fst := by
  obtain ⟨c, hc, rfl⟩ := List.mem_map.mp h
  rcases mem_alterIn hc with hc | rfl | ⟨t, ht, rfl⟩
  · exact Or.inr (List.mem_map_of_mem hc)
  · exact Or.inl rfl
  · exact Or.inl rfl

theorem alterIn_sorted {cs : Children} (f : CommandTree → CommandTree) (w : String)
    (hcs : (cs.map Prod.fst).Pairwise (· < ·)) :
    ((alterIn w f cs).map Prod.fst).Pairwise (· < ·) := by
  induction cs with
  | nil => simp [alterIn]
  | cons c cs ih =>
    obtain ⟨v, t⟩ := c
    have hsorted := hcs
    simp only [List.map_cons, List.pairwise_cons] at hcs
    rw [alterIn]
    split
    next hv => simpa using hcs
    next hv =>
      split
      next hlt =>
        simp only [List.map_cons, List.pairwise_cons] at hsorted ⊢
        refine ⟨fun x hx => ?_, hsorted⟩
        rcases List.mem_cons.mp hx with rfl | hx
        · exact hlt
        · exact hlt.trans (hcs.1 x hx)
      next hlt =>
        simp only [List.map_cons, List.pairwise_cons]
        refine ⟨fun x hx => ?_, ih hcs.2⟩
        rcases token_mem_alterIn hx with rfl | hx
        · exact lt_of_le_of_ne (not_lt.mp hlt) hv
        · exact hcs.1 x hx

theorem Ordered.alter {f : CommandTree → CommandTree}
    (hf : ∀ t : CommandTree, t.Ordered → (f t).Ordered) (path : List String) {t : CommandTree}
    (ht : t.Ordered) : (t.alter f path).Ordered := by
  induction path generalizing t with
  | nil => exact hf t ht
  | cons w ws ih =>
    cases ht with
    | node sorted below =>
      refine .node (alterIn_sorted _ w sorted) fun c hc => ?_
      rcases mem_alterIn hc with hc | rfl | ⟨s, hs, rfl⟩
      · exact below c hc
      · exact ih ordered_empty
      · exact ih (below _ hs)

theorem child?_alter_cons {t : CommandTree} (f : CommandTree → CommandTree) (u w : String)
    (ws : List String) (ht : t.Ordered) :
    (t.alter f (w :: ws)).child? u =
      if u = w then some (((t.child? w).getD empty).alter f ws) else t.child? u := by
  cases ht with
  | node sorted below => exact lookup_alterIn _ u w sorted

theorem get?_empty (path : List String) :
    empty.get? path = if path = [] then some empty else none := by
  cases path with
  | nil => rfl
  | cons w ws => rfl

theorem detailAt_nil (t : CommandTree) : t.detailAt [] = t.detail := by
  rw [detailAt, get?_nil, Option.bind_some]

theorem detailAt_cons (w : String) (ws : List String) (t : CommandTree) :
    t.detailAt (w :: ws) = (t.child? w).bind (detailAt ws) := by
  rw [detailAt, get?_cons, Option.bind_assoc]
  rfl

theorem detailAt_empty (path : List String) : empty.detailAt path = none := by
  rw [detailAt, get?_empty]
  split <;> rfl

theorem isSome_get?_of_detailAt {path : List String} {t : CommandTree} {d : Detail}
    (h : t.detailAt path = some d) : (t.get? path).isSome = true := by
  obtain ⟨s, hs, -⟩ := Option.bind_eq_some_iff.mp h
  simp [hs]

theorem Ordered.getD_child? {t : CommandTree} (ht : t.Ordered) (w : String) :
    ((t.child? w).getD empty).Ordered := by
  cases h : t.child? w with
  | none => exact ordered_empty
  | some s => exact ht.of_child? h

theorem isSome_get?_alter {f : CommandTree → CommandTree}
    (hf : ∀ t : CommandTree, (f t).children = t.children) (path place : List String)
    {t : CommandTree} (ht : t.Ordered) :
    ((t.alter f path).get? place).isSome = true ↔
      place <+: path ∨ (t.get? place).isSome = true := by
  induction path generalizing t place with
  | nil =>
    cases place with
    | nil => simp [get?_nil]
    | cons u us => simp [alter, get?_cons, child?, hf]
  | cons w ws ih =>
    cases place with
    | nil => simp [get?_nil]
    | cons u us =>
      rw [get?_cons, get?_cons, child?_alter_cons f u w ws ht]
      by_cases hu : u = w
      · subst hu
        rw [if_pos rfl, Option.bind_some, ih us (ht.getD_child? u), List.cons_prefix_cons]
        cases t.child? u with
        | none =>
          -- the node is new, and the only place below it that is not on the way is itself
          by_cases hus : us = []
          · simp [hus]
          · simp [get?_empty, hus]
        | some s => simp
      · simp [hu]

theorem detailAt_alter (f : CommandTree → CommandTree)
    (hf : ∀ t : CommandTree, (f t).children = t.children) (path place : List String)
    {t : CommandTree} (ht : t.Ordered) :
    (t.alter f path).detailAt place =
      if place = path then (f ((t.get? path).getD empty)).detail else t.detailAt place := by
  induction path generalizing t place with
  | nil =>
    cases place with
    | nil => simp [alter, detailAt_nil, get?_nil]
    | cons u us => simp [alter, detailAt_cons, child?, hf]
  | cons w ws ih =>
    cases place with
    | nil =>
      cases t
      simp [alter, detailAt_nil, detail]
    | cons u us =>
      rw [detailAt_cons, child?_alter_cons f u w ws ht]
      by_cases hu : u = w
      · subst hu
        rw [if_pos rfl, Option.bind_some, ih us (ht.getD_child? u), detailAt_cons, get?_cons]
        cases t.child? u with
        | none => by_cases hws : ws = [] <;> simp [get?_empty, detailAt_empty, hws]
        | some s => simp
      · simp [hu, detailAt_cons]

theorem children_withDetail (d : Detail) (t : CommandTree) :
    (t.withDetail d).children = t.children := by
  cases t
  rfl

theorem Ordered.attach {t : CommandTree} (ht : t.Ordered) (path : List String) (d : Detail) :
    (t.attach path d).Ordered := by
  refine Ordered.alter (fun s hs => ?_) path ht
  cases hs with
  | node sorted below => exact .node sorted below

theorem Ordered.grow {t : CommandTree} (ht : t.Ordered) (path : List String) :
    (t.grow path).Ordered :=
  Ordered.alter (fun _ hs => hs) path ht

theorem isSome_get?_attach {t : CommandTree} (ht : t.Ordered) (path place : List String)
    (d : Detail) :
    ((t.attach path d).get? place).isSome = true ↔
      place <+: path ∨ (t.get? place).isSome = true :=
  isSome_get?_alter (children_withDetail d) path place ht

theorem isSome_get?_grow {t : CommandTree} (ht : t.Ordered) (path place : List String) :
    ((t.grow path).get? place).isSome = true ↔ place <+: path ∨ (t.get? place).isSome = true :=
  isSome_get?_alter (fun _ => rfl) path place ht

theorem detailAt_attach {t : CommandTree} (ht : t.Ordered) (path place : List String)
    (d : Detail) :
    (t.attach path d).detailAt place = if place = path then some d else t.detailAt place := by
  rw [CommandTree.attach, detailAt_alter _ (children_withDetail d) path place ht]
  cases (t.get? path).getD empty
  rfl

theorem detailAt_grow {t : CommandTree} (ht : t.Ordered) (path place : List String) :
    (t.grow path).detailAt place = t.detailAt place := by
  rw [CommandTree.grow, detailAt_alter id (fun _ => rfl) path place ht]
  split
  next h =>
    subst h
    rw [detailAt, id]
    cases t.get? place <;> rfl
  next h => rfl

/-! ## Depth -/

theorem depthAll_le_iff (cs : Children) (n : Nat) :
    depthAll cs ≤ n ↔ ∀ c ∈ cs, c.2.depth < n := by
  induction cs with
  | nil => simp [depthAll]
  | cons c cs ih => rw [depthAll, Nat.max_le, ih, Nat.succ_le_iff, List.forall_mem_cons]

theorem depth_le_iff {t : CommandTree} (ht : t.Ordered) (n : Nat) :
    t.depth ≤ n ↔ ∀ p, (t.get? p).isSome = true → p.length ≤ n := by
  induction ht generalizing n with
  | @node d cs sorted below ih =>
    rw [depth, depthAll_le_iff]
    have hstep {w : String} {s : CommandTree} (hs : (w, s) ∈ cs) (p : List String) :
        (node d cs).get? (w :: p) = s.get? p := by
      rw [get?_cons, child?, children, lookup_of_sorted sorted hs, Option.bind_some]
    constructor
    · intro h p hp
      cases p with
      | nil => simp
      | cons w ws =>
        obtain ⟨s, hs⟩ := Option.isSome_iff_exists.mp hp
        rw [get?_cons] at hs
        obtain ⟨s, hchild, hrest⟩ := Option.bind_eq_some_iff.mp hs
        have hmem := Children.mem_of_lookup hchild
        have hbelow := (ih _ hmem (n - 1)).mp (Nat.le_sub_one_of_lt (h _ hmem)) ws (by simp [hrest])
        have hpos := h _ hmem
        rw [List.length_cons]
        omega
    · intro h c hc
      have hone := h [c.1] (by rw [hstep hc, get?_nil]; rfl)
      rw [List.length_singleton] at hone
      refine Nat.lt_of_le_sub_one hone ((ih c hc (n - 1)).mpr fun p hp => ?_)
      have hlong := h (c.1 :: p) (by rwa [hstep hc])
      rw [List.length_cons] at hlong
      omega

end SwitchLexicon.CommandTree
