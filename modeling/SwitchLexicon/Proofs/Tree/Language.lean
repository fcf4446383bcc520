import Mathlib.Data.Finset.Card
import SwitchLexicon.Proofs.Tree.Frozen
import SwitchLexicon.Proofs.Tree.Shape

/-!
The language of a node: the ways that lead on from it, and those among them that end at complete
commands. Below a node from which no way comes back to where it was, the tree is finite, and two
such nodes have the same shape exactly if they have the same language. The order in which edges were
drawn does not count, and nodes of one shape answer alike.
-/
namespace SwitchLexicon

namespace DraftNode

theorem nodup_linkIn (w : String) (n : Nat) {cs : List (String × Nat)}
    (hcs : (cs.map Prod.fst).Nodup) : ((linkIn w n cs).map Prod.fst).Nodup := by
  cases hw : cs.lookup w with
  | none =>
    rw [linkIn_of_none hw, List.map_append, List.map_singleton, ← List.concat_eq_append]
    exact hcs.concat (Children.not_mem_of_lookup hw)
  | some m =>
    have hsame : (linkIn w n cs).map Prod.fst = cs.map Prod.fst := by
      clear hcs
      induction cs with
      | nil => cases hw
      | cons c cs ih =>
        obtain ⟨v, k⟩ := c
        by_cases hv : v = w
        · simp [linkIn, hv]
        · rw [Children.lookup_cons, if_neg (Ne.symm hv)] at hw
          simp [linkIn, hv, ih hw]
    rwa [hsame]

end DraftNode

namespace Draft

theorem Distinct.add {d : Draft} (hd : d.Distinct) (detail : Option Detail) :
    (d.add { detail := detail }).1.Distinct := by
  intro n node hnode
  rw [node?_add] at hnode
  split at hnode
  · rw [Option.some.injEq] at hnode
    simp [← hnode]
  · exact hd n node hnode

theorem Distinct.set {d : Draft} (hd : d.Distinct) {n : Nat} (hn : n < d.nodes.length)
    {next : DraftNode} (hnext : (next.children.map Prod.fst).Nodup) : (d.set n next).Distinct := by
  intro m node hnode
  rw [node?_set hn] at hnode
  split at hnode
  · rw [Option.some.injEq] at hnode
    exact hnode ▸ hnext
  · exact hd m node hnode

theorem Distinct.apply {d : Draft} (hd : d.Distinct) (edit : Edit) : (edit.apply d).1.Distinct := by
  cases edit with
  | new detail => exact hd.add detail
  | child n token =>
    rw [Edit.apply]
    split
    · exact hd
    next node hnode =>
      split
      · exact hd
      · split
        · exact hd
        · refine (hd.add none).set ?_ (DraftNode.nodup_linkIn _ _ (hd n node hnode))
          rw [length_add]
          exact Nat.lt_succ_of_lt (lt_of_node? hnode)
  | setDetail n detail =>
    rw [Edit.apply]
    split
    · exact hd
    next node hnode =>
      split
      · exact hd
      · exact hd.set (lt_of_node? hnode) (hd n node hnode)
  | setChild n token below =>
    rw [Edit.apply]
    split
    next node leaf hnode hleaf =>
      split
      · exact hd
      · exact hd.set (lt_of_node? hnode) (DraftNode.nodup_linkIn _ _ (hd n node hnode))
    · exact hd
    · exact hd
  | freeze n => exact (frosts_freeze d n).distinct hd

theorem Distinct.run {d : Draft} (hd : d.Distinct) (edits : List Edit) :
    (Edit.run d edits).Distinct := by
  induction edits generalizing d with
  | nil => exact hd
  | cons edit edits ih => exact ih (hd.apply edit)

theorem distinct_start : start.Distinct := by
  intro n node h
  cases n with
  | zero =>
    obtain rfl : {} = node := by simpa [start, node?] using h
    exact List.nodup_nil
  | succ n => simp [start, node?] at h

/-- No way from a node, or from one that it leads to, comes back to where it began. -/
structure Acyclic (d : Draft) (n : Nat) : Prop where
  made : n < d.nodes.length
  onward : ∀ p k, d.follow p n = some k → ∀ q, d.follow q k = some k → q = []

theorem follow_between {d : Draft} {p : List String} {n k m i j : Nat} (hij : i ≤ j)
    (hi : d.follow (p.take i) n = some k) (hj : d.follow (p.take j) n = some m) :
    d.follow ((p.take j).drop i) k = some m := by
  have hjoin : p.take i ++ (p.take j).drop i = p.take j := by
    have hparts := List.take_append_drop i (p.take j)
    rwa [List.take_take, Nat.min_eq_left hij] at hparts
  rwa [← hjoin, follow_append, hi, Option.bind_some] at hj

/-- A way with as many edges as there are nodes comes twice to one of them. -/
theorem exists_loop {d : Draft} (hwithin : d.Within) {n k : Nat} (hn : n < d.nodes.length)
    {p : List String} (hlength : d.nodes.length ≤ p.length) (hp : d.follow p n = some k) :
    ∃ q r m, r ≠ [] ∧ d.follow q n = some m ∧ d.follow r m = some m := by
  have hfront : ∀ i, ∃ m, d.follow (p.take i) n = some m ∧ m < d.nodes.length := by
    intro i
    obtain ⟨m, hm⟩ := Option.isSome_iff_exists.mp (isSome_follow_front hp (p.take_prefix i))
    exact ⟨m, hm, hwithin.follow_lt hn hm⟩
  choose place hplace hlt using hfront
  -- one more place on the way than there are nodes
  obtain ⟨i, hi, j, hj, hne, hsame⟩ := Finset.exists_ne_map_eq_of_card_lt_of_maps_to
    (s := Finset.range (d.nodes.length + 1)) (t := Finset.range d.nodes.length) (by simp)
    (f := place) fun i _ => Finset.mem_coe.mpr (Finset.mem_range.mpr (hlt i))
  rw [Finset.mem_range] at hi hj
  wlog hij : i < j generalizing i j
  · exact this j hj i hi hne.symm hsame.symm (by omega)
  refine ⟨p.take i, (p.take j).drop i, place i, ?_, hplace i, ?_⟩
  · rw [← List.length_pos_iff, List.length_drop, List.length_take]
    omega
  · exact follow_between hij.le (hplace i) (hsame ▸ hplace j)

theorem length_lt_of_follow {d : Draft} {depth n k : Nat} {t : CommandTree}
    (h : d.treeFrom depth n = some t) {p : List String} (hp : d.follow p n = some k) :
    p.length < depth := by
  induction depth generalizing n t p with
  | zero => simp [treeFrom] at h
  | succ depth ih =>
    cases p with
    | nil => exact Nat.succ_pos depth
    | cons w ws =>
      obtain ⟨node, hnode, hbelow⟩ := exists_below h
      rw [follow_cons, hnode, Option.bind_some] at hp
      obtain ⟨m, hm, hp⟩ := Option.bind_eq_some_iff.mp hp
      obtain ⟨s, hs⟩ := hbelow _ (Children.mem_of_lookup hm)
      exact Nat.succ_lt_succ (ih hs hp)

theorem follow_rounds {d : Draft} {q : List String} {k : Nat} (h : d.follow q k = some k)
    (rounds : Nat) : d.follow (List.replicate rounds q).flatten k = some k := by
  induction rounds with
  | zero => rfl
  | succ rounds ih =>
    rw [List.replicate_succ, List.flatten_cons, follow_append, h, Option.bind_some, ih]

def isComplete (d : Draft) (n : Nat) : Bool :=
  ((d.node? n).bind DraftNode.detail).isSome

structure SameWays (d : Draft) (m n : Nat) : Prop where
  reaches : ∀ p, (d.follow p m).isSome = true ↔ (d.follow p n).isSome = true
  complete : ∀ p j k, d.follow p m = some j → d.follow p n = some k →
    d.isComplete j = d.isComplete k

theorem SameWays.refl (d : Draft) (n : Nat) : d.SameWays n n where
  reaches _ := Iff.rfl
  complete _ _ _ hj hk := by rw [Option.some.inj (hj.symm.trans hk)]

theorem SameWays.symm {d : Draft} {m n : Nat} (h : d.SameWays m n) : d.SameWays n m where
  reaches p := (h.reaches p).symm
  complete p j k hj hk := (h.complete p k j hk hj).symm

theorem SameWays.trans {d : Draft} {l m n : Nat} (hlm : d.SameWays l m) (hmn : d.SameWays m n) :
    d.SameWays l n where
  reaches p := (hlm.reaches p).trans (hmn.reaches p)
  complete p i k hi hk := by
    obtain ⟨j, hj⟩ := Option.isSome_iff_exists.mp ((hlm.reaches p).mp (by rw [hi]; rfl))
    exact (hlm.complete p i j hi hj).trans (hmn.complete p j k hj hk)

theorem isSome_detailAt (d : Draft) {p : List String} {n k : Nat} (h : d.follow p n = some k) :
    (d.detailAt p n).isSome = d.isComplete k := by
  rw [detailAt, h, Option.bind_some, isComplete]

theorem Depicts.alike_iff {d : Draft} {m n : Nat} {s t : CommandTree} (hs : d.Depicts m s)
    (ht : d.Depicts n t) : s.Alike t ↔ d.SameWays m n := by
  constructor
  · intro h
    refine ⟨fun p => ?_, fun p j k hj hk => ?_⟩
    · rw [hs.places, ht.places, h.places]
    · rw [← isSome_detailAt d hj, ← isSome_detailAt d hk, hs.details, ht.details, h.complete]
  · intro h
    refine ⟨fun p => ?_, fun p => ?_⟩
    · rw [← hs.places, ← ht.places, h.reaches]
    · rw [← hs.details, ← ht.details]
      have hp := h.reaches p
      cases hj : d.follow p m with
      | none =>
        have hk : d.follow p n = none := by simpa [hj] using hp
        rw [detailAt, detailAt, hj, hk]
      | some j =>
        obtain ⟨k, hk⟩ := Option.isSome_iff_exists.mp (hp.mp (by rw [hj]; rfl))
        rw [isSome_detailAt d hj, isSome_detailAt d hk, h.complete p j k hj hk]

theorem treesFrom_some (one : Nat → CommandTree) (cs : List (String × Nat)) :
    treesFrom (fun n => some (one n)) cs = some (cs.map fun c => (c.1, one c.2)) := by
  induction cs with
  | nil => rfl
  | cons c cs ih => simp [treesFrom, ih]

theorem outline_ordered {d : Draft} (hd : d.Distinct) (depth n : Nat) :
    (d.outline depth n).Ordered := by
  induction depth generalizing n with
  | zero => exact .node List.Pairwise.nil (by simp)
  | succ depth ih =>
    rw [outline]
    cases hnode : d.node? n with
    | none => exact CommandTree.ordered_empty
    | some node =>
      refine .node (inOrder_sorted ?_) fun c hc => ?_
      · rw [List.map_map]
        exact hd n node hnode
      · have hperm := List.mergeSort_perm
          (node.children.map fun c => (c.1, d.outline depth c.2)) fun a b => decide (a.1 ≤ b.1)
        obtain ⟨edge, -, rfl⟩ := List.mem_map.mp (hperm.mem_iff.mp hc)
        exact ih edge.2

/-- An outline has the ways of its node that are no longer than its depth. -/
theorem isSome_get?_outline {d : Draft} (hd : d.Distinct) (depth n : Nat) (p : List String) :
    ((d.outline depth n).get? p).isSome = true ↔
      p.length ≤ depth ∧ (d.follow p n).isSome = true := by
  induction depth generalizing n p with
  | zero =>
    cases p with
    | nil => simp [CommandTree.get?_nil, follow]
    | cons w ws => simp [outline, CommandTree.get?_cons, CommandTree.child?, CommandTree.children]
  | succ depth ih =>
    cases p with
    | nil => simp [CommandTree.get?_nil, follow]
    | cons w ws =>
      rw [outline, follow_cons]
      cases hnode : d.node? n with
      | none => simp [CommandTree.get?_empty]
      | some node =>
        rw [CommandTree.get?_cons, CommandTree.child?, CommandTree.children,
          lookup_inOrder (hd n node hnode) (treesFrom_some (d.outline depth) node.children),
          Option.bind_some, show node.children.lookup w = node.child? w from rfl]
        cases node.child? w with
        | none => simp
        | some m => simpa using ih m ws

theorem SameWays.suggest_eq {d : Draft} (hd : d.Distinct) {m n : Nat} (h : d.SameWays m n)
    (line : String) (cursor : Int) : d.suggest m line cursor = d.suggest n line cursor := by
  refine suggest_congr (outline_ordered hd _ m) (outline_ordered hd _ n) (fun p => ?_) line cursor
  rw [isSome_get?_outline hd, isSome_get?_outline hd, h.reaches]

/-- The nodes give the same answers, but for the entries of commands. -/
structure AnswersAlike (d : Draft) (m n : Nat) : Prop where
  suggest : ∀ line cursor, d.suggest m line cursor = d.suggest n line cursor
  count : ∃ k, d.count m = .ok k ∧ d.count n = .ok k
  commands : ∀ path, ∃ xs ys, d.commands m path = .ok xs ∧ d.commands n path = .ok ys ∧
    xs.map (fun x => Text.unwords x.1) = ys.map fun y => Text.unwords y.1

structure Unfolds (d : Draft) (n : Nat) (t : CommandTree) : Prop extends d.Depicts n t where
  tree : d.treeAt? n = some t
  ordered : t.Ordered

section Finite

variable {d : Draft} (hdistinct : d.Distinct) (hwithin : d.Within)

include hdistinct hwithin

theorem exists_way {depth n : Nat} (hn : n < d.nodes.length) (h : d.treeFrom depth n = none) :
    ∃ p k, p.length = depth ∧ d.follow p n = some k := by
  induction depth generalizing n with
  | zero => exact ⟨[], n, rfl, rfl⟩
  | succ depth ih =>
    obtain ⟨node, hnode⟩ := exists_node? hn
    have hbelow : ∃ c ∈ node.children, d.treeFrom depth c.2 = none := by
      by_contra hall
      simp only [not_exists, not_and] at hall
      obtain ⟨ts, hts, -⟩ := treesFrom_eq_some fun c hc =>
        Option.ne_none_iff_exists'.mp (hall c hc)
      simp [treeFrom, hnode, hts] at h
    obtain ⟨c, hc, hnone⟩ := hbelow
    obtain ⟨p, k, hlength, hp⟩ := ih (hwithin n node hnode c hc) hnone
    refine ⟨c.1 :: p, k, by rw [List.length_cons, hlength], ?_⟩
    rw [follow_cons, hnode, Option.bind_some, hdistinct.child?_of_mem hnode hc, Option.bind_some,
      hp]

theorem acyclic_iff (n : Nat) : d.Acyclic n ↔ ∃ t, d.treeAt? n = some t := by
  constructor
  · intro h
    by_contra hnone
    have hendless : d.treeFrom d.nodes.length n = none :=
      Option.eq_none_iff_forall_ne_some.mpr fun t ht => hnone ⟨t, ht⟩
    obtain ⟨p, k, hlength, hp⟩ := exists_way hdistinct hwithin h.made hendless
    obtain ⟨q, r, m, hr, hq, hback⟩ := exists_loop hwithin h.made hlength.ge hp
    exact hr (h.onward q m hq r hback)
  · intro ⟨t, ht⟩
    obtain ⟨node, hnode⟩ := exists_node_of_treeFrom ht
    refine ⟨lt_of_node? hnode, fun p k hp q hq => ?_⟩
    by_contra hne
    -- going round once for each node makes the way too long
    have hlong := length_lt_of_follow ht (p := p ++ (List.replicate d.nodes.length q).flatten)
      (by rw [follow_append, hp, Option.bind_some, follow_rounds hq])
    have hpos : 0 < q.length := List.length_pos_iff.mpr hne
    have hmany : d.nodes.length ≤ d.nodes.length * q.length := Nat.le_mul_of_pos_right _ hpos
    simp only [List.length_append, List.length_flatten, List.map_replicate,
      List.sum_replicate_nat] at hlong
    omega

theorem Acyclic.unfolds {n : Nat} (h : d.Acyclic n) : ∃ t, d.Unfolds n t := by
  obtain ⟨t, ht⟩ := (acyclic_iff hdistinct hwithin n).mp h
  obtain ⟨hordered, hdepicts⟩ := depicts_of_treeFrom hdistinct ht
  exact ⟨t, hdepicts, ht, hordered⟩

theorem sameShape_iff_sameWays {m n : Nat} (hm : d.Acyclic m) (hn : d.Acyclic n) :
    ∃ same, d.sameShape m n = .ok same ∧ (same = true ↔ d.SameWays m n) := by
  obtain ⟨s, hs⟩ := hm.unfolds hdistinct hwithin
  obtain ⟨t, ht⟩ := hn.unfolds hdistinct hwithin
  refine ⟨s.sameShape t, by rw [sameShape, hs.tree, ht.tree], ?_⟩
  rw [CommandTree.sameShape_iff_alike hs.ordered, hs.alike_iff ht.toDepicts]

theorem sameShape_eq_true_iff {m n : Nat} (hm : d.Acyclic m) (hn : d.Acyclic n) :
    d.sameShape m n = .ok true ↔ d.SameWays m n := by
  obtain ⟨same, hsame, hiff⟩ := sameShape_iff_sameWays hdistinct hwithin hm hn
  rw [hsame, Except.ok.injEq, hiff]

theorem SameWays.answersAlike {m n : Nat} (hm : d.Acyclic m) (hn : d.Acyclic n)
    (h : d.SameWays m n) : d.AnswersAlike m n := by
  obtain ⟨s, hs⟩ := hm.unfolds hdistinct hwithin
  obtain ⟨t, ht⟩ := hn.unfolds hdistinct hwithin
  have halike : s.Alike t := (hs.alike_iff ht.toDepicts).mpr h
  have hleft : d.treeAt m = .ok s := by rw [treeAt, hs.tree]
  have hright : d.treeAt n = .ok t := by rw [treeAt, ht.tree]
  refine ⟨h.suggest_eq hdistinct, ⟨s.count, ?_, ?_⟩, fun path =>
    ⟨s.commandsFrom path, t.commandsFrom path, ?_, ?_, ?_⟩⟩
  · rw [count, hleft]
    rfl
  · rw [count, hright, halike.count_eq hs.ordered ht.ordered]
    rfl
  · rw [commands, hleft]
    rfl
  · rw [commands, hright]
    rfl
  · have hpaths := halike.commandsFrom_eq hs.ordered ht.ordered path
    simpa only [List.map_map, Function.comp_def] using congrArg (List.map Text.unwords) hpaths

end Finite

theorem sameShape_eq_of_iff {d e : Draft} {i j m n : Nat} {a b : Bool}
    (ha : d.sameShape i j = .ok a) (hb : e.sameShape m n = .ok b) (h : a = true ↔ b = true) :
    d.sameShape i j = e.sameShape m n := by
  rw [ha, hb, Bool.eq_iff_iff.mpr h]

structure Reordered (d e : Draft) : Prop where
  length_eq : e.nodes.length = d.nodes.length
  node_eq : ∀ n node, d.node? n = some node → ∃ other, e.node? n = some other ∧
    other.detail = node.detail ∧ other.children.Perm node.children

section Reordered

variable {d e : Draft} (h : d.Reordered e)

include h

theorem Reordered.node?_cases (n : Nat) :
    (d.node? n = none ∧ e.node? n = none) ∨ ∃ node other, d.node? n = some node ∧
      e.node? n = some other ∧ other.detail = node.detail ∧
      other.children.Perm node.children := by
  cases hnode : d.node? n with
  | none =>
    rw [node?, List.getElem?_eq_none_iff, ← h.length_eq] at hnode
    exact Or.inl ⟨rfl, List.getElem?_eq_none hnode⟩
  | some node =>
    obtain ⟨other, hother, hsame⟩ := h.node_eq n node hnode
    exact Or.inr ⟨node, other, rfl, hother, hsame⟩

theorem Reordered.distinct (hd : d.Distinct) : e.Distinct := by
  intro n other hother
  rcases h.node?_cases n with ⟨-, hnone⟩ | ⟨node, same, hnode, hsame, -, hperm⟩
  · simp [hnone] at hother
  · obtain rfl : same = other := Option.some.inj (hsame.symm.trans hother)
    exact (hperm.map Prod.fst).nodup_iff.mpr (hd n node hnode)

theorem Reordered.within (hd : d.Within) : e.Within := by
  intro n other hother c hc
  rcases h.node?_cases n with ⟨-, hnone⟩ | ⟨node, same, hnode, hsame, -, hperm⟩
  · simp [hnone] at hother
  · obtain rfl : same = other := Option.some.inj (hsame.symm.trans hother)
    rw [h.length_eq]
    exact hd n node hnode c (hperm.mem_iff.mp hc)

theorem Reordered.follow (hd : d.Distinct) (p : List String) (n : Nat) :
    e.follow p n = d.follow p n := by
  induction p generalizing n with
  | nil => rfl
  | cons w ws ih =>
    rw [follow_cons, follow_cons]
    rcases h.node?_cases n with ⟨hnone, hnone'⟩ | ⟨node, other, hnode, hother, -, hperm⟩
    · rw [hnone, hnone']
      rfl
    · have hchild : other.child? w = node.child? w :=
        Children.lookup_perm hperm (hd n node hnode) w
      rw [hnode, hother, Option.bind_some, Option.bind_some, hchild]
      exact congrArg _ (funext ih)

theorem Reordered.isComplete (n : Nat) : e.isComplete n = d.isComplete n := by
  rw [Draft.isComplete, Draft.isComplete]
  rcases h.node?_cases n with ⟨hnone, hnone'⟩ | ⟨node, other, hnode, hother, hdetail, -⟩
  · rw [hnone, hnone']
  · rw [hnode, hother, Option.bind_some, Option.bind_some, hdetail]

theorem Reordered.acyclic (hd : d.Distinct) {n : Nat} (hn : d.Acyclic n) : e.Acyclic n := by
  refine ⟨h.length_eq ▸ hn.made, fun p k hp q hq => ?_⟩
  rw [h.follow hd] at hp hq
  exact hn.onward p k hp q hq

theorem Reordered.sameWays_iff (hd : d.Distinct) (m n : Nat) :
    e.SameWays m n ↔ d.SameWays m n := by
  constructor
  · intro hways
    refine ⟨fun p => ?_, fun p j k hj hk => ?_⟩
    · simpa only [h.follow hd] using hways.reaches p
    · have hsame := hways.complete p j k (h.follow hd p m ▸ hj) (h.follow hd p n ▸ hk)
      rwa [h.isComplete, h.isComplete] at hsame
  · intro hways
    refine ⟨fun p => ?_, fun p j k hj hk => ?_⟩
    · simpa only [h.follow hd] using hways.reaches p
    · rw [h.follow hd] at hj hk
      rw [h.isComplete, h.isComplete, hways.complete p j k hj hk]

end Reordered

theorem sameShape_language (edits : List Edit) :
    let d := Edit.run .start edits
    (∀ m n, d.Acyclic m → d.Acyclic n →
      ∃ same, d.sameShape m n = .ok same ∧ (same = true ↔ d.SameWays m n)) ∧
    (∀ m, d.Acyclic m → d.sameShape m m = .ok true) ∧
    (∀ m n, d.Acyclic m → d.Acyclic n → d.sameShape m n = d.sameShape n m) ∧
    (∀ l m n, d.Acyclic l → d.Acyclic m → d.Acyclic n → d.sameShape l m = .ok true →
      d.sameShape m n = .ok true → d.sameShape l n = .ok true) ∧
    (∀ e, d.Reordered e → ∀ m n, d.Acyclic m → d.Acyclic n →
      e.sameShape m n = d.sameShape m n) ∧
    ∀ m n, d.Acyclic m → d.Acyclic n → d.sameShape m n = .ok true → d.AnswersAlike m n := by
  intro d
  have hdistinct : d.Distinct := distinct_start.run edits
  have hwithin : d.Within := ((run_edits .start edits).settled settled_start).within
  have hiff : ∀ {m n}, d.Acyclic m → d.Acyclic n →
      (d.sameShape m n = .ok true ↔ d.SameWays m n) := sameShape_eq_true_iff hdistinct hwithin
  refine ⟨fun m n => sameShape_iff_sameWays hdistinct hwithin, fun m hm => ?_, fun m n hm hn => ?_,
    fun l m n hl hm hn hlm hmn => ?_, fun e he m n hm hn => ?_, fun m n hm hn h => ?_⟩
  · exact (hiff hm hm).mpr (.refl d m)
  · obtain ⟨a, ha, haiff⟩ := sameShape_iff_sameWays hdistinct hwithin hm hn
    obtain ⟨b, hb, hbiff⟩ := sameShape_iff_sameWays hdistinct hwithin hn hm
    exact sameShape_eq_of_iff ha hb ((haiff.trans ⟨.symm, .symm⟩).trans hbiff.symm)
  · exact (hiff hl hn).mpr (((hiff hl hm).mp hlm).trans ((hiff hm hn).mp hmn))
  · obtain ⟨a, ha, haiff⟩ := sameShape_iff_sameWays (he.distinct hdistinct) (he.within hwithin)
      (he.acyclic hdistinct hm) (he.acyclic hdistinct hn)
    obtain ⟨b, hb, hbiff⟩ := sameShape_iff_sameWays hdistinct hwithin hm hn
    exact sameShape_eq_of_iff ha hb (haiff.trans ((he.sameWays_iff hdistinct m n).trans hbiff.symm))
  · exact ((hiff hm hn).mp h).answersAlike hdistinct hwithin hm hn

/-- Node 0 has one node under two words. Node 2 has a node under each, drawn in the other order. -/
def twins : List Edit :=
  [.child 0 "show", .setDetail 1 (some { command := "show" }), .setChild 0 "display" 1, .new none,
    .child 2 "display", .setDetail 3 (some { command := "display" }), .child 2 "show",
    .setDetail 4 (some { command := "show" })]

theorem sameShape_language_twins :
    let d := Edit.run .start twins
    (d.Acyclic 0 ∧ d.Acyclic 2) ∧ d.SameWays 0 2 ∧ d.sameShape 2 0 = .ok true ∧
      d.AnswersAlike 0 2 := by
  intro d
  have hnodes : d = ⟨[{ children := [("show", 1), ("display", 1)] },
      { detail := some { command := "show" } }, { children := [("display", 3), ("show", 4)] },
      { detail := some { command := "display" } }, { detail := some { command := "show" } }]⟩ := by
    rfl
  have hshared : d.treeAt? 0 = some (.node none [("display", .node (some { command := "show" }) []),
      ("show", .node (some { command := "show" }) [])]) := by
    simp [hnodes, treeAt?, treeFrom, treesFrom, node?, inOrder, List.mergeSort,
      List.MergeSort.Internal.splitInTwo]
  have hapart : d.treeAt? 2 = some (.node none
      [("display", .node (some { command := "display" }) []),
        ("show", .node (some { command := "show" }) [])]) := by
    simp [hnodes, treeAt?, treeFrom, treesFrom, node?, inOrder, List.mergeSort,
      List.MergeSort.Internal.splitInTwo]
  have hfinite := acyclic_iff (distinct_start.run twins)
    ((run_edits .start twins).settled settled_start).within
  have hzero : d.Acyclic 0 := (hfinite 0).mpr ⟨_, hshared⟩
  have htwo : d.Acyclic 2 := (hfinite 2).mpr ⟨_, hapart⟩
  have hsame : d.sameShape 0 2 = .ok true := by
    rw [sameShape, hshared, hapart]
    rfl
  obtain ⟨hways, -, hsymm, -, -, halike⟩ := sameShape_language twins
  obtain ⟨same, hok, hiff⟩ := hways 0 2 hzero htwo
  refine ⟨⟨hzero, htwo⟩, hiff.mp ?_, ?_, halike 0 2 hzero htwo hsame⟩
  · exact Except.ok.inj (hok.symm.trans hsame)
  · rw [hsymm 2 0 htwo hzero, hsame]

end Draft

end SwitchLexicon
