import Mathlib.Logic.Relation
import SwitchLexicon.Proofs.Tree.Unfold

/-!
Freezing a draft. It is a run of steps, each of which marks one node when all below it is marked, so
it changes nothing but the marks and keeps the rule that below a frozen node all is frozen. It comes
to its end wherever the tree below the node is finite.
-/
namespace SwitchLexicon.Draft

/-- The same nodes with the same edges and entries, of which more may be frozen. -/
structure Frosts (d e : Draft) : Prop where
  length_eq : e.nodes.length = d.nodes.length
  node_eq : ∃ more : Nat → Bool, ∀ n,
    e.node? n = (d.node? n).map fun node => { node with frozen := node.frozen || more n }

theorem Frosts.refl (d : Draft) : d.Frosts d :=
  ⟨rfl, fun _ => false, fun n => by simp⟩

theorem Frosts.trans {d e f : Draft} (hde : d.Frosts e) (hef : e.Frosts f) : d.Frosts f := by
  obtain ⟨hlength, more, hmore⟩ := hde
  obtain ⟨hlength', also, halso⟩ := hef
  refine ⟨hlength'.trans hlength, fun n => more n || also n, fun n => ?_⟩
  rw [halso, hmore, Option.map_map]
  simp [Function.comp_def, Bool.or_assoc]

def FrozenAt (d : Draft) (n : Nat) : Prop :=
  ∀ node, d.node? n = some node → node.frozen = true

theorem Frosts.frozenAt {d e : Draft} (h : d.Frosts e) {n : Nat} (hn : d.FrozenAt n) :
    e.FrozenAt n := by
  obtain ⟨-, more, hmore⟩ := h
  intro node hnode
  rw [hmore, Option.map_eq_some_iff] at hnode
  obtain ⟨old, hold, rfl⟩ := hnode
  simp [hn old hold]

def FrozenDeep (d : Draft) : Prop :=
  ∀ n node, d.node? n = some node → node.frozen = true → ∀ c ∈ node.children, d.FrozenAt c.2

theorem Frosts.set_frozen {d e : Draft} (h : d.Frosts e) {n : Nat} {node : DraftNode}
    (hnode : d.node? n = some node) : d.Frosts (e.set n { node with frozen := true }) := by
  obtain ⟨hlength, more, hmore⟩ := h
  have hn : n < e.nodes.length := hlength ▸ lt_of_node? hnode
  refine ⟨(length_set ..).trans hlength, fun k => more k || k == n, fun k => ?_⟩
  rw [node?_set hn]
  by_cases hk : k = n
  · simp [hk, hnode]
  · have hne : (k == n) = false := by simpa using hk
    simp [hk, hmore, hne]

/-- One node is frozen, all below it being frozen already. -/
inductive FreezeStep (d : Draft) : Draft → Prop
  | freeze {n : Nat} {node : DraftNode} (read : d.node? n = some node)
      (unfrozen : node.frozen = false) (below : ∀ c ∈ node.children, d.FrozenAt c.2) :
      FreezeStep d (d.set n { node with frozen := true })

abbrev FreezeRun : Draft → Draft → Prop := Relation.ReflTransGen FreezeStep

theorem FreezeRun.frosts {d e : Draft} (h : FreezeRun d e) : d.Frosts e := by
  induction h with
  | refl => exact .refl d
  | tail hrun hstep ih =>
    cases hstep with
    | freeze read unfrozen below => exact ih.trans ((Frosts.refl _).set_frozen read)

theorem frozenAt_set_frozen {e : Draft} {n : Nat} (hn : n < e.nodes.length) (node : DraftNode)
    {m : Nat} (hm : m = n ∨ e.FrozenAt m) : (e.set n { node with frozen := true }).FrozenAt m := by
  intro x hx
  rw [node?_set hn] at hx
  split at hx
  · rw [Option.some.injEq] at hx
    rw [← hx]
  next hne => exact (hm.resolve_left hne) x hx

theorem FrozenDeep.set_frozen {e : Draft} (he : e.FrozenDeep) {n : Nat} (hn : n < e.nodes.length)
    {node : DraftNode} (hbelow : ∀ c ∈ node.children, e.FrozenAt c.2) :
    (e.set n { node with frozen := true }).FrozenDeep := by
  intro m x hx hfrozen c hc
  apply frozenAt_set_frozen hn node
  rw [node?_set hn] at hx
  split at hx
  · rw [Option.some.injEq] at hx
    rw [← hx] at hc
    exact Or.inr (hbelow c hc)
  · exact Or.inr (he m x hx hfrozen c hc)

theorem FreezeRun.frozenDeep {d e : Draft} (h : FreezeRun d e) (hd : d.FrozenDeep) :
    e.FrozenDeep := by
  induction h with
  | refl => exact hd
  | tail hrun hstep ih =>
    cases hstep with
    | freeze read unfrozen below => exact ih.set_frozen (lt_of_node? read) below

theorem freezeAll_cons (one : Nat → Draft → Draft × Bool) (n : Nat) (ns : List Nat) (d : Draft) :
    freezeAll one (n :: ns) d =
      if (one n d).2 = true then freezeAll one ns (one n d).1 else one n d := by
  rw [freezeAll]
  obtain ⟨e, ok⟩ := one n d
  cases ok <;> rfl

theorem freezeFrom_cases (depth n : Nat) (d : Draft) :
    (d.freezeFrom (depth + 1) n = (d, true) ∧ d.FrozenAt n) ∨
      ∃ node, d.node? n = some node ∧ node.frozen = false ∧
        let below := freezeAll (freezeFrom depth) (node.children.map Prod.snd) d
        d.freezeFrom (depth + 1) n =
          if below.2 = true then (below.1.set n { node with frozen := true }, true) else below := by
  rw [freezeFrom]
  cases hnode : d.node? n with
  | none => exact Or.inl ⟨rfl, fun node h => absurd h (by simp [hnode])⟩
  | some node =>
    cases hfrozen : node.frozen with
    | true =>
      refine Or.inl ⟨by simp [hfrozen], fun x hx => ?_⟩
      rw [hnode, Option.some.injEq] at hx
      rw [← hx, hfrozen]
    | false =>
      refine Or.inr ⟨node, rfl, hfrozen, ?_⟩
      simp only [hfrozen, Bool.false_eq_true, if_false]
      obtain ⟨e, ok⟩ := freezeAll (freezeFrom depth) (node.children.map Prod.snd) d
      cases ok <;> rfl

/-- A result of freezing `ns` in `d`: a run, after which they are frozen if it came to its end. -/
structure Freezes (d : Draft) (ns : List Nat) (result : Draft × Bool) : Prop where
  run : FreezeRun d result.1
  frozen : result.2 = true → ∀ n ∈ ns, result.1.FrozenAt n

theorem freezeAll_freezes {one : Nat → Draft → Draft × Bool}
    (hone : ∀ n (d : Draft), d.Freezes [n] (one n d)) (ns : List Nat) (d : Draft) :
    d.Freezes ns (freezeAll one ns d) := by
  induction ns generalizing d with
  | nil => exact ⟨.refl, fun _ n hn => absurd hn List.not_mem_nil⟩
  | cons n ns ih =>
    obtain ⟨hrun, hfrozen⟩ := hone n d
    rw [freezeAll_cons]
    split
    next hok =>
      obtain ⟨hrest, hall⟩ := ih (one n d).1
      refine ⟨hrun.trans hrest, fun hdone m hm => ?_⟩
      rcases List.mem_cons.mp hm with rfl | hm
      · exact hrest.frosts.frozenAt (hfrozen hok m (by simp))
      · exact hall hdone m hm
    next hok => exact ⟨hrun, fun hdone => absurd hdone hok⟩

/-- Marking a node whose children are marked is a step, unless the mark is already there. -/
theorem FreezeRun.mark {d e : Draft} (h : FreezeRun d e) {n : Nat} {node : DraftNode}
    (hnode : d.node? n = some node) (hunfrozen : node.frozen = false)
    (hbelow : ∀ c ∈ node.children, e.FrozenAt c.2) :
    FreezeRun d (e.set n { node with frozen := true }) := by
  obtain ⟨-, more, hmore⟩ := h.frosts
  cases hmark : more n with
  | true =>
    have hread : e.node? n = some { node with frozen := true } := by simp [hmore, hnode, hmark]
    rwa [set_self hread]
  | false =>
    have hread : e.node? n = some node := by simp [hmore, hnode, hmark]
    exact h.tail (.freeze hread hunfrozen hbelow)

theorem freezeFrom_freezes (depth n : Nat) (d : Draft) :
    d.Freezes [n] (d.freezeFrom depth n) := by
  induction depth generalizing n d with
  | zero => exact ⟨.refl, fun hok => absurd hok (by simp [freezeFrom])⟩
  | succ depth ih =>
    rcases freezeFrom_cases depth n d with ⟨heq, hfrozen⟩ | ⟨node, hnode, hunfrozen, heq⟩
    · rw [heq]
      exact ⟨.refl, fun _ m hm => List.mem_singleton.mp hm ▸ hfrozen⟩
    · obtain ⟨hrun, hall⟩ := freezeAll_freezes ih (node.children.map Prod.snd) d
      have hn := hrun.frosts.length_eq ▸ lt_of_node? hnode
      rw [heq]
      split
      next hok =>
        have hbelow := fun c hc => hall hok (Prod.snd c) (List.mem_map_of_mem hc)
        exact ⟨hrun.mark hnode hunfrozen hbelow, fun _ m hm =>
          frozenAt_set_frozen hn node (Or.inl (List.mem_singleton.mp hm))⟩
      next hok => exact ⟨hrun, fun hdone => absurd hdone hok⟩

theorem freezeFrom_frosts (depth n : Nat) (d : Draft) : d.Frosts (d.freezeFrom depth n).1 :=
  (freezeFrom_freezes depth n d).run.frosts

theorem Frosts.exists_before {d e : Draft} (h : d.Frosts e) {n : Nat} {node : DraftNode}
    (hnode : e.node? n = some node) :
    ∃ old, d.node? n = some old ∧ old.children = node.children := by
  obtain ⟨-, more, hmore⟩ := h
  rw [hmore, Option.map_eq_some_iff] at hnode
  obtain ⟨old, hold, rfl⟩ := hnode
  exact ⟨old, hold, rfl⟩

theorem Frosts.distinct {d e : Draft} (h : d.Frosts e) (hd : d.Distinct) : e.Distinct := by
  intro n node hnode
  obtain ⟨old, hold, hchildren⟩ := h.exists_before hnode
  exact hchildren ▸ hd n old hold

theorem Frosts.forward {d e : Draft} (h : d.Frosts e) (hd : d.Forward) : e.Forward := by
  refine ⟨h.distinct hd.distinct, fun n node hnode c hc => ?_⟩
  obtain ⟨old, hold, hchildren⟩ := h.exists_before hnode
  exact h.length_eq ▸ hd.later n old hold c (hchildren ▸ hc)

theorem freezeAll_ok {one : Nat → Draft → Draft × Bool}
    (hfrosts : ∀ n (d : Draft), d.Frosts (one n d).1) (ns : List Nat) {d : Draft}
    (hone : ∀ n ∈ ns, ∀ e, d.Frosts e → (one n e).2 = true) : (freezeAll one ns d).2 = true := by
  induction ns generalizing d with
  | nil => rfl
  | cons n ns ih =>
    rw [freezeAll_cons, if_pos (hone n (by simp) d (.refl d))]
    exact ih fun m hm f hf => hone m (List.mem_cons_of_mem _ hm) f ((hfrosts n d).trans hf)

theorem frozenAt_of_follow {d : Draft} (hd : d.FrozenDeep) {n : Nat} (hn : d.FrozenAt n)
    {path : List String} {k : Nat} (hk : d.follow path n = some k) : d.FrozenAt k := by
  induction path generalizing n with
  | nil =>
    rw [follow, Option.some.injEq] at hk
    exact hk ▸ hn
  | cons w ws ih =>
    rw [follow_cons] at hk
    obtain ⟨m, hm, hk⟩ := Option.bind_eq_some_iff.mp hk
    obtain ⟨node, hnode, hchild⟩ := Option.bind_eq_some_iff.mp hm
    exact ih (hd n node hnode (hn node hnode) _ (Children.mem_of_lookup hchild)) hk

theorem Frosts.agrees {d e : Draft} (h : d.Frosts e) : d.Agrees e fun _ => True where
  same n _ := by
    obtain ⟨-, more, hmore⟩ := h
    rw [hmore]
    cases d.node? n with
    | none => exact ⟨false, rfl⟩
    | some node => exact ⟨node.frozen || more n, rfl⟩
  closed _ _ _ _ _ _ := trivial

theorem Frosts.follow {d e : Draft} (h : d.Frosts e) (path : List String) (n : Nat) :
    e.follow path n = d.follow path n :=
  h.agrees.follow path trivial

theorem freezeFrom_ok {depth n : Nat} {d : Draft} {t : CommandTree}
    (h : d.treeFrom depth n = some t) : (d.freezeFrom depth n).2 = true := by
  induction depth generalizing n d t with
  | zero => simp [treeFrom] at h
  | succ depth ih =>
    rcases freezeFrom_cases depth n d with ⟨heq, -⟩ | ⟨node, hnode, -, heq⟩
    · rw [heq]
    · obtain ⟨same, hsame, hbelow⟩ := exists_below h
      obtain rfl : same = node := Option.some.inj (hsame.symm.trans hnode)
      have hall : (freezeAll (freezeFrom depth) (same.children.map Prod.snd) d).2 = true := by
        refine freezeAll_ok (freezeFrom_frosts depth) _ fun m hm e he => ?_
        obtain ⟨c, hc, rfl⟩ := List.mem_map.mp hm
        obtain ⟨s, hs⟩ := hbelow c hc
        exact ih ((he.agrees.treeFrom depth trivial).trans hs)
      rw [heq, if_pos hall]

theorem freeze_all {d : Draft} (hforward : d.Forward) (hdeep : d.FrozenDeep)
    (hsome : 0 < d.nodes.length)
    (hreached : ∀ n, n < d.nodes.length → ∃ path, d.follow path 0 = some n) :
    ∃ e, d.freeze 0 = (e, true) ∧ d.Frosts e ∧ ∀ node ∈ e.nodes, node.frozen = true := by
  obtain ⟨t, ht⟩ := treeFrom_eq_some hforward hsome (Nat.sub_le d.nodes.length 0)
  have hok : (d.freeze 0).2 = true := freezeFrom_ok ht
  obtain ⟨hrun, hroot⟩ : d.Freezes [0] (d.freeze 0) := freezeFrom_freezes d.nodes.length 0 d
  have hfrosts := hrun.frosts
  refine ⟨(d.freeze 0).1, Prod.ext rfl hok, hfrosts, fun node hmem => ?_⟩
  obtain ⟨n, hn⟩ := List.getElem?_of_mem hmem
  obtain ⟨path, hpath⟩ := hreached n (hfrosts.length_eq ▸ lt_of_node? hn)
  rw [← hfrosts.follow] at hpath
  exact frozenAt_of_follow (hrun.frozenDeep hdeep) (hroot hok 0 (by simp)) hpath node hn

theorem Frosts.detailAt {d e : Draft} (h : d.Frosts e) (path : List String) (n : Nat) :
    e.detailAt path n = d.detailAt path n := by
  have hentry : ∀ k, (e.node? k).bind DraftNode.detail = (d.node? k).bind DraftNode.detail := by
    intro k
    obtain ⟨mark, hmark⟩ := h.agrees.same k trivial
    rw [hmark]
    cases d.node? k <;> rfl
  rw [Draft.detailAt, Draft.detailAt, h.follow]
  exact congrArg _ (funext hentry)

end SwitchLexicon.Draft
