import Mathlib.Data.List.Induction
import SwitchLexicon.Proofs.Tree.Draft

/-!
Drafts that grow from their first node. Each node hangs in one place, so a new child adds one way to
the draft and no other, and an entry that is set shows at one place only.
-/
namespace SwitchLexicon

def Edit.commit (edit : Edit) (d : Draft) : Except DraftError (Draft × Nat) :=
  match edit.apply d with
  | (e, .ok n) => .ok (e, n)
  | (_, .error fault) => .error fault

namespace Draft

/-- A draft without frozen nodes, in which every node is reached from the first one in one way. -/
structure Growing (d : Draft) : Prop extends d.Forward where
  nonempty : 0 < d.nodes.length
  unfrozen : ∀ n node, d.node? n = some node → node.frozen = false
  reached : ∀ n, n < d.nodes.length → ∃ path, d.follow path 0 = some n
  once : ∀ p q n, d.follow p 0 = some n → d.follow q 0 = some n → p = q

theorem growing_start : start.Growing := by
  have hnode : ∀ n node, start.node? n = some node → n = 0 ∧ node = {} := by
    intro n node h
    cases n with
    | zero => exact ⟨rfl, by simpa [start, node?] using h.symm⟩
    | succ n => simp [start, node?] at h
  have hfollow : ∀ p n, start.follow p 0 = some n → p = [] := by
    intro p n h
    cases p with
    | nil => rfl
    | cons w ws => simp [follow_cons, start, node?, DraftNode.child?] at h
  refine ⟨⟨fun n node h => ?_, fun n node h => ?_⟩, by simp [start], fun n node h => ?_,
    fun n h => ⟨[], ?_⟩, fun p q n hp hq => ?_⟩
  · simp [(hnode n node h).2]
  · simp [(hnode n node h).2]
  · simp [(hnode n node h).2]
  · have hn : n = 0 := by simpa [start] using h
    rw [hn, follow]
  · rw [hfollow p n hp, hfollow q n hq]

theorem Forward.within {d : Draft} (hd : d.Forward) : d.Within :=
  fun n node hnode c hc => (hd.later n node hnode c hc).2

/-- The draft with a new node under a token of node `n`, which reads `node`. -/
def sprout (d : Draft) (n : Nat) (node : DraftNode) (token : String) : Draft :=
  (d.add {}).1.set n (node.link token d.nodes.length)

theorem length_sprout (d : Draft) (n : Nat) (node : DraftNode) (token : String) :
    (d.sprout n node token).nodes.length = d.nodes.length + 1 :=
  (length_set ..).trans (length_add ..)

theorem node?_sprout {d : Draft} {n : Nat} {node : DraftNode} (hnode : d.node? n = some node)
    (token : String) (k : Nat) :
    (d.sprout n node token).node? k =
      if k = n then some (node.link token d.nodes.length)
      else if k = d.nodes.length then some {} else d.node? k := by
  have hn := lt_of_node? hnode
  rw [sprout, node?_set (by rw [length_add]; omega), node?_add]

theorem node?_sprout_cases {d : Draft} {n : Nat} {node : DraftNode} (hnode : d.node? n = some node)
    {token : String} {k : Nat} {x : DraftNode} (hx : (d.sprout n node token).node? k = some x) :
    (k = n ∧ x = node.link token d.nodes.length) ∨ x = {} ∨ d.node? k = some x := by
  rw [node?_sprout hnode] at hx
  split at hx
  next hk => exact Or.inl ⟨hk, (Option.some.inj hx).symm⟩
  next hk =>
    split at hx
    · exact Or.inr (Or.inl (Option.some.inj hx).symm)
    · exact Or.inr (Or.inr hx)

section Sprout

variable {d : Draft} (hd : d.Growing) {path : List String} {n : Nat}
  (hpath : d.follow path 0 = some n) {node : DraftNode} (hnode : d.node? n = some node)
  {token : String} (htoken : node.child? token = none)

include hd hpath hnode htoken

theorem follow_sprout (q : List String) :
    (d.sprout n node token).follow q 0 =
      if q = path ++ [token] then some d.nodes.length else d.follow q 0 := by
  have hnew : d.follow (path ++ [token]) 0 = none := by
    rw [follow_concat, hpath, Option.bind_some, hnode, Option.bind_some, htoken]
  induction q using List.reverseRecOn with
  | nil => simp [follow]
  | append_singleton q w ih =>
    rw [follow_concat, ih, follow_concat]
    by_cases hq : q = path ++ [token]
    · -- the new node has no children, and there was nothing below its place
      have hlast : d.nodes.length ≠ n := Nat.ne_of_gt (lt_of_node? hnode)
      rw [hq, hnew]
      simp [node?_sprout hnode, hlast, DraftNode.child?]
    · rw [if_neg hq]
      cases hk : d.follow q 0 with
      | none =>
        have hne : q ≠ path := fun h => by simp [h, hpath] at hk
        simp [hne]
      | some k =>
        have hlt := hd.within.follow_lt hd.nonempty hk
        rw [Option.bind_some, Option.bind_some, node?_sprout hnode]
        by_cases hkn : k = n
        · have hqp : q = path := hd.once q path n (hkn ▸ hk) hpath
          rw [if_pos hkn, Option.bind_some, DraftNode.child?_link, hkn, hnode, Option.bind_some,
            hqp]
          simp
        · have hne : q ≠ path := fun h => hkn (Option.some.inj (hk.symm.trans (h ▸ hpath)))
          simp [hkn, Nat.ne_of_lt hlt, hne]

theorem detailAt_sprout (q : List String) :
    (d.sprout n node token).detailAt q 0 = d.detailAt q 0 := by
  rw [detailAt, detailAt, follow_sprout hd hpath hnode htoken]
  by_cases hq : q = path ++ [token]
  · have hlast : d.nodes.length ≠ n := Nat.ne_of_gt (lt_of_node? hnode)
    rw [if_pos hq, hq, follow_concat, hpath]
    simp [node?_sprout hnode, hlast, hnode, htoken]
  · rw [if_neg hq]
    cases hk : d.follow q 0 with
    | none => rfl
    | some k =>
      have hlt := hd.within.follow_lt hd.nonempty hk
      rw [Option.bind_some, Option.bind_some, node?_sprout hnode]
      by_cases hkn : k = n
      · simp [hkn, hnode, DraftNode.link]
      · simp [hkn, Nat.ne_of_lt hlt]

theorem Growing.sprout : (d.sprout n node token).Growing := by
  have hn := lt_of_node? hnode
  have hlink : (node.link token d.nodes.length).children =
      node.children ++ [(token, d.nodes.length)] := DraftNode.linkIn_of_none htoken _
  have hfollow := follow_sprout hd hpath hnode htoken
  have hlength := length_sprout d n node token
  refine ⟨⟨fun k x hx => ?_, fun k x hx c hc => ?_⟩, by omega, fun k x hx => ?_, fun k hk => ?_,
    fun p q k hp hq => ?_⟩
  · rcases node?_sprout_cases hnode hx with ⟨-, rfl⟩ | rfl | hx
    · rw [hlink, List.map_append, List.map_singleton, ← List.concat_eq_append]
      exact (hd.distinct n node hnode).concat (Children.not_mem_of_lookup htoken)
    · simp
    · exact hd.distinct k x hx
  · rcases node?_sprout_cases hnode hx with ⟨rfl, rfl⟩ | rfl | hx
    · rw [hlink, List.mem_append, List.mem_singleton] at hc
      rcases hc with hc | rfl
      · have := hd.later k node hnode c hc
        omega
      · exact ⟨hn, by omega⟩
    · simp at hc
    · have := hd.later k x hx c hc
      omega
  · rcases node?_sprout_cases hnode hx with ⟨-, rfl⟩ | rfl | hx
    · exact hd.unfrozen n node hnode
    · rfl
    · exact hd.unfrozen k x hx
  · by_cases hlast : k = d.nodes.length
    · exact ⟨path ++ [token], by rw [hfollow, if_pos rfl, hlast]⟩
    · obtain ⟨q, hq⟩ := hd.reached k (by omega)
      refine ⟨q, ?_⟩
      rw [hfollow, if_neg, hq]
      rintro rfl
      rw [follow_concat, hpath, Option.bind_some, hnode, Option.bind_some, htoken] at hq
      simp at hq
  · -- the new way is the only one to the new node, since the others end at older ones
    rw [hfollow] at hp hq
    split at hp <;> split at hq
    · simp_all
    · have := hd.within.follow_lt hd.nonempty hq
      rw [Option.some.injEq] at hp
      omega
    · have := hd.within.follow_lt hd.nonempty hp
      rw [Option.some.injEq] at hq
      omega
    · exact hd.once p q k hp hq

end Sprout

structure Grows (d e : Draft) (path : List String) : Prop where
  growing : e.Growing
  places : ∀ q, (e.follow q 0).isSome = true ↔ q <+: path ∨ (d.follow q 0).isSome = true
  details : ∀ q, e.detailAt q 0 = d.detailAt q 0

theorem Growing.grows_refl {d : Draft} (hd : d.Growing) {path : List String} {n : Nat}
    (hpath : d.follow path 0 = some n) : d.Grows d path :=
  ⟨hd, fun _ => ⟨Or.inr, fun h => h.elim (isSome_follow_front hpath) id⟩, fun _ => rfl⟩

theorem commit_child {d : Draft} (hd : d.Growing) {path : List String} {n : Nat}
    (hpath : d.follow path 0 = some n) (token : String) :
    ∃ e m, (Edit.child n token).commit d = .ok (e, m) ∧ d.Grows e (path ++ [token]) ∧
      e.follow (path ++ [token]) 0 = some m := by
  obtain ⟨node, hnode⟩ := exists_node? (hd.within.follow_lt hd.nonempty hpath)
  have hfrozen := hd.unfrozen n node hnode
  cases htoken : node.child? token with
  | some m =>
    have hway : d.follow (path ++ [token]) 0 = some m := by
      rw [follow_concat, hpath, Option.bind_some, hnode, Option.bind_some, htoken]
    exact ⟨d, m, by simp [Edit.commit, Edit.apply, hnode, hfrozen, htoken], hd.grows_refl hway,
      hway⟩
  | none =>
    have hfollow := follow_sprout hd hpath hnode htoken
    refine ⟨d.sprout n node token, d.nodes.length,
      by simp [Edit.commit, Edit.apply, hnode, hfrozen, htoken, sprout, add],
      ⟨Growing.sprout hd hpath hnode htoken, fun q => ?_, detailAt_sprout hd hpath hnode htoken⟩,
      by rw [hfollow, if_pos rfl]⟩
    rw [hfollow, List.prefix_concat_iff]
    by_cases hq : q = path ++ [token]
    · simp [hq]
    · rw [if_neg hq]
      exact ⟨Or.inr, fun h => h.elim
        (fun h => h.elim (fun h => absurd h hq) (isSome_follow_front hpath)) id⟩

def extend (d : Draft) (n : Nat) : List String → Except DraftError (Draft × Nat)
  | [] => .ok (d, n)
  | w :: ws => do
    let (e, m) ← (Edit.child n w).commit d
    e.extend m ws

theorem Grows.trans {d e f : Draft} {p q : List String} (hde : d.Grows e p) (hef : e.Grows f q)
    (hpq : p <+: q) : d.Grows f q where
  growing := hef.growing
  places r := by
    rw [hef.places, hde.places]
    exact ⟨fun h => h.elim Or.inl fun h => h.imp_left fun h => h.trans hpq,
      fun h => h.imp_right Or.inr⟩
  details r := (hef.details r).trans (hde.details r)

theorem extend_ok {d : Draft} (hd : d.Growing) {path : List String} {n : Nat}
    (hpath : d.follow path 0 = some n) (ws : List String) :
    ∃ e m, d.extend n ws = .ok (e, m) ∧ d.Grows e (path ++ ws) ∧
      e.follow (path ++ ws) 0 = some m := by
  induction ws generalizing d path n with
  | nil => exact ⟨d, n, rfl, by simpa using hd.grows_refl hpath, by simpa using hpath⟩
  | cons w ws ih =>
    obtain ⟨e, m, hcommit, hgrows, hway⟩ := commit_child hd hpath w
    obtain ⟨f, k, hextend, hgrows', hway'⟩ := ih hgrows.growing hway
    have hsplit : path ++ [w] ++ ws = path ++ w :: ws := by simp
    rw [hsplit] at hgrows' hway'
    refine ⟨f, k, ?_, hgrows.trans hgrows' ⟨ws, hsplit⟩, hway'⟩
    simp only [extend, hcommit, bind, Except.bind]
    exact hextend

section SameEdges

variable {d : Draft} {n : Nat} {node changed : DraftNode} (hnode : d.node? n = some node)
  (hedges : changed.children = node.children)

include hnode hedges

theorem follow_set (q : List String) (k : Nat) : (d.set n changed).follow q k = d.follow q k := by
  induction q generalizing k with
  | nil => rfl
  | cons w ws ih =>
    have hchild : ((d.set n changed).node? k).bind (·.child? w) =
        (d.node? k).bind (·.child? w) := by
      rw [node?_set (lt_of_node? hnode)]
      by_cases hk : k = n
      · simp [hk, hnode, DraftNode.child?, hedges]
      · rw [if_neg hk]
    rw [follow_cons, follow_cons, hchild]
    exact congrArg _ (funext ih)

theorem Growing.set (hd : d.Growing) (hfrozen : changed.frozen = false) :
    (d.set n changed).Growing := by
  have hfollow := follow_set hnode hedges
  have hold : ∀ k x, (d.set n changed).node? k = some x →
      x.frozen = false ∧ ∃ y, d.node? k = some y ∧ x.children = y.children := by
    intro k x hx
    rw [node?_set (lt_of_node? hnode)] at hx
    split at hx
    next hk =>
      rw [Option.some.injEq] at hx
      exact ⟨hx ▸ hfrozen, node, hk ▸ hnode, hx ▸ hedges⟩
    next hk => exact ⟨hd.unfrozen k x hx, x, hx, rfl⟩
  refine ⟨⟨fun k x hx => ?_, fun k x hx => ?_⟩, ?_, fun k x hx => (hold k x hx).1, fun k hk => ?_,
    fun p q k hp hq => ?_⟩
  · obtain ⟨-, y, hy, hchildren⟩ := hold k x hx
    exact hchildren ▸ hd.distinct k y hy
  · obtain ⟨-, y, hy, hchildren⟩ := hold k x hx
    rw [length_set, hchildren]
    exact hd.later k y hy
  · rw [length_set]
    exact hd.nonempty
  · simpa only [hfollow] using hd.reached k (length_set d n changed ▸ hk)
  · rw [hfollow] at hp hq
    exact hd.once p q k hp hq

theorem detailAt_set (hd : d.Growing) {path : List String} (hpath : d.follow path 0 = some n)
    (q : List String) :
    (d.set n changed).detailAt q 0 = if q = path then changed.detail else d.detailAt q 0 := by
  have hread := node?_set (lt_of_node? hnode) changed
  rw [detailAt, detailAt, follow_set hnode hedges]
  by_cases hq : q = path
  · rw [if_pos hq, hq, hpath, Option.bind_some, hread, if_pos rfl, Option.bind_some]
  · rw [if_neg hq]
    cases hk : d.follow q 0 with
    | none => rfl
    | some k =>
      have hkn : k ≠ n := fun h => hq (hd.once q path n (h ▸ hk) hpath)
      rw [Option.bind_some, Option.bind_some, hread, if_neg hkn]

end SameEdges

theorem commit_setDetail {d : Draft} (hd : d.Growing) {path : List String} {n : Nat}
    (hpath : d.follow path 0 = some n) (detail : Detail) :
    ∃ e, (Edit.setDetail n (some detail)).commit d = .ok (e, n) ∧ e.Growing ∧
      (∀ q, e.follow q 0 = d.follow q 0) ∧
      ∀ q, e.detailAt q 0 = if q = path then some detail else d.detailAt q 0 := by
  obtain ⟨node, hnode⟩ := exists_node? (hd.within.follow_lt hd.nonempty hpath)
  have hfrozen := hd.unfrozen n node hnode
  let changed : DraftNode := { node with detail := some detail }
  have hedges : changed.children = node.children := rfl
  exact ⟨d.set n changed, by simp [Edit.commit, Edit.apply, hnode, hfrozen, changed],
    Growing.set hnode hedges hd hfrozen, fun q => follow_set hnode hedges q 0,
    detailAt_set hnode hedges hd hpath⟩

end Draft

end SwitchLexicon
