import SwitchLexicon.Proofs.Tree.Children
import SwitchLexicon.Tree.Draft

/-!
Drafts as graphs of numbered nodes: what is read after a write, and where a way leads.
-/
namespace SwitchLexicon

namespace DraftNode

theorem lookup_linkIn (u w : String) (n : Nat) (cs : List (String × Nat)) :
    (linkIn w n cs).lookup u = if u = w then some n else cs.lookup u := by
  induction cs with
  | nil => rw [linkIn, Children.lookup_cons]
  | cons c cs ih =>
    obtain ⟨v, m⟩ := c
    by_cases hv : v = w
    · by_cases hu : u = w <;> simp [linkIn, Children.lookup_cons, hv, hu]
    · by_cases hu : u = v
      · subst hu
        simp [linkIn, hv]
      · simp [linkIn, Children.lookup_cons, hv, hu, ih]

theorem child?_link (u w : String) (n : Nat) (node : DraftNode) :
    (node.link w n).child? u = if u = w then some n else node.child? u :=
  lookup_linkIn u w n node.children

theorem linkIn_of_none {w : String} {cs : List (String × Nat)} (h : cs.lookup w = none)
    (n : Nat) : linkIn w n cs = cs ++ [(w, n)] := by
  have hnot := Children.not_mem_of_lookup h
  clear h
  induction cs with
  | nil => rfl
  | cons c cs ih =>
    rw [List.map_cons, List.mem_cons, not_or] at hnot
    rw [linkIn, if_neg (Ne.symm hnot.1), ih hnot.2, List.cons_append]

end DraftNode

namespace Draft

theorem lt_of_node? {d : Draft} {n : Nat} {node : DraftNode} (h : d.node? n = some node) :
    n < d.nodes.length :=
  (List.getElem?_eq_some_iff.mp h).1

theorem exists_node? {d : Draft} {n : Nat} (h : n < d.nodes.length) :
    ∃ node, d.node? n = some node :=
  ⟨_, List.getElem?_eq_getElem h⟩

theorem node?_set {d : Draft} {n : Nat} (hn : n < d.nodes.length) (node : DraftNode) (k : Nat) :
    (d.set n node).node? k = if k = n then some node else d.node? k := by
  by_cases hk : k = n
  · simp [Draft.set, node?, hk, hn]
  · simp [Draft.set, node?, hk, Ne.symm hk]

theorem set_self {d : Draft} {n : Nat} {node : DraftNode} (h : d.node? n = some node) :
    d.set n node = d := by
  obtain ⟨hn, rfl⟩ := List.getElem?_eq_some_iff.mp h
  exact congrArg Draft.mk (List.set_getElem_self hn)

theorem length_set (d : Draft) (n : Nat) (node : DraftNode) :
    (d.set n node).nodes.length = d.nodes.length :=
  List.length_set

theorem length_add (d : Draft) (node : DraftNode) :
    (d.add node).1.nodes.length = d.nodes.length + 1 := by
  simp [add]

theorem node?_add (d : Draft) (node : DraftNode) (k : Nat) :
    (d.add node).1.node? k = if k = d.nodes.length then some node else d.node? k := by
  by_cases hk : k = d.nodes.length
  · simp [add, node?, hk]
  · by_cases hlt : k < d.nodes.length
    · simp [add, node?, hk, List.getElem?_append_left hlt]
    · have hnone : d.node? k = none := List.getElem?_eq_none (Nat.le_of_not_lt hlt)
      have hlast := length_add d node
      have hnone' : (d.add node).1.node? k = none := List.getElem?_eq_none (by omega)
      rw [hnone', if_neg hk, hnone]

theorem follow_cons (d : Draft) (w : String) (ws : List String) (n : Nat) :
    d.follow (w :: ws) n = ((d.node? n).bind (·.child? w)).bind (d.follow ws) := by
  rw [follow]

theorem follow_append (d : Draft) (vs ws : List String) (n : Nat) :
    d.follow (vs ++ ws) n = (d.follow vs n).bind (d.follow ws) := by
  induction vs generalizing n with
  | nil => rfl
  | cons v vs ih =>
    rw [List.cons_append, follow_cons, follow_cons]
    cases (d.node? n).bind (·.child? v) with
    | none => rfl
    | some m => exact ih m

theorem follow_concat (d : Draft) (vs : List String) (w : String) (n : Nat) :
    d.follow (vs ++ [w]) n = (d.follow vs n).bind fun k => (d.node? k).bind (·.child? w) := by
  rw [follow_append]
  refine congrArg _ (funext fun k => ?_)
  rw [follow_cons]
  exact Option.bind_fun_some _

theorem isSome_follow_front {d : Draft} {p q : List String} {n k : Nat}
    (hq : d.follow q n = some k) (hpq : p <+: q) : (d.follow p n).isSome = true := by
  obtain ⟨r, rfl⟩ := hpq
  rw [follow_append] at hq
  cases hp : d.follow p n with
  | none => simp [hp] at hq
  | some k => rfl

def Within (d : Draft) : Prop :=
  ∀ n node, d.node? n = some node → ∀ c ∈ node.children, c.2 < d.nodes.length

theorem Within.follow_lt {d : Draft} (hd : d.Within) {n : Nat} (hn : n < d.nodes.length)
    {path : List String} {k : Nat} (hk : d.follow path n = some k) : k < d.nodes.length := by
  induction path generalizing n with
  | nil =>
    rw [follow, Option.some.injEq] at hk
    exact hk ▸ hn
  | cons w ws ih =>
    rw [follow_cons] at hk
    obtain ⟨m, hm, hk⟩ := Option.bind_eq_some_iff.mp hk
    obtain ⟨node, hnode, hchild⟩ := Option.bind_eq_some_iff.mp hm
    exact ih (hd n node hnode _ (Children.mem_of_lookup hchild)) hk

def detailAt (d : Draft) (path : List String) (n : Nat) : Option Detail :=
  (d.follow path n).bind fun k => (d.node? k).bind DraftNode.detail

theorem detailAt_cons (d : Draft) (w : String) (ws : List String) (n : Nat) :
    d.detailAt (w :: ws) n = ((d.node? n).bind (·.child? w)).bind (d.detailAt ws) := by
  rw [detailAt, follow_cons, Option.bind_assoc]
  rfl

/-- The drafts have the same entries and edges at some nodes and at all that is below these. -/
structure Agrees (d e : Draft) (on : Nat → Prop) : Prop where
  same : ∀ n, on n → ∃ mark, e.node? n = (d.node? n).map fun node => { node with frozen := mark }
  closed : ∀ n, on n → ∀ node, d.node? n = some node → ∀ c ∈ node.children, on c.2

theorem Agrees.follow {d e : Draft} {on : Nat → Prop} (h : d.Agrees e on) (path : List String)
    {n : Nat} (hn : on n) : e.follow path n = d.follow path n := by
  induction path generalizing n with
  | nil => rfl
  | cons w ws ih =>
    obtain ⟨mark, hmark⟩ := h.same n hn
    rw [follow_cons, follow_cons, hmark]
    cases hnode : d.node? n with
    | none => rfl
    | some node =>
      simp only [Option.map_some, Option.bind_some]
      rw [show DraftNode.child? w { node with frozen := mark } = node.child? w from rfl]
      cases hchild : node.child? w with
      | none => rfl
      | some m => exact ih (h.closed n hn node hnode _ (Children.mem_of_lookup hchild))

def Distinct (d : Draft) : Prop :=
  ∀ n node, d.node? n = some node → (node.children.map Prod.fst).Nodup

/-- Edges lead to nodes that were made later, and no token stands on two edges of a node. -/
structure Forward (d : Draft) : Prop where
  distinct : ∀ n node, d.node? n = some node → (node.children.map Prod.fst).Nodup
  later : ∀ n node, d.node? n = some node → ∀ c ∈ node.children, n < c.2 ∧ c.2 < d.nodes.length

end Draft

end SwitchLexicon
