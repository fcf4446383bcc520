import SwitchLexicon.Proofs.Tree.Freeze

/-!
Frozen for good. An edit is a run of steps: a node is added, one that is not frozen is changed, or
one above frozen nodes is frozen. In every draft that such steps lead to, all below a frozen node is
frozen and the tree below it is finite, and no further step changes what is asked of it.
-/
namespace SwitchLexicon

theorem DraftNode.mem_linkIn {w : String} {n : Nat} {cs : List (String × Nat)} {c : String × Nat}
    (h : c ∈ linkIn w n cs) : c ∈ cs ∨ c.2 = n := by
  induction cs with
  | nil =>
    rw [linkIn, List.mem_singleton] at h
    exact Or.inr (congrArg Prod.snd h)
  | cons b cs ih =>
    obtain ⟨v, m⟩ := b
    rw [linkIn] at h
    split at h
    · rcases List.mem_cons.mp h with rfl | h
      · exact Or.inr rfl
      · exact Or.inl (List.mem_cons_of_mem _ h)
    · rcases List.mem_cons.mp h with rfl | h
      · exact Or.inl List.mem_cons_self
      · exact (ih h).imp_left (List.mem_cons_of_mem _)

namespace Draft

def IsFrozen (d : Draft) (n : Nat) : Prop :=
  ∃ node, d.node? n = some node ∧ node.frozen = true

inductive EditStep (d : Draft) : Draft → Prop
  | add (detail : Option Detail) : EditStep d (d.add { detail := detail }).1
  | change {n : Nat} {node next : DraftNode} (read : d.node? n = some node)
      (unfrozen : node.frozen = false) (stays : next.frozen = false)
      (within : ∀ c ∈ next.children, c ∈ node.children ∨ c.2 < d.nodes.length) :
      EditStep d (d.set n next)
  | freeze {e : Draft} (step : d.FreezeStep e) : EditStep d e

abbrev EditRun : Draft → Draft → Prop := Relation.ReflTransGen EditStep

theorem run_child {d : Draft} {n : Nat} {node : DraftNode} (hnode : d.node? n = some node)
    (hunfrozen : node.frozen = false) (token : String) :
    EditRun d ((d.add {}).1.set n (node.link token d.nodes.length)) := by
  have hn := lt_of_node? hnode
  have hread : (d.add {}).1.node? n = some node := by
    rw [node?_add, if_neg (by omega), hnode]
  refine .tail (.single (.add none)) (.change hread hunfrozen hunfrozen fun c hc => ?_)
  refine (DraftNode.mem_linkIn hc).imp_right fun hnew => ?_
  rw [length_add]
  omega

theorem apply_freeze (d : Draft) (n : Nat) :
    ((Edit.freeze n).apply d).1 = d ∨ ((Edit.freeze n).apply d).1 = (d.freeze n).1 := by
  rw [Edit.apply]
  cases d.node? n with
  | none => exact Or.inl rfl
  | some node =>
    obtain ⟨e, ok⟩ := d.freeze n
    cases ok with
    | true => exact Or.inr rfl
    | false => exact Or.inr rfl

theorem run_apply (d : Draft) (edit : Edit) : EditRun d (edit.apply d).1 := by
  cases edit with
  | new detail => exact .single (.add detail)
  | child n token =>
    rw [Edit.apply]
    split
    · exact .refl
    next node hnode =>
      split
      · exact .refl
      next hfrozen =>
        split
        · exact .refl
        · exact run_child hnode (by simpa using hfrozen) token
  | setDetail n detail =>
    rw [Edit.apply]
    split
    · exact .refl
    next node hnode =>
      split
      · exact .refl
      next hfrozen =>
        have hunfrozen : node.frozen = false := by simpa using hfrozen
        exact .single (.change hnode hunfrozen hunfrozen fun c hc => Or.inl hc)
  | setChild n token below =>
    rw [Edit.apply]
    split
    next node leaf hnode hleaf =>
      split
      · exact .refl
      next hfrozen =>
        have hunfrozen : node.frozen = false := by simpa using hfrozen
        refine .single (.change hnode hunfrozen hunfrozen fun c hc => ?_)
        refine (DraftNode.mem_linkIn hc).imp_right fun hnew => ?_
        exact hnew ▸ lt_of_node? hleaf
    · exact .refl
    · exact .refl
  | freeze n =>
    rcases apply_freeze d n with h | h
    · rw [h]
    · rw [h]
      have hrun : FreezeRun d (d.freeze n).1 := (freezeFrom_freezes d.nodes.length n d).run
      exact hrun.lift id fun _ _ => .freeze

theorem run_edits (d : Draft) (edits : List Edit) : EditRun d (Edit.run d edits) := by
  induction edits generalizing d with
  | nil => exact .refl
  | cons edit edits ih => exact (run_apply d edit).trans (ih _)

structure Keeps (d e : Draft) : Prop where
  length_le : d.nodes.length ≤ e.nodes.length
  same : ∀ n node, d.node? n = some node → node.frozen = true → e.node? n = some node

theorem Keeps.set {d : Draft} {n : Nat} {node : DraftNode} (hnode : d.node? n = some node)
    (hunfrozen : node.frozen = false) (next : DraftNode) : d.Keeps (d.set n next) where
  length_le := (length_set ..).ge
  same m x hx hfrozen := by
    rw [node?_set (lt_of_node? hnode)]
    split
    next heq =>
      rw [heq, hnode, Option.some.injEq] at hx
      simp [← hx, hunfrozen] at hfrozen
    next => exact hx

theorem EditStep.keeps {d e : Draft} (h : d.EditStep e) : d.Keeps e := by
  cases h with
  | add detail =>
    refine ⟨by simp [length_add], fun n node hnode _ => ?_⟩
    have hn := lt_of_node? hnode
    rw [node?_add, if_neg (by omega), hnode]
  | change read unfrozen stays within => exact .set read unfrozen _
  | freeze step =>
    cases step with
    | freeze read unfrozen below => exact .set read unfrozen _

theorem EditRun.keeps {d e : Draft} (h : EditRun d e) : d.Keeps e := by
  induction h with
  | refl => exact ⟨le_refl _, fun _ _ hnode _ => hnode⟩
  | tail hrun hstep ih =>
    refine ⟨ih.length_le.trans hstep.keeps.length_le, fun n node hnode hfrozen => ?_⟩
    exact hstep.keeps.same n node (ih.same n node hnode hfrozen) hfrozen

theorem Keeps.isFrozen {d e : Draft} (h : d.Keeps e) {n : Nat} (hn : d.IsFrozen n) :
    e.IsFrozen n := by
  obtain ⟨node, hnode, hfrozen⟩ := hn
  exact ⟨node, h.same n node hnode hfrozen, hfrozen⟩

def frozenCount (d : Draft) : Nat :=
  d.nodes.countP DraftNode.frozen

theorem frozenCount_le (d : Draft) : d.frozenCount ≤ d.nodes.length :=
  List.countP_le_length

theorem frozenCount_set {d : Draft} {n : Nat} {node : DraftNode} (hnode : d.node? n = some node)
    (hunfrozen : node.frozen = false) (next : DraftNode) :
    (d.set n next).frozenCount = d.frozenCount + if next.frozen = true then 1 else 0 := by
  obtain ⟨hn, rfl⟩ := List.getElem?_eq_some_iff.mp hnode
  simp [frozenCount, Draft.set, List.countP_set hn, hunfrozen]

/-- What edits keep. Nodes are frozen from below, so no way from a frozen node is longer than the
number of frozen nodes. -/
structure Settled (d : Draft) : Prop where
  within : ∀ n node, d.node? n = some node → ∀ c ∈ node.children, c.2 < d.nodes.length
  deep : d.FrozenDeep
  unfolds : ∀ n, d.IsFrozen n → ∃ t, d.treeFrom d.frozenCount n = some t

theorem settled_start : start.Settled := by
  have hnode : ∀ n node, start.node? n = some node → node = {} := by
    intro n node h
    cases n with
    | zero => simpa [start, node?] using h.symm
    | succ n => simp [start, node?] at h
  refine ⟨fun n node h => ?_, fun n node h hfrozen => ?_, fun n hn => ?_⟩
  · simp [hnode n node h]
  · simp [hnode n node h] at hfrozen
  · obtain ⟨node, h, hfrozen⟩ := hn
    simp [hnode n node h] at hfrozen

theorem Settled.isFrozen_child {d : Draft} (hd : d.Settled) {n : Nat} {node : DraftNode}
    (hnode : d.node? n = some node) (hfrozen : node.frozen = true) {c : String × Nat}
    (hc : c ∈ node.children) : d.IsFrozen c.2 := by
  obtain ⟨child, hchild⟩ := exists_node? (hd.within n node hnode c hc)
  exact ⟨child, hchild, hd.deep n node hnode hfrozen c hc child hchild⟩

theorem Settled.agrees {d e : Draft} (hd : d.Settled) (h : d.Keeps e) :
    d.Agrees e d.IsFrozen where
  same n hn := by
    obtain ⟨node, hnode, hfrozen⟩ := hn
    refine ⟨true, ?_⟩
    rw [h.same n node hnode hfrozen, hnode, Option.map_some, ← hfrozen]
  closed n hn node hnode c hc := by
    obtain ⟨same, hsame, hfrozen⟩ := hn
    obtain rfl : same = node := Option.some.inj (hsame.symm.trans hnode)
    exact hd.isFrozen_child hnode hfrozen hc

theorem EditStep.within {d e : Draft} (h : d.EditStep e)
    (hd : ∀ n node, d.node? n = some node → ∀ c ∈ node.children, c.2 < d.nodes.length) :
    ∀ n node, e.node? n = some node → ∀ c ∈ node.children, c.2 < e.nodes.length := by
  intro n node hnode c hc
  cases h with
  | add detail =>
    rw [length_add]
    rw [node?_add] at hnode
    split at hnode
    · rw [Option.some.injEq] at hnode
      simp [← hnode] at hc
    · exact Nat.lt_succ_of_lt (hd n node hnode c hc)
  | change read unfrozen stays within =>
    rw [length_set]
    rw [node?_set (lt_of_node? read)] at hnode
    split at hnode
    · rw [Option.some.injEq] at hnode
      rcases within c (hnode ▸ hc) with hc | hlt
      · exact hd _ _ read c hc
      · exact hlt
    · exact hd n node hnode c hc
  | freeze step =>
    cases step with
    | freeze read unfrozen below =>
      rw [length_set]
      rw [node?_set (lt_of_node? read)] at hnode
      split at hnode
      · rw [Option.some.injEq] at hnode
        rw [← hnode] at hc
        exact hd _ _ read c hc
      · exact hd n node hnode c hc

theorem Settled.of_isFrozen {d e : Draft} (hd : d.Settled) (hstep : d.EditStep e)
    (hcount : d.frozenCount ≤ e.frozenCount) (hback : ∀ n, e.IsFrozen n → d.IsFrozen n) :
    e.Settled := by
  have hkeeps := hstep.keeps
  refine ⟨hstep.within hd.within, fun n node hnode hfrozen c hc => ?_, fun n hn => ?_⟩
  · obtain ⟨same, hsame, hfrozen'⟩ := hback n ⟨node, hnode, hfrozen⟩
    obtain rfl : same = node :=
      Option.some.inj ((hkeeps.same n same hsame hfrozen').symm.trans hnode)
    obtain ⟨child, hchild, hmark⟩ := hkeeps.isFrozen (hd.isFrozen_child hsame hfrozen' hc)
    intro x hx
    rwa [← Option.some.inj (hchild.symm.trans hx)]
  · obtain ⟨t, ht⟩ := hd.unfolds n (hback n hn)
    rw [← (hd.agrees hkeeps).treeFrom _ (hback n hn)] at ht
    exact ⟨t, treeFrom_mono ht hcount⟩

theorem Settled.freezeStep {d e : Draft} (hd : d.Settled) (h : d.FreezeStep e) : e.Settled := by
  have hfrosts := (FreezeRun.frosts (.single h) : d.Frosts e)
  refine ⟨(EditStep.freeze h).within hd.within, FreezeRun.frozenDeep (.single h) hd.deep, ?_⟩
  intro m hm
  rw [hfrosts.agrees.treeFrom _ trivial]
  cases h with
  | @freeze n node read unfrozen below =>
    rw [frozenCount_set read unfrozen, if_pos rfl]
    obtain ⟨x, hx, hfrozen⟩ := hm
    rw [node?_set (lt_of_node? read)] at hx
    split at hx
    next heq =>
      -- the new node reaches one level further than the frozen ones below it
      have hbelow : ∀ c ∈ node.children, ∃ t, d.treeFrom d.frozenCount c.2 = some t := by
        intro c hc
        obtain ⟨child, hchild⟩ := exists_node? (hd.within n node read c hc)
        exact hd.unfolds c.2 ⟨child, hchild, below c hc child hchild⟩
      obtain ⟨ts, hts, -⟩ := treesFrom_eq_some hbelow
      exact ⟨.node node.detail (inOrder ts), by simp [treeFrom, heq, read, hts]⟩
    next hne =>
      obtain ⟨t, ht⟩ := hd.unfolds m ⟨x, hx, hfrozen⟩
      exact ⟨t, treeFrom_mono ht (Nat.le_succ _)⟩

theorem EditStep.settled {d e : Draft} (h : d.EditStep e) (hd : d.Settled) : e.Settled := by
  cases h with
  | add detail =>
    refine hd.of_isFrozen (.add detail) (by simp [frozenCount, Draft.add]) fun n hn => ?_
    obtain ⟨node, hnode, hfrozen⟩ := hn
    rw [node?_add] at hnode
    split at hnode
    · rw [Option.some.injEq] at hnode
      simp [← hnode] at hfrozen
    · exact ⟨node, hnode, hfrozen⟩
  | @change n node next read unfrozen stays within =>
    refine hd.of_isFrozen (.change read unfrozen stays within) ?_ fun m hm => ?_
    · simp [frozenCount_set read unfrozen]
    · obtain ⟨x, hx, hfrozen⟩ := hm
      rw [node?_set (lt_of_node? read)] at hx
      split at hx
      · rw [Option.some.injEq] at hx
        simp [← hx, stays] at hfrozen
      · exact ⟨x, hx, hfrozen⟩
  | freeze step => exact hd.freezeStep step

theorem EditRun.settled {d e : Draft} (h : EditRun d e) (hd : d.Settled) : e.Settled := by
  induction h with
  | refl => exact hd
  | tail hrun hstep ih => exact hstep.settled ih

theorem Agrees.outline {d e : Draft} {on : Nat → Prop} (h : d.Agrees e on) (depth : Nat) {n : Nat}
    (hn : on n) : e.outline depth n = d.outline depth n := by
  induction depth generalizing n with
  | zero =>
    obtain ⟨mark, hmark⟩ := h.same n hn
    rw [Draft.outline, Draft.outline, hmark]
    cases d.node? n <;> rfl
  | succ depth ih =>
    obtain ⟨mark, hmark⟩ := h.same n hn
    rw [Draft.outline, Draft.outline, hmark]
    cases hnode : d.node? n with
    | none => rfl
    | some node =>
      have hbelow : node.children.map (fun c => (c.1, e.outline depth c.2)) =
          node.children.map fun c => (c.1, d.outline depth c.2) :=
        List.map_congr_left fun c hc => by rw [ih (h.closed n hn node hnode c hc)]
      simp only [Option.map_some, hbelow]

structure Answers where
  get : String → Option Nat
  resolve : List String → Option Nat
  commands : List String → Except DraftError (List (List String × Detail))
  count : Except DraftError Nat
  suggest : String → Int → Except CursorError Suggestion

def answers (d : Draft) (n : Nat) : Answers where
  get token := d.follow [token] n
  resolve ws := d.resolve ws n
  commands path := d.commands n path
  count := d.count n
  suggest := d.suggest n

theorem Agrees.answers {d e : Draft} {on : Nat → Prop} (h : d.Agrees e on) {n : Nat} (hn : on n)
    (htree : e.treeAt? n = d.treeAt? n) : e.answers n = d.answers n := by
  have hfollow : ∀ path, e.follow path n = d.follow path n := fun path => h.follow path hn
  have hsuggest : e.suggest n = d.suggest n := by
    funext line cursor
    rw [suggest, suggest, scope, scope, h.outline _ hn]
  simp only [Draft.answers, resolve, commands, count, treeAt, hfollow, hsuggest, htree]

/-- The tree below a frozen node is finite and the same in every later draft. -/
theorem Settled.treeAt? {d e : Draft} (hd : d.Settled) (h : d.Keeps e) {n : Nat}
    (hn : d.IsFrozen n) : e.treeAt? n = d.treeAt? n := by
  obtain ⟨t, ht⟩ := hd.unfolds n hn
  have hnow : d.treeAt? n = some t := treeFrom_mono ht d.frozenCount_le
  have hsame : e.treeFrom d.frozenCount n = some t := by
    rw [(hd.agrees h).treeFrom _ hn, ht]
  have hlater : e.treeAt? n = some t :=
    treeFrom_mono hsame (d.frozenCount_le.trans h.length_le)
  rw [hnow, hlater]

theorem Frosts.treeAt? {d e : Draft} (h : d.Frosts e) (n : Nat) : e.treeAt? n = d.treeAt? n := by
  rw [Draft.treeAt?, Draft.treeAt?, h.length_eq, h.agrees.treeFrom _ trivial]

theorem sameShape_congr {d e : Draft} {m n : Nat} (hm : e.treeAt? m = d.treeAt? m)
    (hn : e.treeAt? n = d.treeAt? n) : e.sameShape m n = d.sameShape m n := by
  rw [sameShape, sameShape, hm, hn]

theorem frosts_freeze (d : Draft) (n : Nat) : d.Frosts ((Edit.freeze n).apply d).1 := by
  rcases apply_freeze d n with h | h
  · rw [h]
    exact .refl d
  · rw [h]
    exact freezeFrom_frosts d.nodes.length n d

theorem freeze_ok {d : Draft} {n : Nat} {t : CommandTree} (h : d.treeAt? n = some t) :
    ((Edit.freeze n).apply d).2 = .ok n ∧ ((Edit.freeze n).apply d).1.IsFrozen n := by
  obtain ⟨e, he⟩ : ∃ e, d.freeze n = (e, true) := ⟨_, Prod.ext rfl (freezeFrom_ok h)⟩
  obtain ⟨hrun, hfrozen⟩ : d.Freezes [n] (e, true) :=
    he ▸ freezeFrom_freezes d.nodes.length n d
  obtain ⟨node, hnode⟩ := exists_node_of_treeFrom h
  obtain ⟨x, hx⟩ := exists_node? (hrun.frosts.length_eq ▸ lt_of_node? hnode)
  simp only [Edit.apply, hnode, he]
  exact ⟨trivial, x, hx, hfrozen rfl n (by simp) x hx⟩

structure Refuses (d : Draft) (n : Nat) : Prop where
  child : ∀ token, (Edit.child n token).apply d = (d, .error (.frozenAgainst token))
  setDetail : ∀ detail, (Edit.setDetail n detail).apply d = (d, .error .frozenDetail)
  setChild : ∀ token below, below < d.nodes.length →
    (Edit.setChild n token below).apply d = (d, .error .frozenChildren)

theorem IsFrozen.refuses {d : Draft} {n : Nat} (h : d.IsFrozen n) : d.Refuses n := by
  obtain ⟨node, hnode, hfrozen⟩ := h
  refine ⟨fun token => ?_, fun detail => ?_, fun token below hbelow => ?_⟩
  · simp [Edit.apply, hnode, hfrozen]
  · simp [Edit.apply, hnode, hfrozen]
  · obtain ⟨leaf, hleaf⟩ := exists_node? hbelow
    simp [Edit.apply, hnode, hleaf, hfrozen]

theorem frozen_for_good (before after : List Edit) :
    let d := Edit.run .start before
    let e := Edit.run d after
    (∀ n node, d.node? n = some node → node.frozen = true → ∀ c ∈ node.children, d.IsFrozen c.2) ∧
    (∀ n, d.IsFrozen n → e.Refuses n ∧ e.node? n = d.node? n ∧ e.answers n = d.answers n ∧
      ∀ m, d.IsFrozen m → e.sameShape n m = d.sameShape n m) ∧
    ∀ k, let f := ((Edit.freeze k).apply d).1
      (∀ n, f.answers n = d.answers n) ∧ (∀ m n, f.sameShape m n = d.sameShape m n) ∧
      ∀ t, d.treeAt k = .ok t → ((Edit.freeze k).apply d).2 = .ok k ∧ f.IsFrozen k := by
  intro d e
  have hd : d.Settled := (run_edits .start before).settled settled_start
  have hkeeps : d.Keeps e := (run_edits d after).keeps
  refine ⟨fun n node hnode hfrozen c hc => hd.isFrozen_child hnode hfrozen hc, fun n hn => ?_,
    fun k => ?_⟩
  · have htree := hd.treeAt? hkeeps hn
    refine ⟨(hkeeps.isFrozen hn).refuses, ?_, (hd.agrees hkeeps).answers hn htree, fun m hm => ?_⟩
    · obtain ⟨node, hnode, hfrozen⟩ := hn
      rw [hkeeps.same n node hnode hfrozen, hnode]
    · exact sameShape_congr htree (hd.treeAt? hkeeps hm)
  · intro f
    have hfrosts : d.Frosts f := frosts_freeze d k
    refine ⟨fun n => hfrosts.agrees.answers trivial (hfrosts.treeAt? n), fun m n => ?_,
      fun t ht => ?_⟩
    · exact sameShape_congr (hfrosts.treeAt? m) (hfrosts.treeAt? n)
    · rw [treeAt] at ht
      cases hk : d.treeAt? k with
      | none => simp [hk] at ht
      | some s => exact freeze_ok hk

/-- A node that hangs below two others and was frozen below the second. -/
theorem frozen_for_good_shared :
    let d := Edit.run .start [.child 0 "show", .new none, .setChild 2 "display" 1, .freeze 2]
    let e := Edit.run d [.setDetail 1 none, .child 0 "clear", .freeze 0]
    (d.IsFrozen 1 ∧ d.IsFrozen 2 ∧ ¬ d.IsFrozen 0) ∧ e.Refuses 1 ∧ e.answers 1 = d.answers 1 ∧
      e.sameShape 1 2 = d.sameShape 1 2 := by
  intro d e
  have hchild : d.IsFrozen 1 := ⟨{ frozen := true }, by rfl, rfl⟩
  have hparent : d.IsFrozen 2 :=
    ⟨{ children := [("display", 1)], frozen := true }, by rfl, rfl⟩
  have hroot : ¬ d.IsFrozen 0 := by
    rintro ⟨node, hnode, hfrozen⟩
    have hread : d.node? 0 = some { children := [("show", 1)] } := by rfl
    rw [hread, Option.some.injEq] at hnode
    simp [← hnode] at hfrozen
  obtain ⟨-, hgood, -⟩ := frozen_for_good
    [.child 0 "show", .new none, .setChild 2 "display" 1, .freeze 2]
    [.setDetail 1 none, .child 0 "clear", .freeze 0]
  obtain ⟨hrefuses, -, hanswers, hshape⟩ := hgood 1 hchild
  exact ⟨⟨hchild, hparent, hroot⟩, hrefuses, hanswers, hshape 2 hparent⟩

end Draft

end SwitchLexicon
