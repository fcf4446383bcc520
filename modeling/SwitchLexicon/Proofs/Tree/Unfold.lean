import SwitchLexicon.Proofs.Tree.Alter
import SwitchLexicon.Proofs.Tree.Draft

/-!
The tree that a draft unfolds to. Where all edges lead to later nodes it is finite, it has the ways
of the draft and the entries at their ends, and these determine it.
-/
namespace SwitchLexicon

namespace CommandTree

/-- The places of an ordered tree and their entries determine it. -/
theorem Ordered.eq_of_places {s t : CommandTree} (hs : s.Ordered) (ht : t.Ordered)
    (places : ∀ p, (s.get? p).isSome = true ↔ (t.get? p).isSome = true)
    (details : ∀ p, s.detailAt p = t.detailAt p) : s = t := by
  induction hs generalizing t with
  | @node d cs sorted below ih =>
    cases ht with
    | @node e ds sorted' below' =>
      have hchild : ∀ w a b, cs.lookup w = some a → ds.lookup w = some b → a = b := by
        intro w a b ha hb
        have hbelow := below' _ (Children.mem_of_lookup hb)
        refine ih (w, a) (Children.mem_of_lookup ha) hbelow (fun p => ?_) fun p => ?_
        · simpa [get?_cons, child?, children, ha, hb] using places (w :: p)
        · simpa [detailAt_cons, child?, children, ha, hb] using details (w :: p)
      have htoken : ∀ w, (cs.lookup w).isSome = true ↔ (ds.lookup w).isSome = true := by
        intro w
        simpa [get?_cons, child?, children, get?] using places [w]
      have hmem : ∀ c, c ∈ cs ↔ c ∈ ds := by
        rintro ⟨w, a⟩
        constructor
        · intro h
          have ha := lookup_of_sorted sorted h
          obtain ⟨b, hb⟩ := Option.isSome_iff_exists.mp ((htoken w).mp (by simp [ha]))
          exact hchild w a b ha hb ▸ Children.mem_of_lookup hb
        · intro h
          have ha := lookup_of_sorted sorted' h
          obtain ⟨b, hb⟩ := Option.isSome_iff_exists.mp ((htoken w).mpr (by simp [ha]))
          exact hchild w b a hb ha ▸ Children.mem_of_lookup hb
      have hdetail : d = e := by simpa [detailAt_nil, detail] using details []
      have hirrefl : Std.Irrefl fun a b : String × CommandTree => a.1 < b.1 :=
        ⟨fun a => lt_irrefl a.1⟩
      have hantisymm : Std.Antisymm fun a b : String × CommandTree => a.1 < b.1 :=
        ⟨fun a b hab hba => absurd hab hba.asymm⟩
      rw [hdetail, (List.pairwise_map.mp sorted).eq_of_mem_iff (List.pairwise_map.mp sorted') hmem]

end CommandTree

namespace Draft

/-- The tree has the ways of the draft from a node on, with the same entries at their ends. -/
structure Depicts (d : Draft) (n : Nat) (t : CommandTree) : Prop where
  places : ∀ p, (d.follow p n).isSome = true ↔ (t.get? p).isSome = true
  details : ∀ p, d.detailAt p n = t.detailAt p

theorem treesFrom_eq_some {one : Nat → Option CommandTree} {cs : List (String × Nat)}
    (hone : ∀ c ∈ cs, ∃ t, one c.2 = some t) :
    ∃ ts, treesFrom one cs = some ts ∧ ts.map Prod.fst = cs.map Prod.fst ∧
      ∀ w t, (w, t) ∈ ts ↔ ∃ n, (w, n) ∈ cs ∧ one n = some t := by
  induction cs with
  | nil => exact ⟨[], rfl, rfl, by simp⟩
  | cons c cs ih =>
    obtain ⟨v, m⟩ := c
    obtain ⟨s, hs⟩ := hone (v, m) (by simp)
    obtain ⟨ts, hts, htokens, hmem⟩ := ih fun c hc => hone c (List.mem_cons_of_mem _ hc)
    refine ⟨(v, s) :: ts, by simp [treesFrom, hs, hts], by simp [htokens], fun w t => ?_⟩
    simp only [List.mem_cons, Prod.mk.injEq, hmem]
    constructor
    · rintro (⟨rfl, rfl⟩ | ⟨n, hn, ht⟩)
      · exact ⟨m, Or.inl ⟨rfl, rfl⟩, hs⟩
      · exact ⟨n, Or.inr hn, ht⟩
    · rintro ⟨n, ⟨rfl, rfl⟩ | hn, ht⟩
      · exact Or.inl ⟨rfl, Option.some.inj (ht.symm.trans hs)⟩
      · exact Or.inr ⟨n, hn, ht⟩

theorem treesFrom_congr {one other : Nat → Option CommandTree} {cs : List (String × Nat)}
    (h : ∀ c ∈ cs, other c.2 = one c.2) : treesFrom other cs = treesFrom one cs := by
  induction cs with
  | nil => rfl
  | cons c cs ih =>
    obtain ⟨w, n⟩ := c
    rw [treesFrom, treesFrom, h (w, n) (by simp), ih fun c hc => h c (List.mem_cons_of_mem _ hc)]

theorem isSome_of_treesFrom {one : Nat → Option CommandTree} {cs : List (String × Nat)}
    {ts : CommandTree.Children} (h : treesFrom one cs = some ts) :
    ∀ c ∈ cs, ∃ t, one c.2 = some t := by
  induction cs generalizing ts with
  | nil => simp
  | cons c cs ih =>
    obtain ⟨w, n⟩ := c
    obtain ⟨t, ht, hrest⟩ := Option.bind_eq_some_iff.mp h
    obtain ⟨rest, hrest, -⟩ := Option.bind_eq_some_iff.mp hrest
    intro c hc
    rcases List.mem_cons.mp hc with rfl | hc
    · exact ⟨t, ht⟩
    · exact ih hrest c hc

theorem Agrees.treeFrom {d e : Draft} {on : Nat → Prop} (h : d.Agrees e on) (depth : Nat) {n : Nat}
    (hn : on n) : e.treeFrom depth n = d.treeFrom depth n := by
  induction depth generalizing n with
  | zero => rfl
  | succ depth ih =>
    obtain ⟨mark, hmark⟩ := h.same n hn
    rw [Draft.treeFrom, Draft.treeFrom, hmark]
    cases hnode : d.node? n with
    | none => rfl
    | some node =>
      have hbelow := treesFrom_congr fun c hc => ih (h.closed n hn node hnode c hc)
      simp only [Option.map_some, bind, Option.bind_some, hbelow]

theorem exists_below {d : Draft} {depth n : Nat} {t : CommandTree}
    (h : d.treeFrom (depth + 1) n = some t) :
    ∃ node, d.node? n = some node ∧ ∀ c ∈ node.children, ∃ s, d.treeFrom depth c.2 = some s := by
  obtain ⟨node, hnode, hrest⟩ := Option.bind_eq_some_iff.mp h
  obtain ⟨ts, hts, -⟩ := Option.bind_eq_some_iff.mp hrest
  exact ⟨node, hnode, isSome_of_treesFrom hts⟩

theorem exists_node_of_treeFrom {d : Draft} {depth n : Nat} {t : CommandTree}
    (h : d.treeFrom depth n = some t) : ∃ node, d.node? n = some node := by
  cases depth with
  | zero => simp [treeFrom] at h
  | succ depth => exact (exists_below h).imp fun node hnode => hnode.1

theorem treeFrom_mono {d : Draft} {depth more n : Nat} {t : CommandTree}
    (h : d.treeFrom depth n = some t) (hmore : depth ≤ more) : d.treeFrom more n = some t := by
  induction depth generalizing more n t with
  | zero => simp [treeFrom] at h
  | succ depth ih =>
    obtain ⟨k, rfl⟩ : ∃ k, more = k + 1 := ⟨more - 1, by omega⟩
    obtain ⟨node, hnode, hbelow⟩ := exists_below h
    have hsame : treesFrom (d.treeFrom k) node.children =
        treesFrom (d.treeFrom depth) node.children := by
      refine treesFrom_congr fun c hc => ?_
      obtain ⟨s, hs⟩ := hbelow c hc
      rw [ih hs (by omega), hs]
    rw [← h, Draft.treeFrom, Draft.treeFrom, hnode]
    simp only [bind, Option.bind_some, hsame]

theorem inOrder_sorted {cs : CommandTree.Children} (hcs : (cs.map Prod.fst).Nodup) :
    ((inOrder cs).map Prod.fst).Pairwise (· < ·) := by
  have hperm : (inOrder cs).Perm cs := List.mergeSort_perm cs _
  have hnodup : ((inOrder cs).map Prod.fst).Nodup := (hperm.map Prod.fst).nodup_iff.mpr hcs
  have hle : (inOrder cs).Pairwise fun a b => decide (a.1 ≤ b.1) = true :=
    List.pairwise_mergeSort (fun a b c hab hbc => by simp at *; exact hab.trans hbc)
      (fun a b => by simpa using le_total a.1 b.1) cs
  rw [List.pairwise_map]
  rw [List.Nodup, List.pairwise_map] at hnodup
  exact (hle.and hnodup).imp fun ⟨hab, hne⟩ => lt_of_le_of_ne (by simpa using hab) hne

theorem Distinct.child?_of_mem {d : Draft} (hd : d.Distinct) {n : Nat} {node : DraftNode}
    (hnode : d.node? n = some node) {c : String × Nat} (hc : c ∈ node.children) :
    node.child? c.1 = some c.2 :=
  Children.lookup_of_mem (hd n node hnode) hc

theorem lookup_inOrder {cs : List (String × Nat)} (hcs : (cs.map Prod.fst).Nodup)
    {one : Nat → Option CommandTree} {ts : CommandTree.Children} (hts : treesFrom one cs = some ts)
    (w : String) :
    (inOrder ts).lookup w = (cs.lookup w).bind one := by
  obtain ⟨same, hsame, htokens, hmem⟩ := treesFrom_eq_some (isSome_of_treesFrom hts)
  obtain rfl : same = ts := Option.some.inj (hsame.symm.trans hts)
  have hsorted : ((inOrder same).map Prod.fst).Pairwise (· < ·) := inOrder_sorted (htokens ▸ hcs)
  have hperm : (inOrder same).Perm same := List.mergeSort_perm same _
  cases hw : cs.lookup w with
  | none =>
    have hnot : w ∉ (inOrder same).map Prod.fst := by
      rw [(hperm.map Prod.fst).mem_iff, htokens]
      exact Children.not_mem_of_lookup hw
    rwa [← Children.isSome_lookup_iff, Option.not_isSome_iff_eq_none] at hnot
  | some m =>
    have hedge := Children.mem_of_lookup hw
    obtain ⟨t, ht⟩ := isSome_of_treesFrom hts _ hedge
    have hin : (w, t) ∈ inOrder same := hperm.mem_iff.mpr ((hmem w t).mpr ⟨m, hedge, ht⟩)
    rw [CommandTree.lookup_of_sorted hsorted hin, Option.bind_some, ht]

theorem depicts_of_treeFrom {d : Draft} (hd : d.Distinct) {depth n : Nat} {t : CommandTree}
    (h : d.treeFrom depth n = some t) : t.Ordered ∧ d.Depicts n t := by
  induction depth generalizing n t with
  | zero => simp [treeFrom] at h
  | succ depth ih =>
    obtain ⟨node, hnode, hrest⟩ := Option.bind_eq_some_iff.mp h
    obtain ⟨ts, hts, hnodes⟩ := Option.bind_eq_some_iff.mp hrest
    obtain rfl : CommandTree.node node.detail (inOrder ts) = t := Option.some.inj hnodes
    have hdistinct := hd n node hnode
    obtain ⟨same, hsame, htokens, hmem⟩ := treesFrom_eq_some (isSome_of_treesFrom hts)
    obtain rfl : same = ts := Option.some.inj (hsame.symm.trans hts)
    have hperm : (inOrder same).Perm same := List.mergeSort_perm same _
    have hchild : ∀ w, (inOrder same).lookup w =
        (node.child? w).bind (d.treeFrom depth) := lookup_inOrder hdistinct hts
    have hbelow : ∀ w m, node.child? w = some m →
        ∃ t, d.treeFrom depth m = some t ∧ d.Depicts m t := by
      intro w m hw
      obtain ⟨t, ht⟩ := isSome_of_treesFrom hts _ (Children.mem_of_lookup hw)
      exact ⟨t, ht, (ih ht).2⟩
    refine ⟨.node (inOrder_sorted (htokens ▸ hdistinct)) ?_, ?_, ?_⟩
    · rintro ⟨w, t⟩ hin
      obtain ⟨m, -, ht⟩ := (hmem w t).mp (hperm.mem_iff.mp hin)
      exact (ih ht).1
    · intro p
      cases p with
      | nil => simp [follow, CommandTree.get?_nil]
      | cons w ws =>
        rw [follow_cons, hnode, CommandTree.get?_cons, CommandTree.child?, CommandTree.children,
          hchild, Option.bind_some]
        cases hw : node.child? w with
        | none => simp
        | some m =>
          obtain ⟨t, ht, hdepicts⟩ := hbelow w m hw
          simpa [ht] using hdepicts.places ws
    · intro p
      cases p with
      | nil => simp [detailAt, follow, hnode, CommandTree.detailAt_nil, CommandTree.detail]
      | cons w ws =>
        rw [detailAt_cons, hnode, CommandTree.detailAt_cons, CommandTree.child?,
          CommandTree.children, hchild, Option.bind_some]
        cases hw : node.child? w with
        | none => rfl
        | some m =>
          obtain ⟨t, ht, hdepicts⟩ := hbelow w m hw
          simpa [ht] using hdepicts.details ws

theorem treeFrom_eq_some {d : Draft} (hd : d.Forward) {depth n : Nat} (hn : n < d.nodes.length)
    (hdepth : d.nodes.length - n ≤ depth) : ∃ t, d.treeFrom depth n = some t := by
  induction depth generalizing n with
  | zero => omega
  | succ depth ih =>
    obtain ⟨node, hnode⟩ := exists_node? hn
    have hbelow : ∀ c ∈ node.children, ∃ t, d.treeFrom depth c.2 = some t := by
      intro c hc
      obtain ⟨hlater, hlt⟩ := hd.later n node hnode c hc
      exact ih hlt (by omega)
    obtain ⟨ts, hts, -⟩ := treesFrom_eq_some hbelow
    exact ⟨.node node.detail (inOrder ts), by simp [treeFrom, hnode, hts]⟩

theorem treeAt_eq_ok {d : Draft} (hd : d.Forward) (hsome : 0 < d.nodes.length) {t : CommandTree}
    (ht : t.Ordered) (h : d.Depicts 0 t) : d.treeAt 0 = .ok t := by
  obtain ⟨s, hs⟩ := treeFrom_eq_some hd hsome (Nat.sub_le d.nodes.length 0)
  obtain ⟨hordered, hdepicts⟩ := depicts_of_treeFrom hd.distinct hs
  have hst : s = t := hordered.eq_of_places ht
    (fun p => (hdepicts.places p).symm.trans (h.places p))
    fun p => (hdepicts.details p).symm.trans (h.details p)
  rw [treeAt, treeAt?, hs, hst]

end Draft

end SwitchLexicon
