import SwitchLexicon.Proofs.Dictionary.Built
import SwitchLexicon.Proofs.Tree.Freeze
import SwitchLexicon.Proofs.Tree.Growth
import SwitchLexicon.Proofs.Tree.Unfold

/-!
Building in a draft. The readings of a dictionary are entered one after the other as edits of shared
nodes, and the draft is frozen at the end. No edit is refused, every node is frozen afterwards, and
the draft unfolds to the tree of the readings.
-/
namespace SwitchLexicon

namespace Draft

def enter (d : Draft) : Reading → Except DraftError Draft
  | .command path detail => do
    let (e, n) ← d.extend 0 path
    let (f, _) ← (Edit.setDetail n (some detail)).commit e
    return f
  | .opened path => do
    let (e, _) ← d.extend 0 path
    return e
  | .skipped _ _ => return d
  | .ignored _ _ => return d

def ofReadings (rs : List Reading) : Except DraftError Draft := do
  let d ← rs.foldlM enter start
  let (e, _) ← (Edit.freeze 0).commit d
  return e

theorem Growing.frozenDeep {d : Draft} (hd : d.Growing) : d.FrozenDeep := by
  intro n node hnode hfrozen
  simp [hd.unfrozen n node hnode] at hfrozen

theorem Grows.depicts {d e : Draft} {path : List String} (h : d.Grows e path) {t : CommandTree}
    (ht : t.Ordered) (hdepicts : d.Depicts 0 t) : e.Depicts 0 (t.grow path) where
  places p := by rw [h.places, CommandTree.isSome_get?_grow ht, hdepicts.places]
  details p := by rw [h.details, CommandTree.detailAt_grow ht, hdepicts.details]

theorem extend_depicts {d : Draft} (hd : d.Growing) {t : CommandTree} (ht : t.Ordered)
    (hdepicts : d.Depicts 0 t) (path : List String) :
    ∃ e n, d.extend 0 path = .ok (e, n) ∧ e.Growing ∧ e.follow path 0 = some n ∧
      e.Depicts 0 (t.grow path) := by
  have hroot : d.follow [] 0 = some 0 := rfl
  obtain ⟨e, n, hextend, hgrows, hway⟩ := extend_ok hd hroot path
  exact ⟨e, n, hextend, hgrows.growing, hway, hgrows.depicts ht hdepicts⟩

/-- One reading does to the draft what it does to the tree. -/
theorem enter_ok {d : Draft} (hd : d.Growing) {t : CommandTree} (ht : t.Ordered)
    (hdepicts : d.Depicts 0 t) (r : Reading) :
    ∃ e, d.enter r = .ok e ∧ e.Growing ∧ e.Depicts 0 (r.apply t) := by
  cases r with
  | command path detail =>
    obtain ⟨e, n, hextend, hgrowing, hway, hgrown⟩ := extend_depicts hd ht hdepicts path
    obtain ⟨f, hset, hgrowing', hfollow, hdetail⟩ := commit_setDetail hgrowing hway detail
    refine ⟨f, by simp only [enter, hextend, hset, bind, Except.bind]; rfl, hgrowing', fun p => ?_,
      fun p => ?_⟩
    · rw [hfollow, hgrown.places, CommandTree.isSome_get?_grow ht, Reading.apply,
        CommandTree.isSome_get?_attach ht]
    · rw [hdetail, hgrown.details, CommandTree.detailAt_grow ht, Reading.apply,
        CommandTree.detailAt_attach ht]
  | opened path =>
    obtain ⟨e, n, hextend, hgrowing, -, hgrown⟩ := extend_depicts hd ht hdepicts path
    exact ⟨e, by simp only [enter, hextend, bind, Except.bind]; rfl, hgrowing, hgrown⟩
  | skipped entry reason => exact ⟨d, rfl, hd, hdepicts⟩
  | ignored key under => exact ⟨d, rfl, hd, hdepicts⟩

theorem enterAll_ok {d : Draft} (hd : d.Growing) {t : CommandTree} (ht : t.Ordered)
    (hdepicts : d.Depicts 0 t) (rs : List Reading) :
    ∃ e, rs.foldlM enter d = .ok e ∧ e.Growing ∧ e.Depicts 0 (rs.foldl Reading.apply t) := by
  induction rs generalizing d t with
  | nil => exact ⟨d, rfl, hd, hdepicts⟩
  | cons r rs ih =>
    obtain ⟨e, henter, hgrowing, hstep⟩ := enter_ok hd ht hdepicts r
    obtain ⟨f, hrest, hend⟩ := ih hgrowing (Reading.ordered_apply ht r) hstep
    refine ⟨f, ?_, hend⟩
    simp only [List.foldlM_cons, henter, bind, Except.bind]
    exact hrest

theorem depicts_start : start.Depicts 0 .empty where
  places p := by
    cases p with
    | nil => simp [follow, CommandTree.get?_nil]
    | cons w ws =>
      simp [follow_cons, start, node?, DraftNode.child?,
        CommandTree.get?_empty]
  details p := by
    cases p with
    | nil => rfl
    | cons w ws =>
      simp [detailAt_cons, start, node?, DraftNode.child?,
        CommandTree.detailAt_empty]

theorem ofReadings_ok (rs : List Reading) :
    ∃ d, ofReadings rs = .ok d ∧ d.treeAt 0 = .ok (CommandTree.ofReadings rs) ∧
      ∀ node ∈ d.nodes, node.frozen = true := by
  obtain ⟨d, hall, hgrowing, hdepicts⟩ :=
    enterAll_ok growing_start CommandTree.ordered_empty depicts_start rs
  obtain ⟨node, hnode⟩ := exists_node? hgrowing.nonempty
  obtain ⟨e, hfreeze, hfrosts, hfrozen⟩ := freeze_all hgrowing.toForward hgrowing.frozenDeep
    hgrowing.nonempty hgrowing.reached
  refine ⟨e, ?_, ?_, hfrozen⟩
  · simp only [ofReadings, hall, Edit.commit, Edit.apply, hnode, hfreeze, bind, Except.bind]
    rfl
  · exact treeAt_eq_ok (hfrosts.forward hgrowing.toForward)
      (hfrosts.length_eq ▸ hgrowing.nonempty) (CommandTree.ordered_ofReadings rs)
      ⟨fun p => by rw [hfrosts.follow, hdepicts.places]; rfl,
        fun p => by rw [hfrosts.detailAt, hdepicts.details]; rfl⟩

end Draft

theorem build_representation {raw : Value} {shape : Option Shape} {b : Build}
    (hb : build raw shape = .ok b) :
    (∃ s rs d, Shape.chosen raw shape = .ok s ∧ Reading.ofDictionary s raw = .ok rs ∧
      Draft.ofReadings rs = .ok d ∧ d.treeAt 0 = .ok b.tree ∧
      ∀ node ∈ d.nodes, node.frozen = true) ∧
    (∀ p node, b.tree.get? p = some node → ∀ w ∈ node.tokens,
      w ≠ "" ∧ (∀ c ∈ w.toList, Text.isBlank c = false) ∧ Text.lower w = w) ∧
    b.tree.detail = none ∧
    ∀ p d, b.tree.detailAt p = some d → canonical d.command = Text.unwords p := by
  have hwell := wellBuilt_of_build hb
  refine ⟨?_, fun p node hp w hw => ?_, ?_, fun p d hd => ?_⟩
  · obtain ⟨s, rs, hs, hrs, rfl⟩ := build_eq_ok_iff.mp hb
    obtain ⟨d, hd, htree, hfrozen⟩ := Draft.ofReadings_ok rs
    exact ⟨s, rs, d, hs, hrs, hd, htree, hfrozen⟩
  · have htoken : IsToken w :=
      hwell.tokens (p ++ [w]) ((CommandTree.mem_tokens_iff_get? hp w).mp hw) w (by simp)
    refine ⟨?_, htoken.word.2, htoken.lowered⟩
    rintro rfl
    exact htoken.word.1 rfl
  · rw [← CommandTree.detailAt_nil, hwell.detailAt_nil]
  · rw [canonical, (hwell.named p d hd).2]

theorem build_representation_show :
    ∃ b rs d, build (.ofEntries [("SHOW", .ofEntries [("_desc", .text "Show commands"),
        ("_options", .list [.text "All IP"])])]) none = .ok b ∧
      b = .ofReadings .nested rs ∧ Draft.ofReadings rs = .ok d ∧ d.treeAt 0 = .ok b.tree ∧
      (∀ node ∈ d.nodes, node.frozen = true) ∧ b.tree.detail = none ∧
      canonical "show" = Text.unwords ["show"] := by
  let raw : Value := .ofEntries [("SHOW", .ofEntries [("_desc", .text "Show commands"),
    ("_options", .list [.text "All IP"])])]
  have hb : build raw none = .ok (.ofReadings .nested (Reading.ofLevel [] [(.text "SHOW",
      .ofEntries [("_desc", .text "Show commands"), ("_options", .list [.text "All IP"])])])) := rfl
  obtain ⟨⟨s, rs, d, hs, hrs, hd, htree, hfrozen⟩, -, hroot, hnamed⟩ := build_representation hb
  cases hs
  cases hrs
  refine ⟨_, _, d, hb, rfl, hd, htree, hfrozen, hroot, ?_⟩
  exact hnamed ["show"] { command := "show", description := "Show commands" } (by rfl)

end SwitchLexicon
