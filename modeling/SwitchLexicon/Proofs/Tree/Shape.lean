import SwitchLexicon.Proofs.Line.Suggestion

/-!
Trees of one shape. The comparison goes through the children of one tree and looks each of them up
in the other; it holds exactly if the same ways lead through both trees and the same ways end at
complete commands. Whatever does not ask for the entries themselves is then the same for both.
-/
namespace SwitchLexicon

namespace CommandTree

structure Alike (s t : CommandTree) : Prop where
  places : ∀ p, (s.get? p).isSome = true ↔ (t.get? p).isSome = true
  complete : ∀ p, (s.detailAt p).isSome = (t.detailAt p).isSome

theorem isComplete_eq (t : CommandTree) : t.isComplete = (t.detailAt []).isSome := by
  rw [detailAt_nil, isComplete]

theorem isSome_get?_singleton (w : String) (t : CommandTree) :
    (t.get? [w]).isSome = (t.child? w).isSome := by
  rw [get?_cons]
  cases t.child? w with
  | none => rfl
  | some s => rw [Option.bind_some, get?_nil, Option.isSome_some]

theorem alike_iff (s t : CommandTree) :
    s.Alike t ↔ s.isComplete = t.isComplete ∧
      (∀ w, (s.child? w).isSome = true ↔ (t.child? w).isSome = true) ∧
      ∀ w a b, s.child? w = some a → t.child? w = some b → a.Alike b := by
  constructor
  · intro h
    refine ⟨?_, fun w => ?_, fun w a b ha hb => ⟨fun p => ?_, fun p => ?_⟩⟩
    · rw [isComplete_eq, isComplete_eq, h.complete]
    · rw [← isSome_get?_singleton, ← isSome_get?_singleton]
      exact h.places [w]
    · simpa [get?_cons, ha, hb] using h.places (w :: p)
    · simpa [detailAt_cons, ha, hb] using h.complete (w :: p)
  · intro ⟨hroot, hwords, hbelow⟩
    have hchild : ∀ w, s.child? w = none ∧ t.child? w = none ∨
        ∃ a b, s.child? w = some a ∧ t.child? w = some b ∧ a.Alike b := by
      intro w
      have hw := hwords w
      cases ha : s.child? w with
      | none =>
        rw [ha] at hw
        refine Or.inl ⟨rfl, Option.not_isSome_iff_eq_none.mp fun hb => ?_⟩
        exact absurd (hw.mpr hb) (by decide)
      | some a =>
        rw [ha] at hw
        obtain ⟨b, hb⟩ := Option.isSome_iff_exists.mp (hw.mp rfl)
        exact Or.inr ⟨a, b, rfl, hb, hbelow w a b ha hb⟩
    constructor
    · intro p
      cases p with
      | nil => rw [get?_nil, get?_nil]; exact Iff.rfl
      | cons w ws =>
        rw [get?_cons, get?_cons]
        rcases hchild w with ⟨ha, hb⟩ | ⟨a, b, ha, hb, halike⟩
        · rw [ha, hb]
        · rw [ha, hb]
          exact halike.places ws
    · intro p
      cases p with
      | nil => rw [← isComplete_eq, ← isComplete_eq, hroot]
      | cons w ws =>
        rw [detailAt_cons, detailAt_cons]
        rcases hchild w with ⟨ha, hb⟩ | ⟨a, b, ha, hb, halike⟩
        · rw [ha, hb]
        · rw [ha, hb]
          exact halike.complete ws

theorem sameTokens_iff (cs ds : Children) :
    sameTokens cs ds = true ↔
      ∀ w, (cs.lookup w).isSome = true ↔ (ds.lookup w).isSome = true := by
  rw [sameTokens, Bool.and_eq_true, List.all_eq_true, List.all_eq_true]
  constructor
  · intro ⟨hleft, hright⟩ w
    constructor
    · intro hw
      obtain ⟨c, hc, rfl⟩ := List.mem_map.mp ((Children.isSome_lookup_iff w cs).mp hw)
      exact hleft c hc
    · intro hw
      obtain ⟨c, hc, rfl⟩ := List.mem_map.mp ((Children.isSome_lookup_iff w ds).mp hw)
      exact hright c hc
  · intro h
    refine ⟨fun c hc => (h c.1).mp ?_, fun c hc => (h c.1).mpr ?_⟩
    · exact (Children.isSome_lookup_iff c.1 cs).mpr (List.mem_map_of_mem hc)
    · exact (Children.isSome_lookup_iff c.1 ds).mpr (List.mem_map_of_mem hc)

theorem sameShapes_iff (cs ds : Children) :
    sameShapes cs ds = true ↔
      ∀ c ∈ cs, ∃ t, ds.lookup c.1 = some t ∧ c.2.sameShape t = true := by
  induction cs with
  | nil => simp [sameShapes]
  | cons c cs ih =>
    obtain ⟨w, s⟩ := c
    rw [sameShapes, Bool.and_eq_true, ih, List.forall_mem_cons]
    refine and_congr ?_ Iff.rfl
    cases ds.lookup w with
    | none => simp
    | some t => simp

theorem sameShape_iff_alike {s t : CommandTree} (hs : s.Ordered) :
    s.sameShape t = true ↔ s.Alike t := by
  induction hs generalizing t with
  | @node d cs sorted below ih =>
    rw [sameShape, Bool.and_eq_true, Bool.and_eq_true, beq_iff_eq, sameTokens_iff, sameShapes_iff,
      alike_iff, and_assoc]
    refine and_congr Iff.rfl (and_congr_right fun hwords => ?_)
    constructor
    · intro h w a b ha hb
      have hmem : (w, a) ∈ cs := Children.mem_of_lookup ha
      obtain ⟨same, hsame, hshape⟩ := h (w, a) hmem
      obtain rfl : same = b := Option.some.inj (hsame.symm.trans hb)
      exact (ih (w, a) hmem).mp hshape
    · intro h c hc
      have hchild : cs.lookup c.1 = some c.2 := lookup_of_sorted sorted hc
      obtain ⟨b, hb⟩ := Option.isSome_iff_exists.mp ((hwords c.1).mp (by rw [hchild]; rfl))
      exact ⟨b, hb, (ih c hc).mpr (h c.1 c.2 b hchild hb)⟩

theorem tokens_congr {s t : CommandTree} (hs : s.Ordered) (ht : t.Ordered)
    (h : ∀ w, (s.child? w).isSome = true ↔ (t.child? w).isSome = true) : s.tokens = t.tokens := by
  refine hs.sorted_tokens.eq_of_mem_iff ht.sorted_tokens fun w => ?_
  rw [← isSome_child?_iff, ← isSome_child?_iff, h]

theorem countAll_congr {cs ds : Children} (htokens : cs.map Prod.fst = ds.map Prod.fst)
    (h : ∀ c ∈ cs, ∀ d ∈ ds, c.1 = d.1 → c.2.count = d.2.count) : countAll cs = countAll ds := by
  induction cs generalizing ds with
  | nil =>
    obtain rfl : ds = [] := List.map_eq_nil_iff.mp htokens.symm
    rfl
  | cons c cs ih =>
    cases ds with
    | nil => exact absurd htokens (List.cons_ne_nil _ _)
    | cons d ds =>
      obtain ⟨hword, hrest⟩ := List.cons.inj htokens
      have hbelow := ih hrest fun a ha b hb =>
        h a (List.mem_cons_of_mem _ ha) b (List.mem_cons_of_mem _ hb)
      rw [countAll, countAll, h c (by simp) d (by simp) hword, hbelow]

theorem Alike.count_eq {s t : CommandTree} (hs : s.Ordered) (ht : t.Ordered) (h : s.Alike t) :
    s.count = t.count := by
  induction hs generalizing t with
  | @node d cs sorted below ih =>
    cases ht with
    | @node e ds sorted' below' =>
      obtain ⟨-, hwords, hbelow⟩ := (alike_iff _ _).mp h
      have htokens : cs.map Prod.fst = ds.map Prod.fst :=
        tokens_congr (.node sorted below) (.node sorted' below') hwords
      rw [count, count, countAll_congr htokens]
      intro a ha b hb hword
      have hleft : cs.lookup a.1 = some a.2 := lookup_of_sorted sorted ha
      have hright : ds.lookup a.1 = some b.2 := hword ▸ lookup_of_sorted sorted' hb
      exact ih a ha (below' b hb) (hbelow a.1 a.2 b.2 hleft hright)

theorem mem_map_fst_commandsFrom {t : CommandTree} (ht : t.Ordered) (path p : List String) :
    p ∈ (t.commandsFrom path).map Prod.fst ↔
      p ≠ [] ∧ ∃ q, p = path ++ q ∧ (t.detailAt q).isSome = true := by
  rw [List.mem_map]
  constructor
  · rintro ⟨⟨p, d⟩, hmem, rfl⟩
    obtain ⟨hne, q, hq, hd⟩ := (mem_commandsFrom ht path p d).mp hmem
    exact ⟨hne, q, hq, by rw [hd]; rfl⟩
  · rintro ⟨hne, q, hq, hsome⟩
    obtain ⟨d, hd⟩ := Option.isSome_iff_exists.mp hsome
    exact ⟨(p, d), (mem_commandsFrom ht path p d).mpr ⟨hne, q, hq, hd⟩, rfl⟩

theorem Alike.commandsFrom_eq {s t : CommandTree} (hs : s.Ordered) (ht : t.Ordered)
    (h : s.Alike t) (path : List String) :
    (s.commandsFrom path).map Prod.fst = (t.commandsFrom path).map Prod.fst := by
  have hsorted : ∀ {t : CommandTree}, t.Ordered →
      ((t.commandsFrom path).map Prod.fst).Pairwise (· < ·) := fun ht =>
    List.pairwise_map.mpr (commandsFrom_sorted ht path)
  refine (hsorted hs).eq_of_mem_iff (hsorted ht) fun p => ?_
  simp only [mem_map_fst_commandsFrom hs, mem_map_fst_commandsFrom ht, h.complete]

end CommandTree

theorem suggestionAt_congr {s t : CommandTree} (hs : s.Ordered) (ht : t.Ordered)
    (h : ∀ p, (s.get? p).isSome = true ↔ (t.get? p).isSome = true) (split : LineSplit)
    (cursor : Int) :
    suggestionAt (s.resolve split.completed) split cursor =
      suggestionAt (t.resolve split.completed) split cursor := by
  have hplace := h (split.completed.map Text.lower)
  rw [CommandTree.resolve, CommandTree.resolve]
  cases ha : s.get? (split.completed.map Text.lower) with
  | none =>
    rw [ha] at hplace
    rw [Option.not_isSome_iff_eq_none.mp fun hb => absurd (hplace.mpr hb) (by decide)]
  | some a =>
    rw [ha] at hplace
    obtain ⟨b, hb⟩ := Option.isSome_iff_exists.mp (hplace.mp rfl)
    have htokens : a.tokens = b.tokens := by
      refine CommandTree.tokens_congr (hs.of_get? ha) (ht.of_get? hb) fun w => ?_
      rw [CommandTree.isSome_child?_iff, CommandTree.isSome_child?_iff,
        CommandTree.mem_tokens_iff_get? ha, CommandTree.mem_tokens_iff_get? hb, h]
    rw [hb, suggestionAt, suggestionAt, Option.map_some, Option.map_some, CommandTree.candidates,
      CommandTree.candidates, htokens]

theorem suggest_congr {s t : CommandTree} (hs : s.Ordered) (ht : t.Ordered)
    (h : ∀ p, (s.get? p).isSome = true ↔ (t.get? p).isSome = true) (line : String)
    (cursor : Int) : suggest (some s) line cursor = suggest (some t) line cursor := by
  cases hbefore : beforeCursor line cursor with
  | error e => simp [suggest, lookup, hbefore, bind, Except.bind]
  | ok before =>
    cases hblank : before.all Text.isBlank with
    | true => rw [suggest_eq_of_blank s hbefore hblank, suggest_eq_of_blank t hbefore hblank]
    | false =>
      have hsolid : ∃ c ∈ before, Text.isBlank c = false := by simpa using hblank
      rw [suggest_eq_of_not_blank s hbefore hsolid, suggest_eq_of_not_blank t hbefore hsolid,
        suggestionAt_congr hs ht h]

end SwitchLexicon
