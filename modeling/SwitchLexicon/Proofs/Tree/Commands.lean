import SwitchLexicon.Proofs.Tree.Alter

/-!
The list of the commands of a tree. It holds every complete place once, in strictly increasing order
of the paths, so the entries at the places of a tree determine the list.
-/
namespace SwitchLexicon.CommandTree

theorem commandsFromAll_eq (path : List String) (cs : Children) :
    commandsFromAll path cs = cs.flatMap fun c => c.2.commandsFrom (path ++ [c.1]) := by
  induction cs with
  | nil => simp [commandsFromAll]
  | cons c cs ih =>
    obtain ⟨w, t⟩ := c
    simp [commandsFromAll, ih]

theorem mem_entryAt {path p : List String} {d : Detail} {e : Option Detail} :
    (p, d) ∈ entryAt path e ↔ path ≠ [] ∧ p = path ∧ e = some d := by
  cases e with
  | none => simp [entryAt]
  | some e =>
    by_cases hpath : path = []
    · simp [entryAt, hpath]
    · have hentry : entryAt path (some e) = [(path, e)] := by simp [entryAt, hpath]
      rw [hentry, List.mem_singleton, Prod.mk.injEq, Option.some.injEq, eq_comm (a := d)]
      exact (and_iff_right hpath).symm

theorem detailAt_node_cons {e : Option Detail} {cs : Children}
    (sorted : (cs.map Prod.fst).Pairwise (· < ·)) (w : String) (ws : List String) (d : Detail) :
    (CommandTree.node e cs).detailAt (w :: ws) = some d ↔
      ∃ t, (w, t) ∈ cs ∧ t.detailAt ws = some d := by
  rw [detailAt_cons, Option.bind_eq_some_iff]
  constructor
  · rintro ⟨t, ht, hd⟩
    exact ⟨t, Children.mem_of_lookup ht, hd⟩
  · rintro ⟨t, ht, hd⟩
    exact ⟨t, lookup_of_sorted sorted ht, hd⟩

theorem mem_commandsFrom {t : CommandTree} (ht : t.Ordered) (path p : List String) (d : Detail) :
    (p, d) ∈ t.commandsFrom path ↔ p ≠ [] ∧ ∃ q, p = path ++ q ∧ t.detailAt q = some d := by
  induction ht generalizing path with
  | @node e cs sorted below ih =>
    rw [commandsFrom, commandsFromAll_eq, List.mem_append, mem_entryAt, List.mem_flatMap]
    constructor
    · rintro (⟨hne, rfl, he⟩ | ⟨c, hc, hp⟩)
      · exact ⟨hne, [], by simp, by rw [detailAt_nil]; exact he⟩
      · obtain ⟨hne, q, rfl, hq⟩ := (ih c hc _).mp hp
        exact ⟨hne, c.1 :: q, by simp, (detailAt_node_cons sorted _ _ _).mpr ⟨c.2, hc, hq⟩⟩
    · rintro ⟨hne, q, rfl, hq⟩
      cases q with
      | nil =>
        rw [detailAt_nil] at hq
        exact Or.inl ⟨by simpa using hne, by simp, hq⟩
      | cons w ws =>
        obtain ⟨s, hs, hd⟩ := (detailAt_node_cons sorted _ _ _).mp hq
        exact Or.inr ⟨(w, s), hs, (ih _ hs _).mpr ⟨hne, ws, by simp, hd⟩⟩

theorem mem_commands {t : CommandTree} (ht : t.Ordered) (p : List String) (d : Detail) :
    (p, d) ∈ t.commands ↔ p ≠ [] ∧ t.detailAt p = some d := by
  simp [commands, mem_commandsFrom ht]

theorem commandsFrom_sorted {t : CommandTree} (ht : t.Ordered) (path : List String) :
    (t.commandsFrom path).Pairwise fun a b => a.1 < b.1 := by
  induction ht generalizing path with
  | @node e cs sorted below ih =>
    have hextends : ∀ c ∈ cs, ∀ x ∈ c.2.commandsFrom (path ++ [c.1]),
        ∃ q, x.1 = path ++ c.1 :: q := by
      intro c hc x hx
      obtain ⟨-, q, hq, -⟩ := (mem_commandsFrom (below c hc) _ x.1 x.2).mp hx
      exact ⟨q, by simpa using hq⟩
    rw [commandsFrom, commandsFromAll_eq, List.pairwise_append]
    refine ⟨?_, ?_, ?_⟩
    · unfold entryAt
      repeat' split
      all_goals simp
    · rw [List.pairwise_flatMap]
      refine ⟨fun c hc => ih c hc _, ?_⟩
      rw [List.pairwise_map] at sorted
      refine sorted.imp_of_mem fun {a b} ha hb hlt x hx y hy => ?_
      obtain ⟨q, hq⟩ := hextends a ha x hx
      obtain ⟨r, hr⟩ := hextends b hb y hy
      rw [hq, hr]
      exact List.append_left_lt (List.cons_lt_cons_iff.mpr (Or.inl hlt))
    · intro x hx y hy
      obtain ⟨-, hpath, -⟩ := mem_entryAt.mp hx
      obtain ⟨c, hc, hyc⟩ := List.mem_flatMap.mp hy
      obtain ⟨q, hq⟩ := hextends c hc y hyc
      rw [hpath, hq]
      have hlt : path ++ [] < path ++ c.1 :: q := List.append_left_lt (List.nil_lt_cons c.1 q)
      rwa [List.append_nil] at hlt

theorem commands_sorted {t : CommandTree} (ht : t.Ordered) :
    t.commands.Pairwise fun a b => a.1 < b.1 :=
  commandsFrom_sorted ht []

theorem commands_congr {s t : CommandTree} (hs : s.Ordered) (ht : t.Ordered)
    (h : ∀ p, s.detailAt p = t.detailAt p) : s.commands = t.commands := by
  have hirrefl : Std.Irrefl fun a b : List String × Detail => a.1 < b.1 :=
    ⟨fun a => lt_irrefl a.1⟩
  have hantisymm : Std.Antisymm fun a b : List String × Detail => a.1 < b.1 :=
    ⟨fun a b hab hba => absurd hab hba.asymm⟩
  refine (commands_sorted hs).eq_of_mem_iff (commands_sorted ht) fun ⟨p, d⟩ => ?_
  rw [mem_commands hs, mem_commands ht, h]

end SwitchLexicon.CommandTree
