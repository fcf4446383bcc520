import Mathlib.Data.List.Nodup
import Mathlib.Data.String.Basic

/-!
Children under their tokens. A node keeps them as a list, in a tree as much as in a draft, and in
both a token stands in the list once.
-/
namespace SwitchLexicon.Children

variable {α : Type} {w : String} {a : α} {cs ds : List (String × α)}

theorem lookup_cons (w v : String) (a : α) (cs : List (String × α)) :
    ((v, a) :: cs).lookup w = if w = v then some a else cs.lookup w := by
  rw [List.lookup_cons]
  by_cases h : w = v
  · simp [h]
  · simp [h, beq_false_of_ne h]

theorem isSome_lookup_iff (w : String) (cs : List (String × α)) :
    (cs.lookup w).isSome = true ↔ w ∈ cs.map Prod.fst := by
  simp only [List.lookup_isSome_iff, beq_iff_eq, List.mem_map, eq_comm (a := w)]

theorem not_mem_of_lookup (h : cs.lookup w = none) : w ∉ cs.map Prod.fst := by
  rw [← isSome_lookup_iff, h]
  simp

theorem mem_of_lookup (h : cs.lookup w = some a) : (w, a) ∈ cs := by
  obtain ⟨before, after, rfl, -⟩ := List.lookup_eq_some_iff.mp h
  simp

theorem lookup_of_mem (hcs : (cs.map Prod.fst).Nodup) (h : (w, a) ∈ cs) :
    cs.lookup w = some a := by
  obtain ⟨before, after, rfl⟩ := List.append_of_mem h
  have hbefore : before.lookup w = none := by
    rw [← Option.not_isSome_iff_eq_none, isSome_lookup_iff]
    intro hw
    rw [List.map_append, List.nodup_append] at hcs
    exact hcs.2.2 w hw w (by simp) rfl
  rw [List.lookup_append, hbefore, Option.none_or, List.lookup_cons_self]

theorem lookup_perm (h : cs.Perm ds) (hds : (ds.map Prod.fst).Nodup) (w : String) :
    cs.lookup w = ds.lookup w := by
  cases hw : cs.lookup w with
  | none =>
    have hnot := not_mem_of_lookup hw
    rw [(h.map Prod.fst).mem_iff, ← isSome_lookup_iff, Option.not_isSome_iff_eq_none] at hnot
    exact hnot.symm
  | some a => exact (lookup_of_mem hds (h.mem_iff.mp (mem_of_lookup hw))).symm

end SwitchLexicon.Children
