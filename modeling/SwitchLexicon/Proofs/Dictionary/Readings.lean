import Mathlib.Data.List.Induction
import SwitchLexicon.Dictionary.Build
import SwitchLexicon.Proofs.Tree.Alter

/-!
The tree of a list of readings. One reading adds its path and sets the entry at the end of it; after
all of them a place is in the tree when it lies on the way to a path that was read, and its entry is
the one that was read last for it.
-/
namespace SwitchLexicon

namespace Reading

def command? : Reading → Option (List String × Detail)
  | .command path d => some (path, d)
  | _ => none

def opened? : Reading → Option (List String)
  | .opened path => some path
  | _ => none

def entryFor (place : List String) (c : List String × Detail) : Option Detail :=
  if place = c.1 then some c.2 else none

theorem ordered_apply {t : CommandTree} (ht : t.Ordered) (r : Reading) : (r.apply t).Ordered := by
  cases r with
  | command path d => exact ht.attach path d
  | opened path => exact ht.grow path
  | skipped entry reason => exact ht
  | ignored key under => exact ht

theorem isSome_get?_apply {t : CommandTree} (ht : t.Ordered) (r : Reading) (place : List String) :
    ((r.apply t).get? place).isSome = true ↔
      (t.get? place).isSome = true ∨ (∃ c, r.command? = some c ∧ place <+: c.1) ∨
        ∃ path, r.opened? = some path ∧ place <+: path := by
  cases r with
  | command path d =>
    simp [Reading.apply, CommandTree.isSome_get?_attach ht, command?, opened?, or_comm]
  | opened path => simp [Reading.apply, CommandTree.isSome_get?_grow ht, command?, opened?, or_comm]
  | skipped entry reason => simp [Reading.apply, command?, opened?]
  | ignored key under => simp [Reading.apply, command?, opened?]

theorem detailAt_apply {t : CommandTree} (ht : t.Ordered) (r : Reading) (place : List String) :
    (r.apply t).detailAt place = (r.command?.bind (entryFor place)).or (t.detailAt place) := by
  cases r with
  | command path d =>
    rw [Reading.apply, CommandTree.detailAt_attach ht]
    by_cases h : place = path
    · simp [command?, entryFor, h]
    · simp [command?, entryFor, h]
  | opened path => simp [Reading.apply, CommandTree.detailAt_grow ht, command?]
  | skipped entry reason => rfl
  | ignored key under => rfl

end Reading

namespace CommandTree

theorem ofReadings_concat (rs : List Reading) (r : Reading) :
    ofReadings (rs ++ [r]) = r.apply (ofReadings rs) := by
  simp [ofReadings]

theorem ordered_ofReadings (rs : List Reading) : (ofReadings rs).Ordered := by
  induction rs using List.reverseRecOn with
  | nil => exact ordered_empty
  | append_singleton rs r ih =>
    rw [ofReadings_concat]
    exact Reading.ordered_apply ih r

theorem isSome_get?_ofReadings (rs : List Reading) (place : List String) :
    ((ofReadings rs).get? place).isSome = true ↔
      place = [] ∨ (∃ c ∈ rs.filterMap Reading.command?, place <+: c.1) ∨
        ∃ path ∈ rs.filterMap Reading.opened?, place <+: path := by
  induction rs using List.reverseRecOn with
  | nil => simp [ofReadings, get?_empty]
  | append_singleton rs r ih =>
    rw [ofReadings_concat, Reading.isSome_get?_apply (ordered_ofReadings rs), ih]
    simp only [List.filterMap_append, List.mem_append, List.mem_filterMap, List.mem_singleton]
    grind

theorem detailAt_ofReadings (rs : List Reading) (place : List String) :
    (ofReadings rs).detailAt place =
      (rs.filterMap Reading.command?).reverse.findSome? (Reading.entryFor place) := by
  induction rs using List.reverseRecOn with
  | nil => exact detailAt_empty place
  | append_singleton rs r ih =>
    rw [ofReadings_concat, Reading.detailAt_apply (ordered_ofReadings rs), ih]
    cases hr : r.command? with
    | none => simp [hr]
    | some c =>
      simp only [List.filterMap_append, List.filterMap_cons, hr, List.filterMap_nil,
        List.reverse_append, List.reverse_singleton, List.singleton_append, List.findSome?_cons,
        Option.bind_some]
      cases Reading.entryFor place c <;> rfl

theorem isSome_detailAt_ofReadings (rs : List Reading) (place : List String) :
    ((ofReadings rs).detailAt place).isSome = true ↔
      ∃ d, (place, d) ∈ rs.filterMap Reading.command? := by
  rw [detailAt_ofReadings, List.isSome_findSome?, List.any_reverse, List.any_eq_true]
  constructor
  · rintro ⟨⟨path, d⟩, hc, hentry⟩
    have hpath : place = path := by simpa [Reading.entryFor] using hentry
    exact ⟨d, hpath ▸ hc⟩
  · rintro ⟨d, hc⟩
    exact ⟨(place, d), hc, by simp [Reading.entryFor]⟩

theorem mem_of_detailAt_ofReadings {rs : List Reading} {p : List String} {d : Detail}
    (h : (ofReadings rs).detailAt p = some d) : (p, d) ∈ rs.filterMap Reading.command? := by
  rw [detailAt_ofReadings] at h
  obtain ⟨⟨q, e⟩, hc, hentry⟩ := List.exists_of_findSome?_eq_some h
  by_cases hp : p = q
  · have hd : e = d := by simpa [Reading.entryFor, hp] using hentry
    rw [hp, ← hd]
    exact List.mem_reverse.mp hc
  · simp [Reading.entryFor, hp] at hentry

/-- The entry at a place comes from the last source of a command there. -/
theorem findSome?_entryFor_eq_some_iff {α : Type} (command : α → Option (List String × Detail))
    (sources : List α) (place : List String) (d : Detail) :
    (sources.filterMap command).reverse.findSome? (Reading.entryFor place) = some d ↔
      ∃ before e after, sources = before ++ e :: after ∧ command e = some (place, d) ∧
        ∀ x ∈ after, ∀ c, command x ≠ some (place, c) := by
  have hentry : ∀ x c, (command x).bind (Reading.entryFor place) = some c ↔
      command x = some (place, c) := by
    intro x c
    cases hx : command x with
    | none => simp
    | some b =>
      obtain ⟨path, e⟩ := b
      by_cases hp : place = path
      · simp [Reading.entryFor, hp]
      · simp [Reading.entryFor, hp, Ne.symm hp]
  rw [← List.filterMap_reverse, ← List.head?_filterMap, List.filterMap_filterMap,
    List.head?_filterMap, List.findSome?_eq_some_iff]
  constructor
  · rintro ⟨after, e, before, hsplit, he, hafter⟩
    refine ⟨before.reverse, e, after.reverse, ?_, (hentry e d).mp he, fun x hx c hc => ?_⟩
    · simpa using congrArg List.reverse hsplit
    · have hnone := hafter x (List.mem_reverse.mp hx)
      simp [(hentry x c).mpr hc] at hnone
  · rintro ⟨before, e, after, rfl, he, hafter⟩
    refine ⟨after.reverse, e, before.reverse, by simp, (hentry e d).mpr he, fun x hx => ?_⟩
    rw [Option.eq_none_iff_forall_ne_some]
    exact fun c hc => hafter x (List.mem_reverse.mp hx) c ((hentry x c).mp hc)

end CommandTree

@[simp] theorem Build.tree_ofReadings (shape : Shape) (rs : List Reading) :
    (Build.ofReadings shape rs).tree = CommandTree.ofReadings rs := rfl

end SwitchLexicon
