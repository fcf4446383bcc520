import SwitchLexicon.Proofs.Console.Screen
import SwitchLexicon.Proofs.Index.Popup

/-!
Indexes whose texts are no markup. If every tag in the words and the descriptions of an index is
escaped, then nothing that it offers for a line is taken for a tag.
-/
namespace SwitchLexicon

structure CommandTree.IsInert (t : CommandTree) : Prop where
  words : ∀ p, (t.get? p).isSome = true → ∀ w ∈ p, Markup.IsInert w
  descriptions : ∀ p d, t.detailAt p = some d → Markup.IsInert d.description

def Index.IsInert (i : Index) : Prop :=
  ∀ t, i.tree = some t → t.IsInert

namespace CommandTree.IsInert

variable {root t : CommandTree} {p : List String} {w : String}

theorem word (h : root.IsInert) (hp : root.get? p = some t) (hw : w ∈ t.tokens) :
    Markup.IsInert w :=
  h.words (p ++ [w]) ((mem_tokens_iff_get? hp w).mp hw) w (by simp)

theorem description (h : root.IsInert) (hp : root.get? p = some t) :
    Markup.IsInert (t.descriptionOf w) := by
  have hdetail : root.detailAt (p ++ [w]) = (t.child? w).bind detail := by
    rw [detailAt, get?_append, hp, Option.bind_some, get?_cons, Option.bind_assoc]
    rfl
  rw [descriptionOf, ← hdetail]
  cases hd : root.detailAt (p ++ [w]) with
  | none => exact ⟨by decide, by decide⟩
  | some d => exact h.descriptions _ d hd

end CommandTree.IsInert

theorem exists_place_of_lookup {root : Option CommandTree} {line : String} {cursor : Int}
    {s : Suggestion} {t : CommandTree} (h : lookup root line cursor = .ok (s, some t)) :
    (∃ r p, root = some r ∧ r.get? p = some t) ∧ ∀ w ∈ s.tokens, w ∈ t.tokens := by
  rw [lookup] at h
  cases hbefore : beforeCursor line cursor with
  | error e =>
    rw [hbefore] at h
    cases h
  | ok before =>
    simp only [hbefore, bind, Except.bind, pure, Except.pure] at h
    split at h
    · cases h
    · obtain ⟨rfl, hnode⟩ := Prod.mk.inj (Except.ok.inj h)
      obtain ⟨r, hr, hresolve⟩ := Option.bind_eq_some_iff.mp hnode
      refine ⟨⟨r, _, hr, hresolve⟩, fun w hw => ?_⟩
      rw [hnode, Option.map_some, Option.getD_some] at hw
      exact ((CommandTree.mem_candidates_iff t _ w).mp hw).1

theorem Index.IsInert.describe {i : Index} (h : i.IsInert) {line : String} {cursor : Option Int}
    {pairs : List (String × String)} (hpairs : i.describe line cursor = .ok pairs) :
    ∀ pair ∈ pairs, Markup.IsInert pair.1 ∧ Markup.IsInert pair.2 := by
  rw [Index.describe, SwitchLexicon.describe] at hpairs
  cases hlookup : lookup i.tree line (cursor.getD line.length) with
  | error e =>
    rw [hlookup] at hpairs
    cases hpairs
  | ok found =>
    obtain ⟨s, node⟩ := found
    rw [hlookup] at hpairs
    obtain rfl := Except.ok.inj hpairs
    cases node with
    | none =>
      intro pair hpair
      cases hpair
    | some t =>
      obtain ⟨⟨root, p, hroot, hp⟩, htokens⟩ := exists_place_of_lookup hlookup
      intro pair hpair
      obtain ⟨w, hw, rfl⟩ := List.mem_map.mp hpair
      exact ⟨(h root hroot).word hp (htokens w hw), (h root hroot).description hp⟩

end SwitchLexicon
