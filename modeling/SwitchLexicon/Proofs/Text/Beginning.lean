import SwitchLexicon.Text.Find
import SwitchLexicon.Text.Lowercase

/-!
Lowercase of the beginning of a word. Every character has a lowercase that does not depend on what
comes after it, but for the capital sigma. So the lowercase of a beginning is a beginning of the
lowercase, unless the cut makes a sigma final that is not final in the whole word.
-/
namespace SwitchLexicon.Text

/-- Lowercase of a piece of a text that stands between `before`, nearest first, and `after`. -/
def lowerPiece (before after : List Char) : List Char → List Char
  | [] => []
  | c :: cs =>
    (if c.toNat = 0x3A3 then [lowerSigma before (cs ++ after)] else lowerChar c) ++
      lowerPiece (c :: before) after cs

theorem lowerFrom_append (before cs after : List Char) :
    lowerFrom before (cs ++ after) =
      lowerPiece before after cs ++ lowerFrom (cs.reverse ++ before) after := by
  induction cs generalizing before with
  | nil => rfl
  | cons c cs ih =>
    rw [List.cons_append, lowerFrom, lowerPiece, ih, List.append_assoc, List.reverse_cons,
      List.append_assoc, List.singleton_append]

theorem lowerFrom_eq_lowerPiece (before cs : List Char) :
    lowerFrom before cs = lowerPiece before [] cs := by
  have happend := lowerFrom_append before cs []
  rwa [List.append_nil, lowerFrom, List.append_nil] at happend

theorem length_lowerPiece (before after other cs : List Char) :
    (lowerPiece before after cs).length = (lowerPiece before other cs).length := by
  induction cs generalizing before with
  | nil => rfl
  | cons c cs ih =>
    rw [lowerPiece, lowerPiece, List.length_append, List.length_append, ih]
    split <;> rfl

theorem meetsCased_append (marks after : List Char) :
    meetsCased (marks ++ after) =
      if marks.all isCaseIgnorable then meetsCased after else meetsCased marks := by
  induction marks with
  | nil => rfl
  | cons c marks ih =>
    cases hc : isCaseIgnorable c with
    | true => simpa [meetsCased, hc] using ih
    | false => simp [meetsCased, hc]

theorem meetsCased_of_all {marks : List Char} (h : marks.all isCaseIgnorable = true) :
    meetsCased marks = false := by
  have hend := meetsCased_append marks []
  rw [List.append_nil, if_pos h] at hend
  exact hend

/-- A sigma is lowered in two ways exactly if nothing but marks follows it here, and a cased letter
there. -/
theorem lowerSigma_append_iff (before marks after : List Char) :
    lowerSigma before (marks ++ after) = lowerSigma before marks ↔
      ¬(marks.all isCaseIgnorable = true ∧ meetsCased before = true ∧
        meetsCased after = true) := by
  have hforms : Char.ofNat 0x3C3 ≠ Char.ofNat 0x3C2 := by decide
  rw [lowerSigma, lowerSigma, meetsCased_append]
  cases hmarks : marks.all isCaseIgnorable with
  | false => simp
  | true =>
    rw [meetsCased_of_all hmarks, if_pos rfl]
    cases meetsCased before <;> cases meetsCased after <;> simp [hforms]

/-- The beginning ends in a sigma, marks aside, that follows a cased letter, and the rest of the
word goes on with a cased letter. -/
def PartsSigma (beginning rest : List Char) : Prop :=
  ∃ front sigma marks, beginning = front ++ sigma :: marks ∧ sigma.toNat = 0x3A3 ∧
    marks.all isCaseIgnorable = true ∧ meetsCased front.reverse = true ∧ meetsCased rest = true

theorem lowerPiece_eq_iff (before cs after : List Char) :
    lowerPiece before after cs = lowerPiece before [] cs ↔
      ∀ front sigma marks, cs = front ++ sigma :: marks → sigma.toNat = 0x3A3 →
        lowerSigma (front.reverse ++ before) (marks ++ after) =
          lowerSigma (front.reverse ++ before) marks := by
  induction cs generalizing before with
  | nil => simp [lowerPiece]
  | cons c cs ih =>
    have hhead : (if c.toNat = 0x3A3 then [lowerSigma before (cs ++ after)] else lowerChar c) =
          (if c.toNat = 0x3A3 then [lowerSigma before (cs ++ [])] else lowerChar c) ↔
        (c.toNat = 0x3A3 → lowerSigma before (cs ++ after) = lowerSigma before cs) := by
      split <;> simp_all
    have hlength : (if c.toNat = 0x3A3 then [lowerSigma before (cs ++ after)]
          else lowerChar c).length =
        (if c.toNat = 0x3A3 then [lowerSigma before (cs ++ [])] else lowerChar c).length := by
      split <;> rfl
    rw [lowerPiece, lowerPiece]
    constructor
    · intro h front sigma marks hsplit hsigma
      obtain ⟨hfirst, htail⟩ := List.append_inj h hlength
      rw [hhead] at hfirst
      rw [ih] at htail
      rcases List.cons_eq_append_iff.mp hsplit with ⟨rfl, hcons⟩ | ⟨front, rfl, hcons⟩
      · obtain ⟨rfl, rfl⟩ := List.cons.inj hcons
        exact hfirst hsigma
      · simpa using htail front sigma marks hcons hsigma
    · intro h
      rw [hhead.mpr (h [] c cs rfl)]
      refine congrArg _ ((ih (c :: before)).mpr fun front sigma marks hsplit hsigma => ?_)
      simpa using h (c :: front) sigma marks (by rw [hsplit, List.cons_append]) hsigma

theorem lowerPiece_eq_iff_not_partsSigma (cs after : List Char) :
    lowerPiece [] after cs = lowerPiece [] [] cs ↔ ¬PartsSigma cs after := by
  simp only [lowerPiece_eq_iff, lowerSigma_append_iff, List.append_nil]
  constructor
  · rintro h ⟨front, sigma, marks, hsplit, hsigma, hmarks, hfront, hafter⟩
    exact h front sigma marks hsplit hsigma ⟨hmarks, hfront, hafter⟩
  · rintro h front sigma marks hsplit hsigma ⟨hmarks, hfront, hafter⟩
    exact h ⟨front, sigma, marks, hsplit, hsigma, hmarks, hfront, hafter⟩

theorem startsWith_lower_iff (beginning rest : String) :
    startsWith (lower (beginning ++ rest)) (lower beginning) = true ↔
      ¬PartsSigma beginning.toList rest.toList := by
  have hlength := length_lowerPiece [] rest.toList [] beginning.toList
  rw [startsWith, List.isPrefixOf_iff_prefix, lower, lower, String.toList_ofList,
    String.toList_ofList, String.toList_append, lowerFrom_append, lowerFrom_eq_lowerPiece,
    ← lowerPiece_eq_iff_not_partsSigma]
  constructor
  · intro hprefix
    have hpiece := List.prefix_of_prefix_length_le hprefix (List.prefix_append _ _)
      (Nat.le_of_eq hlength.symm)
    exact (hpiece.eq_of_length hlength.symm).symm
  · intro hpiece
    rw [hpiece]
    exact List.prefix_append _ _

end SwitchLexicon.Text
