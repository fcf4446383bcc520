import Mathlib.Data.List.DropRight
import Mathlib.Data.List.Infix
import SwitchLexicon.Proofs.Text.Beginning
import SwitchLexicon.Proofs.Text.Lowercase

/-!
Blanks around a text. A blank is its own lowercase, and a sigma next to it is lowered as at the end
of the text, so it makes no difference whether the blanks are taken off before or after lowercasing.
-/
namespace SwitchLexicon.Text

def blankCodes : List Nat :=
  blankRanges.flatMap fun r => List.range' r.1 (r.2 + 1 - r.1)

theorem toNat_mem_blankCodes {c : Char} (hc : isBlank c = true) : c.toNat ∈ blankCodes := by
  obtain ⟨r, hr, hrange⟩ := List.any_eq_true.mp hc
  simp only [Bool.and_eq_true, decide_eq_true_eq] at hrange
  refine List.mem_flatMap.mpr ⟨r, hr, List.mem_range'_1.mpr ?_⟩
  omega

theorem blankCodes_caseless : (blankCodes.all fun n =>
    decide (lowerChar (Char.ofNat n) = [Char.ofNat n]) && decide ((Char.ofNat n).toNat ≠ 0x3A3) &&
      !isCaseIgnorable (Char.ofNat n) && !isCased (Char.ofNat n)) = true := by
  decide +kernel

theorem isBlank_caseless {c : Char} (hc : isBlank c = true) :
    Settled c ∧ isCaseIgnorable c = false ∧ isCased c = false := by
  have hcode := List.all_eq_true.mp blankCodes_caseless _ (toNat_mem_blankCodes hc)
  rw [Char.ofNat_toNat] at hcode
  simp only [Bool.and_eq_true, decide_eq_true_eq, Bool.not_eq_true'] at hcode
  exact ⟨hcode.1.1, hcode.1.2, hcode.2⟩

-- the search for a cased letter ends at a blank as at the end of the text
theorem meetsCased_append_blank {b : Char} (hb : isBlank b = true) (cs rest : List Char) :
    meetsCased (cs ++ b :: rest) = meetsCased cs := by
  obtain ⟨-, hignorable, hcased⟩ := isBlank_caseless hb
  have hblank : meetsCased (b :: rest) = false := by
    simp [meetsCased, hignorable, hcased]
  rw [meetsCased_append, hblank]
  split
  next hall => rw [meetsCased_of_all hall]
  next => rfl

theorem lowerSigma_blank_before {b : Char} (hb : isBlank b = true) (cs rest after : List Char) :
    lowerSigma (cs ++ b :: rest) after = lowerSigma cs after := by
  rw [lowerSigma, lowerSigma, meetsCased_append_blank hb]

theorem lowerSigma_blank_after {b : Char} (hb : isBlank b = true) (before cs rest : List Char) :
    lowerSigma before (cs ++ b :: rest) = lowerSigma before cs := by
  rw [lowerSigma, lowerSigma, meetsCased_append_blank hb]

theorem lowerFrom_blank_before {b : Char} (hb : isBlank b = true) (before rest cs : List Char) :
    lowerFrom (before ++ b :: rest) cs = lowerFrom before cs := by
  induction cs generalizing before with
  | nil => rfl
  | cons c cs ih =>
    have htail := ih (c :: before)
    rw [List.cons_append] at htail
    rw [lowerFrom, lowerFrom, lowerSigma_blank_before hb, htail]

theorem lowerPiece_blank_after {b : Char} (hb : isBlank b = true) (before rest cs : List Char) :
    lowerPiece before (b :: rest) cs = lowerFrom before cs := by
  induction cs generalizing before with
  | nil => rfl
  | cons c cs ih => rw [lowerPiece, lowerFrom, lowerSigma_blank_after hb, ih]

theorem lowerFrom_append_blank {b : Char} (hb : isBlank b = true) (cs ds : List Char) :
    lowerFrom [] (cs ++ b :: ds) = lowerFrom [] cs ++ b :: lowerFrom [] ds := by
  obtain ⟨hlower, hsigma⟩ := (isBlank_caseless hb).1
  have hbefore : lowerFrom (b :: (cs.reverse ++ [])) ds = lowerFrom [] ds :=
    lowerFrom_blank_before hb [] _ ds
  rw [lowerFrom_append, lowerPiece_blank_after hb, lowerFrom, if_neg hsigma, hlower, hbefore,
    List.singleton_append]

theorem lowerFrom_concat_blank {b : Char} (hb : isBlank b = true) (cs : List Char) :
    lowerFrom [] (cs ++ [b]) = lowerFrom [] cs ++ [b] :=
  lowerFrom_append_blank hb cs []

theorem lowerFrom_cons_blank {b : Char} (hb : isBlank b = true) (cs : List Char) :
    lowerFrom [] (b :: cs) = b :: lowerFrom [] cs :=
  lowerFrom_append_blank hb [] cs

theorem lowerPiece_solid {c : Char} (hc : isBlank c = false) (before after : List Char) :
    IsRun (lowerPiece before after [c]) := by
  rw [lowerPiece, lowerPiece, List.append_nil]
  split
  next => exact isRun_singleton (lowerSigma_settled before _).2
  next hsigma => exact ⟨lowerChar_ne_nil c, fun x hx => (lowerChar_settled hx hsigma).2 hc⟩

theorem IsRun.dropWhile_append {w : List Char} (hw : IsRun w) (rest : List Char) :
    (w ++ rest).dropWhile isBlank = w ++ rest := by
  obtain ⟨x, xs, rfl⟩ := List.exists_cons_of_ne_nil hw.1
  have hx : ¬isBlank x = true := by simp [hw.2 x (by simp)]
  rw [List.cons_append, List.dropWhile_cons_of_neg hx]

theorem IsRun.rdropWhile_append {w : List Char} (hw : IsRun w) (rest : List Char) :
    (rest ++ w).rdropWhile isBlank = rest ++ w := by
  apply List.rdropWhile_eq_self_iff.mpr
  intro hne
  rw [List.getLast_append_of_ne_nil hne hw.1, hw.2 _ (List.getLast_mem hw.1)]
  exact Bool.false_ne_true

theorem lowerFrom_dropWhile (cs : List Char) :
    lowerFrom [] (cs.dropWhile isBlank) = (lowerFrom [] cs).dropWhile isBlank := by
  induction cs with
  | nil => rfl
  | cons c cs ih =>
    cases hc : isBlank c with
    | true => rw [lowerFrom_cons_blank hc, List.dropWhile_cons_of_pos hc,
        List.dropWhile_cons_of_pos hc, ih]
    | false =>
      have happend := lowerFrom_append [] [c] cs
      rw [List.singleton_append] at happend
      rw [List.dropWhile_cons_of_neg (by simp [hc]), happend,
        (lowerPiece_solid hc [] cs).dropWhile_append]

theorem lowerFrom_rdropWhile (cs : List Char) :
    lowerFrom [] (cs.rdropWhile isBlank) = (lowerFrom [] cs).rdropWhile isBlank := by
  induction cs using List.reverseRecOn with
  | nil => rfl
  | append_singleton cs c ih =>
    cases hc : isBlank c with
    | true => rw [lowerFrom_concat_blank hc, List.rdropWhile_concat_pos _ _ _ hc,
        List.rdropWhile_concat_pos _ _ _ hc, ih]
    | false =>
      rw [List.rdropWhile_concat_neg _ _ _ (by simp [hc]), lowerFrom_append,
        lowerFrom_eq_lowerPiece _ [c], (lowerPiece_solid hc _ []).rdropWhile_append]

theorem strip_eq (s : String) :
    strip s = String.ofList ((s.toList.dropWhile isBlank).rdropWhile isBlank) := rfl

theorem lower_strip (s : String) : lower (strip s) = strip (lower s) := by
  simp only [strip_eq, lower, String.toList_ofList]
  rw [lowerFrom_rdropWhile, lowerFrom_dropWhile]

theorem lower_eq_empty_iff (s : String) : lower s = "" ↔ s = "" := by
  rw [lower, String.ofList_eq_empty_iff, ← String.toList_eq_nil_iff]
  cases s.toList with
  | nil => simp [lowerFrom]
  | cons c cs =>
    rw [lowerFrom]
    split <;> simp [lowerChar_ne_nil]

theorem dropWhile_blanks {bs : List Char} (hbs : bs.all isBlank = true) (cs : List Char) :
    (bs ++ cs).dropWhile isBlank = cs.dropWhile isBlank :=
  List.dropWhile_append_of_pos fun b hb => List.all_eq_true.mp hbs b hb

theorem rdropWhile_blanks {bs : List Char} (hbs : bs.all isBlank = true) (cs : List Char) :
    (cs ++ bs).rdropWhile isBlank = cs.rdropWhile isBlank := by
  have hreverse : bs.reverse.all isBlank = true := by rw [List.all_reverse, hbs]
  rw [List.rdropWhile, List.reverse_append, dropWhile_blanks hreverse, List.rdropWhile]

theorem strip_append {front back : String} (hfront : isBlankText front = true)
    (hback : isBlankText back = true) (s : String) : strip (front ++ s ++ back) = strip s := by
  rw [strip_eq, strip_eq, String.toList_append, String.toList_append, List.append_assoc,
    dropWhile_blanks hfront, List.dropWhile_append]
  split
  next hempty =>
    have hnone := dropWhile_blanks hback []
    rw [List.append_nil] at hnone
    rw [hnone, List.isEmpty_iff.mp hempty, List.dropWhile_nil]
  next => rw [rdropWhile_blanks hback]

def Occurs (part s : String) : Prop :=
  ∃ before after, s = before ++ part ++ after

theorem infixOf_iff (part cs : List Char) : infixOf part cs = true ↔ part <:+: cs := by
  induction cs with
  | nil => simp [infixOf]
  | cons c cs ih =>
    rw [infixOf, Bool.or_eq_true, List.isPrefixOf_iff_prefix, ih, List.infix_cons_iff]

theorem contains_iff (s part : String) : contains s part = true ↔ Occurs part s := by
  rw [contains, infixOf_iff]
  constructor
  · rintro ⟨before, after, h⟩
    refine ⟨String.ofList before, String.ofList after, String.toList_injective ?_⟩
    simp [← h]
  · rintro ⟨before, after, rfl⟩
    exact ⟨before.toList, after.toList, by simp⟩

instance (part s : String) : Decidable (Occurs part s) :=
  decidable_of_iff _ (contains_iff s part)

end SwitchLexicon.Text
