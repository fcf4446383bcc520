import SwitchLexicon.Proofs.Text.Words
import SwitchLexicon.Text.Lowercase

/-!
Lowercasing reaches its end in one step, and it makes no blanks. The image of a run of the case
table meets no run of the table, no blank and not the dotted capital I; this is checked run against
run, by their ends and, where two runs overlap, by their parity.
-/
namespace SwitchLexicon.Text

def CaseRun.image (r : CaseRun) (n : Nat) : Nat := (n + r.shift).toNat

/-- The image of `r` lies below `s`, above `s`, or on the odd places of `s`. -/
def CaseRun.clearOf (r s : CaseRun) : Bool :=
  Nat.blt (r.image r.last) s.first || Nat.blt s.last (r.image r.first) ||
    ((Nat.beq r.first r.last || Nat.beq (r.step % 2) 0) && Nat.beq s.step 2 &&
      Nat.beq ((r.image r.first + s.first) % 2) 1)

def CaseRun.hasChars (r : CaseRun) : Bool :=
  Nat.blt 0 (r.image r.first) &&
    (Nat.blt (r.image r.last) 0xD800 ||
      (Nat.blt 0xDFFF (r.image r.first) && Nat.blt (r.image r.last) 0x110000))

def avoidedRuns : List CaseRun :=
  ⟨0x130, 0x130, 1, 0⟩ :: blankRanges.map (fun b => ⟨b.1, b.2, 1, 0⟩) ++ lowerRuns

theorem lowerRuns_clear :
    (lowerRuns.all fun r => r.hasChars && avoidedRuns.all r.clearOf) = true := by
  decide +kernel

theorem lowerRuns_sigma : lowerRuns.any (·.covers 0x3A3) = true := by
  rfl

theorem CaseRun.covers_iff (r : CaseRun) (n : Nat) :
    r.covers n = true ↔ r.first ≤ n ∧ n ≤ r.last ∧ (n - r.first) % r.step = 0 := by
  simp [CaseRun.covers, and_assoc]

theorem CaseRun.covers_interval (a b n : Nat) :
    CaseRun.covers ⟨a, b, 1, 0⟩ n = (decide (a ≤ n) && decide (n ≤ b)) := by
  simp [CaseRun.covers, Nat.mod_one]

theorem CaseRun.not_covers_image {r s : CaseRun} {n : Nat} (hr : r.hasChars = true)
    (hrs : r.clearOf s = true) (hn : r.covers n = true) : s.covers (r.image n) = false := by
  obtain ⟨hfirst, hlast, hstep⟩ := (r.covers_iff n).mp hn
  have hlow : r.image r.first ≤ r.image n := Int.toNat_le_toNat (by omega)
  have hhigh : r.image n ≤ r.image r.last := Int.toNat_le_toNat (by omega)
  apply Bool.eq_false_iff.mpr
  intro hcovers
  obtain ⟨hsf, hsl, hss⟩ := (s.covers_iff _).mp hcovers
  simp only [CaseRun.clearOf, Bool.or_eq_true, Bool.and_eq_true, Nat.blt_eq, Nat.beq_eq] at hrs
  rcases hrs with (h | h) | ⟨⟨heven, htwo⟩, hodd⟩
  · omega
  · omega
  · have hpos : 0 < r.image r.first := by
      simp only [CaseRun.hasChars, Bool.and_eq_true, Nat.blt_eq] at hr
      exact hr.1
    have hparity : (n - r.first) % 2 = 0 := by
      rcases heven with h | h
      · omega
      · exact Nat.mod_eq_zero_of_dvd
          (Nat.dvd_trans (Nat.dvd_of_mod_eq_zero h) (Nat.dvd_of_mod_eq_zero hstep))
    rw [htwo] at hss
    simp only [CaseRun.image] at hpos hodd hsf hss
    omega

theorem shiftCode_of_not_covers {runs : List CaseRun} {n : Nat}
    (h : ∀ r ∈ runs, r.covers n = false) : shiftCode runs n = n := by
  have hnone : runs.find? (·.covers n) = none := by
    simpa using h
  simp [shiftCode, hnone]

theorem shiftCode_cases (runs : List CaseRun) (n : Nat) :
    shiftCode runs n = n ∨ ∃ r ∈ runs, r.covers n = true ∧ shiftCode runs n = r.image n := by
  cases h : runs.find? (·.covers n) with
  | none => exact Or.inl (by simp [shiftCode, h])
  | some r =>
    have hr := List.find?_some h
    exact Or.inr ⟨r, List.mem_of_find?_eq_some h, hr, by simp [shiftCode, h, CaseRun.image]⟩

def Settled (c : Char) : Prop := lowerChar c = [c] ∧ c.toNat ≠ 0x3A3

theorem toNat_image {r : CaseRun} {n : Nat} (hr : r.hasChars = true) (hn : r.covers n = true) :
    (Char.ofNat (r.image n)).toNat = r.image n := by
  obtain ⟨hfirst, hlast, -⟩ := (r.covers_iff n).mp hn
  have hlow : r.image r.first ≤ r.image n := Int.toNat_le_toNat (by omega)
  have hhigh : r.image n ≤ r.image r.last := Int.toNat_le_toNat (by omega)
  simp only [CaseRun.hasChars, Bool.and_eq_true, Bool.or_eq_true, Nat.blt_eq] at hr
  have hvalid : (r.image n).isValidChar := by
    unfold Nat.isValidChar
    omega
  rw [Char.ofNat, dif_pos hvalid]
  rfl

theorem image_settled {r : CaseRun} {n : Nat} (hmem : r ∈ lowerRuns) (hn : r.covers n = true) :
    Settled (Char.ofNat (r.image n)) ∧ isBlank (Char.ofNat (r.image n)) = false := by
  have hall := List.all_eq_true.mp lowerRuns_clear r hmem
  rw [Bool.and_eq_true] at hall
  obtain ⟨hchars, hclear⟩ := hall
  have havoid : ∀ s ∈ avoidedRuns, s.covers (r.image n) = false := fun s hs =>
    CaseRun.not_covers_image hchars (List.all_eq_true.mp hclear s hs) hn
  have hcode := toNat_image hchars hn
  have hruns : ∀ s ∈ lowerRuns, s.covers (r.image n) = false := fun s hs =>
    havoid s (List.mem_append_right _ hs)
  have hdotted : r.image n ≠ 0x130 := by
    intro h
    have := havoid ⟨0x130, 0x130, 1, 0⟩ (by simp [avoidedRuns])
    simp [h, CaseRun.covers] at this
  have hsigma : r.image n ≠ 0x3A3 := by
    intro h
    obtain ⟨s, hs, hcov⟩ := List.any_eq_true.mp lowerRuns_sigma
    simp [← h, hruns s hs] at hcov
  refine ⟨⟨?_, by rw [hcode]; exact hsigma⟩, ?_⟩
  · rw [lowerChar, hcode, if_neg hdotted, shiftCode_of_not_covers hruns]
  · rw [isBlank, inRanges, List.any_eq_false]
    intro b hb
    have := havoid ⟨b.1, b.2, 1, 0⟩ (by simp [avoidedRuns]; grind)
    rw [CaseRun.covers_interval] at this
    rw [hcode, this]
    simp

theorem lowerChar_ne_nil (c : Char) : lowerChar c ≠ [] := by
  unfold lowerChar
  split <;> simp

theorem lowerChar_settled {c x : Char} (hx : x ∈ lowerChar c) (hc : c.toNat ≠ 0x3A3) :
    Settled x ∧ (isBlank c = false → isBlank x = false) := by
  by_cases hdot : c.toNat = 0x130
  · have hx' : x = 'i' ∨ x = Char.ofNat 0x307 := by simpa [lowerChar, hdot] using hx
    rcases hx' with rfl | rfl
    · exact ⟨⟨by rfl, by decide⟩, fun _ => by decide⟩
    · exact ⟨⟨by decide, by decide⟩, fun _ => by decide⟩
  · have hx' : x = Char.ofNat (shiftCode lowerRuns c.toNat) := by
      simpa [lowerChar, hdot] using hx
    rcases shiftCode_cases lowerRuns c.toNat with h | ⟨r, hr, hcov, h⟩
    · have hxc : x = c := by rw [hx', h, Char.ofNat_toNat]
      subst hxc
      exact ⟨⟨by rw [lowerChar, if_neg hdot, ← hx'], hc⟩, id⟩
    · have himage := image_settled hr hcov
      rw [← h, ← hx'] at himage
      exact ⟨himage.1, fun _ => himage.2⟩

theorem lowerSigma_settled (before after : List Char) :
    Settled (lowerSigma before after) ∧ isBlank (lowerSigma before after) = false := by
  unfold lowerSigma
  split
  · exact ⟨⟨by rfl, by decide⟩, by decide⟩
  · exact ⟨⟨by rfl, by decide⟩, by decide⟩

theorem lowerFrom_settled {x : Char} (before cs : List Char) (hx : x ∈ lowerFrom before cs) :
    Settled x ∧ ((∀ c ∈ cs, isBlank c = false) → isBlank x = false) := by
  induction cs generalizing before with
  | nil => simp [lowerFrom] at hx
  | cons c cs ih =>
    rw [lowerFrom, List.mem_append] at hx
    rcases hx with hx | hx
    · by_cases hc : c.toNat = 0x3A3
      · rw [if_pos hc, List.mem_singleton] at hx
        have hsigma := lowerSigma_settled before cs
        rw [← hx] at hsigma
        exact ⟨hsigma.1, fun _ => hsigma.2⟩
      · rw [if_neg hc] at hx
        have hchar := lowerChar_settled hx hc
        exact ⟨hchar.1, fun h => hchar.2 (h c (by simp))⟩
    · have htail := ih (c :: before) hx
      exact ⟨htail.1, fun h => htail.2 fun d hd => h d (List.mem_cons_of_mem _ hd)⟩

theorem lowerFrom_of_settled (before : List Char) {cs : List Char} (h : ∀ c ∈ cs, Settled c) :
    lowerFrom before cs = cs := by
  induction cs generalizing before with
  | nil => rfl
  | cons c cs ih =>
    obtain ⟨hlower, hsigma⟩ := h c (by simp)
    rw [lowerFrom, if_neg hsigma, hlower, ih _ fun d hd => h d (List.mem_cons_of_mem _ hd)]
    rfl

theorem lower_lower (s : String) : lower (lower s) = lower s := by
  simp only [lower, String.toList_ofList]
  rw [lowerFrom_of_settled [] fun c hc => (lowerFrom_settled _ _ hc).1]

theorem IsWord.lower {s : String} (hs : IsWord s) : IsWord (lower s) := by
  obtain ⟨hne, hsolid⟩ := hs
  simp only [IsWord, IsRun, Text.lower, String.toList_ofList]
  refine ⟨?_, fun x hx => (lowerFrom_settled _ _ hx).2 hsolid⟩
  obtain ⟨c, cs, hcs⟩ := List.exists_cons_of_ne_nil hne
  rw [hcs, lowerFrom]
  split
  · simp
  · simp [lowerChar_ne_nil]

end SwitchLexicon.Text
