import SwitchLexicon.Proofs.Text.Strip
import SwitchLexicon.Text.Digit

/-!
Classes of characters that lowercasing neither enters nor leaves. A character is lowered to one or
two characters, and which ones depends on its neighbours for the capital sigma only. So whatever a
text says about its characters by such a class, its lowercase says too: whether all of them, the
first or the last belong to it.
-/
namespace SwitchLexicon.Text

/-- `x` stands in the lowercase of `c` in some text. -/
def LowersTo (c x : Char) : Prop :=
  x ∈ lowerChar c ∨ c.toNat = 0x3A3 ∧ x = Char.ofNat 0x3C2

def CaseBlind (p : Char → Bool) : Prop :=
  ∀ c x, LowersTo c x → p x = p c

theorem lowersTo_lowerSigma {c : Char} (hc : c.toNat = 0x3A3) (before after : List Char) :
    LowersTo c (lowerSigma before after) := by
  have hsigma : c = Char.ofNat 0x3A3 := by rw [← hc, Char.ofNat_toNat]
  unfold lowerSigma
  split
  · exact Or.inr ⟨hc, rfl⟩
  · subst hsigma
    exact Or.inl (by decide)

theorem lowerFrom_cons (before : List Char) (c : Char) (cs : List Char) :
    ∃ x xs, lowerFrom before (c :: cs) = x :: xs ++ lowerFrom (c :: before) cs ∧
      ∀ y ∈ x :: xs, LowersTo c y := by
  rw [lowerFrom]
  split
  next hsigma =>
    exact ⟨_, [], rfl, by simpa using lowersTo_lowerSigma hsigma before cs⟩
  next =>
    obtain ⟨x, xs, hxs⟩ := List.exists_cons_of_ne_nil (lowerChar_ne_nil c)
    exact ⟨x, xs, by rw [hxs], fun y hy => Or.inl (hxs ▸ hy)⟩

def lowerHead (c : Char) : Char := (lowerChar c).headD c

theorem lowersTo_lowerHead (c : Char) : LowersTo c (lowerHead c) := by
  obtain ⟨x, xs, hxs⟩ := List.exists_cons_of_ne_nil (lowerChar_ne_nil c)
  exact Or.inl (by simp [lowerHead, hxs])

theorem lowerChar_eq_lowerHead {c : Char} (hc : c.toNat ≠ 0x130) :
    lowerChar c = [lowerHead c] := by
  rw [lowerHead, lowerChar, if_neg hc]
  rfl

theorem lowerFrom_eq_map (before : List Char) {cs : List Char}
    (h : ∀ c ∈ cs, c.toNat ≠ 0x130 ∧ c.toNat ≠ 0x3A3) :
    lowerFrom before cs = cs.map lowerHead := by
  induction cs generalizing before with
  | nil => rfl
  | cons c cs ih =>
    obtain ⟨hdotted, hsigma⟩ := h c (by simp)
    rw [lowerFrom, if_neg hsigma, lowerChar_eq_lowerHead hdotted,
      ih _ fun d hd => h d (List.mem_cons_of_mem _ hd), List.map_cons, List.singleton_append]

namespace CaseBlind

variable {p q : Char → Bool}

theorem or (hp : CaseBlind p) (hq : CaseBlind q) : CaseBlind fun c => p c || q c := by
  intro c x h
  simp only [hp c x h, hq c x h]

theorem not (hp : CaseBlind p) : CaseBlind fun c => !p c := by
  intro c x h
  simp only [hp c x h]

theorem all_lowerFrom (hp : CaseBlind p) (before cs : List Char) :
    (lowerFrom before cs).all p = cs.all p := by
  induction cs generalizing before with
  | nil => rfl
  | cons c cs ih =>
    obtain ⟨x, xs, hlower, hxs⟩ := lowerFrom_cons before c cs
    have hall : (x :: xs).all p = p c := by
      rw [Bool.eq_iff_iff, List.all_eq_true]
      constructor
      · intro h
        rw [← hp c x (hxs x (by simp)), h x (by simp)]
      · intro h y hy
        rw [hp c y (hxs y hy), h]
    rw [hlower, List.all_append, ih, hall, List.all_cons]

theorem any_lowerFrom (hp : CaseBlind p) (before cs : List Char) :
    (lowerFrom before cs).any p = cs.any p := by
  rw [← Bool.not_inj_iff, List.not_any_eq_all_not, List.not_any_eq_all_not,
    hp.not.all_lowerFrom]

theorem head?_lowerFrom (hp : CaseBlind p) (before cs : List Char) :
    (lowerFrom before cs).head?.any p = cs.head?.any p := by
  cases cs with
  | nil => rfl
  | cons c cs =>
    obtain ⟨x, xs, hlower, hxs⟩ := lowerFrom_cons before c cs
    rw [hlower]
    exact hp c x (hxs x (by simp))

theorem getLast?_lowerFrom (hp : CaseBlind p) (before cs : List Char) :
    (lowerFrom before cs).getLast?.any p = cs.getLast?.any p := by
  rcases List.eq_nil_or_concat' cs with rfl | ⟨ds, c, rfl⟩
  · rfl
  · obtain ⟨x, xs, hlower, hxs⟩ := lowerFrom_cons (ds.reverse ++ before) c []
    have hlast : (x :: xs).getLast? = some ((x :: xs).getLast (by simp)) :=
      List.getLast?_eq_some_getLast (by simp)
    rw [lowerFrom_append, hlower, lowerFrom, List.append_nil, List.getLast?_append, hlast,
      Option.some_or, List.getLast?_concat]
    exact hp c _ (hxs _ (List.getLast_mem _))

end CaseBlind

def apart (as bs : List (Nat × Nat)) : Bool :=
  as.all fun a => bs.all fun b => Nat.blt b.2 a.1 || Nat.blt a.2 b.1

theorem inRanges_of_apart {as bs : List (Nat × Nat)} (h : apart as bs = true) {c : Char}
    (hc : inRanges as c = true) : inRanges bs c = false := by
  obtain ⟨a, ha, hca⟩ := List.any_eq_true.mp hc
  apply List.any_eq_false.mpr
  intro b hb hcb
  have hab := List.all_eq_true.mp (List.all_eq_true.mp h a ha) b hb
  simp only [Bool.and_eq_true, Bool.or_eq_true, decide_eq_true_eq, Nat.blt_eq] at hca hcb hab
  omega

def lowerRanges : List (Nat × Nat) :=
  (0x130, 0x130) :: lowerRuns.map fun r => (r.first, r.last)

theorem lowerRanges_sigma : inRanges lowerRanges (Char.ofNat 0x3A3) = true := by
  rfl

theorem settled_of_not_inRanges {c : Char} (h : inRanges lowerRanges c = false) : Settled c := by
  have hrange : ∀ r ∈ lowerRanges, ¬(r.1 ≤ c.toNat ∧ c.toNat ≤ r.2) := by
    intro r hr hcr
    exact List.any_eq_false.mp h r hr (by simpa using hcr)
  have hdotted : c.toNat ≠ 0x130 := by
    intro hc
    exact hrange (0x130, 0x130) (by simp [lowerRanges]) (by omega)
  have hruns : ∀ r ∈ lowerRuns, r.covers c.toNat = false := by
    intro r hr
    apply Bool.eq_false_iff.mpr
    intro hcovers
    obtain ⟨hfirst, hlast, -⟩ := (r.covers_iff c.toNat).mp hcovers
    exact hrange (r.first, r.last)
      (List.mem_cons_of_mem _ (List.mem_map.mpr ⟨r, hr, rfl⟩)) ⟨hfirst, hlast⟩
  constructor
  · rw [lowerChar, if_neg hdotted, shiftCode_of_not_covers hruns, Char.ofNat_toNat]
  · intro hsigma
    rw [← Char.ofNat_toNat c, hsigma, lowerRanges_sigma] at h
    exact absurd h (by decide)

theorem LowersTo.inversion {c x : Char} (h : LowersTo c x) :
    x = c ∨ (∃ r ∈ lowerRuns, r.covers c.toNat = true ∧ x.toNat = r.image c.toNat) ∨
      c.toNat = 0x130 ∧ (x = 'i' ∨ x = Char.ofNat 0x307) ∨
      c.toNat = 0x3A3 ∧ x = Char.ofNat 0x3C2 := by
  rcases h with h | h
  · by_cases hdotted : c.toNat = 0x130
    · exact Or.inr (Or.inr (Or.inl ⟨hdotted, by simpa [lowerChar, hdotted] using h⟩))
    · rw [lowerChar, if_neg hdotted, List.mem_singleton] at h
      rcases shiftCode_cases lowerRuns c.toNat with hsame | ⟨r, hr, hcovers, himage⟩
      · exact Or.inl (by rw [h, hsame, Char.ofNat_toNat])
      · have hchars := List.all_eq_true.mp lowerRuns_clear r hr
        rw [Bool.and_eq_true] at hchars
        exact Or.inr (Or.inl ⟨r, hr, hcovers, by rw [h, himage, toNat_image hchars.1 hcovers]⟩)
  · exact Or.inr (Or.inr (Or.inr h))

/-- A character that is its own lowercase and stands in no other. -/
structure Caseless (c : Char) : Prop where
  settled : Settled c
  eq_of_lowersTo : ∀ d, LowersTo d c → d = c

theorem caseBlind_of_caseless {p : Char → Bool} (h : ∀ c, p c = true → Caseless c) :
    CaseBlind p := by
  intro c x hcx
  rw [Bool.eq_iff_iff]
  constructor
  · intro hx
    rw [(h x hx).eq_of_lowersTo c hcx, hx]
  · intro hc
    obtain ⟨hlower, hsigma⟩ := (h c hc).settled
    rcases hcx with hmem | ⟨hcode, -⟩
    · rw [hlower, List.mem_singleton] at hmem
      rw [hmem, hc]
    · exact absurd hcode hsigma

/-- Comment signs and the quote, the signs between the groups of an address, digits and blanks. -/
def caselessRanges : List (Nat × Nat) :=
  (0x21, 0x23) :: (0x2E, 0x2F) :: (0x3A, 0x3A) :: digitRanges ++ blankRanges

theorem caselessRanges_apart : apart caselessRanges lowerRanges = true := by
  decide +kernel

theorem lowerRuns_clear_caseless :
    (lowerRuns.all fun r => caselessRanges.all fun b => r.clearOf ⟨b.1, b.2, 1, 0⟩) = true := by
  decide +kernel

theorem lowerRest_not_caseless : ([0x69, 0x307, 0x3C2].all fun n =>
    !inRanges caselessRanges (Char.ofNat n)) = true := by
  rfl

theorem caseless_of_inRanges {c : Char} (hc : inRanges caselessRanges c = true) : Caseless c := by
  have hrest : ∀ n ∈ [0x69, 0x307, 0x3C2], c ≠ Char.ofNat n := by
    intro n hn heq
    have hout := List.all_eq_true.mp lowerRest_not_caseless n hn
    rw [← heq, hc] at hout
    exact absurd hout (by decide)
  refine ⟨settled_of_not_inRanges (inRanges_of_apart caselessRanges_apart hc), fun d hd => ?_⟩
  rcases hd.inversion with hsame | ⟨r, hr, hcovers, himage⟩ | ⟨-, hdotted⟩ | ⟨-, hsigma⟩
  · exact hsame.symm
  · obtain ⟨b, hb, hcb⟩ := List.any_eq_true.mp hc
    have hchars := List.all_eq_true.mp lowerRuns_clear r hr
    rw [Bool.and_eq_true] at hchars
    have hclear := List.all_eq_true.mp (List.all_eq_true.mp lowerRuns_clear_caseless r hr) b hb
    have hout := CaseRun.not_covers_image hchars.1 hclear hcovers
    rw [← himage, CaseRun.covers_interval, hcb] at hout
    exact absurd hout (by decide)
  · rcases hdotted with h | h
    · exact absurd h (hrest 0x69 (by simp))
    · exact absurd h (hrest 0x307 (by simp))
  · exact absurd hsigma (hrest 0x3C2 (by simp))

theorem caseBlind_isDigit : CaseBlind isDigit := by
  refine caseBlind_of_caseless fun c hc => caseless_of_inRanges ?_
  rw [isDigit, inRanges] at hc
  simp only [inRanges, caselessRanges, List.cons_append, List.any_cons, List.any_append, hc,
    Bool.true_or, Bool.or_true]

theorem caseBlind_isBlank : CaseBlind isBlank := by
  refine caseBlind_of_caseless fun c hc => caseless_of_inRanges ?_
  rw [isBlank, inRanges] at hc
  simp only [inRanges, caselessRanges, List.cons_append, List.any_cons, List.any_append, hc,
    Bool.or_true]

theorem caseBlind_sign {s : Char} (hs : inRanges caselessRanges s = true) :
    CaseBlind fun c => c == s :=
  caseBlind_of_caseless fun _ hc => eq_of_beq hc ▸ caseless_of_inRanges hs

theorem isHexDigit_iff (c : Char) :
    isHexDigit c = true ↔ 0x30 ≤ c.toNat ∧ c.toNat ≤ 0x39 ∨ 0x41 ≤ c.toNat ∧ c.toNat ≤ 0x46 ∨
      0x61 ≤ c.toNat ∧ c.toNat ≤ 0x66 := by
  simp only [isHexDigit, hexValue?]
  split
  next h => simp [h]
  next h =>
    split
    next h' => simp [h']
    next h' =>
      split
      next h'' => simp [h'']
      next h'' => simp [h, h', h'']

theorem lowerRuns_above_hex : (lowerRuns.tail.all fun r =>
    Nat.blt 0x66 r.first && Nat.blt 0x66 (r.image r.first)) = true := by
  decide

/-- Letters A to Z are lowered among themselves, and no other letter is lowered to one of a to f. -/
theorem caseBlind_isHexDigit : CaseBlind isHexDigit := by
  intro c x h
  rw [Bool.eq_iff_iff, isHexDigit_iff, isHexDigit_iff]
  rcases h.inversion with rfl | ⟨r, hr, hcovers, himage⟩ | ⟨hc, rfl | rfl⟩ | ⟨hc, rfl⟩
  · rfl
  · obtain ⟨hfirst, hlast, -⟩ := (r.covers_iff _).mp hcovers
    have hlow : r.image r.first ≤ r.image c.toNat := Int.toNat_le_toNat (by omega)
    have hruns : lowerRuns = ⟨0x41, 0x5A, 1, 32⟩ :: lowerRuns.tail := rfl
    rw [hruns] at hr
    rcases List.mem_cons.mp hr with rfl | hr
    · simp only [CaseRun.image] at hfirst hlast himage
      omega
    · have habove := List.all_eq_true.mp lowerRuns_above_hex r hr
      simp only [Bool.and_eq_true, Nat.blt_eq] at habove
      omega
  · exact iff_of_false (by decide) (by omega)
  · exact iff_of_false (by decide) (by omega)
  · exact iff_of_false (by decide) (by omega)

end SwitchLexicon.Text
