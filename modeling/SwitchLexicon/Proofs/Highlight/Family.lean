import SwitchLexicon.Proofs.Highlight.Classify
import SwitchLexicon.Proofs.Text.CaseBlind

/-!
Families of tokens. Blanks, a comment sign or a quote in front, and the digits of numbers and
addresses with the signs between them tell most categories apart. Lowercasing keeps a token in its
family, and no keyword belongs to one of these, so neither does a token whose lowercase is a
keyword.
-/
namespace SwitchLexicon

/-- Digits of every script, and the signs between the groups of an address. -/
def isLiteralSign (c : Char) : Bool :=
  Text.isDigit c || ['.', '/', ':'].contains c

def signRanges : List (Nat × Nat) :=
  (0x2E, 0x2F) :: (0x3A, 0x3A) :: Text.digitRanges

/-- Comment signs and quotes, which stand between the code points 0x21 and 0x23. -/
def frontRanges : List (Nat × Nat) := [(0x21, 0x23)]

theorem signRanges_apart : Text.apart signRanges (frontRanges ++ Text.blankRanges) = true := by
  rfl

theorem inRanges_of_isLiteralSign {c : Char} (hc : isLiteralSign c = true) :
    Text.inRanges signRanges c = true := by
  rw [isLiteralSign, Bool.or_eq_true, List.contains_eq_mem, decide_eq_true_eq] at hc
  rcases hc with hc | hc
  · rw [Text.isDigit, Text.inRanges] at hc
    simp only [Text.inRanges, signRanges, List.any_cons, hc, Bool.or_true]
  · have hsigns : (['.', '/', ':'].all fun s => Text.inRanges signRanges s) = true := rfl
    exact List.all_eq_true.mp hsigns c hc

def hexLetterCodes : List Nat :=
  [0x41, 0x42, 0x43, 0x44, 0x45, 0x46, 0x61, 0x62, 0x63, 0x64, 0x65, 0x66]

theorem isLiteralChar_cases {c : Char} (hc : isLiteralChar c = true) :
    isLiteralSign c = true ∨ c.toNat ∈ hexLetterCodes := by
  rw [isLiteralChar, Bool.or_eq_true, Bool.or_eq_true] at hc
  rcases hc with (hdigit | hhex) | hsign
  · exact Or.inl (by rw [isLiteralSign, hdigit, Bool.true_or])
  · rcases (Text.isHexDigit_iff c).mp hhex with hrange | hrange
    · have hdigit : Text.isDigit c = true :=
        List.any_eq_true.mpr ⟨(0x30, 0x39), by simp [Text.digitRanges], by simpa using hrange⟩
      exact Or.inl (by rw [isLiteralSign, hdigit, Bool.true_or])
    · refine Or.inr ?_
      simp only [hexLetterCodes, List.mem_cons, List.not_mem_nil, or_false]
      omega
  · exact Or.inl (by rw [isLiteralSign, hsign, Bool.or_true])

structure Plain (c : Char) : Prop where
  solid : Text.isBlank c = false
  inner : Text.inRanges frontRanges c = false

theorem plain_of_isLiteralSign {c : Char} (hc : isLiteralSign c = true) : Plain c := by
  have hapart := Text.inRanges_of_apart signRanges_apart (inRanges_of_isLiteralSign hc)
  simp only [Text.inRanges, List.any_append, Bool.or_eq_false_iff] at hapart
  exact ⟨hapart.2, hapart.1⟩

theorem hexLetterCodes_plain : (hexLetterCodes.all fun n =>
    !Text.isBlank (Char.ofNat n) && !Text.inRanges frontRanges (Char.ofNat n)) = true := by
  rfl

theorem plain_of_isLiteralChar {c : Char} (hc : isLiteralChar c = true) : Plain c := by
  rcases isLiteralChar_cases hc with hsign | hletter
  · exact plain_of_isLiteralSign hsign
  · have hcode := List.all_eq_true.mp hexLetterCodes_plain _ hletter
    rw [Char.ofNat_toNat] at hcode
    simp only [Bool.and_eq_true, Bool.not_eq_true'] at hcode
    exact ⟨hcode.1, hcode.2⟩

section CaseBlind

open Text

theorem caseBlind_addressSign : CaseBlind fun c => ['.', '/', ':'].contains c := by
  have hsigns : (fun c => ['.', '/', ':'].contains c) =
      fun c => c == '.' || (c == '/' || (c == ':' || false)) := rfl
  rw [hsigns]
  exact (caseBlind_sign (by decide)).or ((caseBlind_sign (by decide)).or
    ((caseBlind_sign (by decide)).or fun _ _ _ => rfl))

theorem caseBlind_isLiteralSign : CaseBlind isLiteralSign :=
  caseBlind_isDigit.or caseBlind_addressSign

theorem caseBlind_isLiteralChar : CaseBlind isLiteralChar :=
  (caseBlind_isDigit.or caseBlind_isHexDigit).or caseBlind_addressSign

theorem startsComment_lowerFrom (before cs : List Char) :
    startsComment (lowerFrom before cs) = startsComment cs := by
  have hhead : ∀ ds, startsComment ds = ds.head?.any fun c => c == '!' || c == '#' := by
    intro ds
    cases ds <;> rfl
  have hblind : CaseBlind fun c => c == '!' || c == '#' :=
    (caseBlind_sign (by decide)).or (caseBlind_sign (by decide))
  rw [hhead, hhead, hblind.head?_lowerFrom]

theorem head?_quote_lowerFrom (before cs : List Char) :
    (lowerFrom before cs).head? = some doubleQuote ↔ cs.head? = some doubleQuote := by
  have hhead : ∀ ds : List Char,
      ds.head? = some doubleQuote ↔ (ds.head?.any fun c => c == doubleQuote) = true := by
    intro ds
    cases ds <;> simp
  rw [hhead, hhead, (caseBlind_sign (by decide)).head?_lowerFrom]

end CaseBlind

inductive Family where
  | blank
  | comment
  | quotation
  | literal
  | word
deriving DecidableEq

def familyOf (cs : List Char) : Family :=
  if cs.all Text.isBlank then .blank
  else if startsComment cs then .comment
  else if cs.head? = some Text.doubleQuote then .quotation
  else if cs.all isLiteralChar && cs.any isLiteralSign then .literal
  else .word

theorem familyOf_of_blank {cs : List Char} (h : ∀ c ∈ cs, Text.isBlank c = true) :
    familyOf cs = .blank := by
  rw [familyOf, if_pos (List.all_eq_true.mpr h)]

theorem familyOf_of_startsComment {cs : List Char} (h : startsComment cs = true) :
    familyOf cs = .comment := by
  cases cs with
  | nil => exact absurd h (by decide)
  | cons c cs =>
    have hc : c = '!' ∨ c = '#' := by simpa [startsComment] using h
    have hblank : Text.isBlank c = false := by
      rcases hc with rfl | rfl
      · decide
      · decide
    simp [familyOf, hblank, h]

theorem familyOf_cons_quote (cs : List Char) :
    familyOf (Text.doubleQuote :: cs) = .quotation := by
  have hblank : Text.isBlank Text.doubleQuote = false := by decide
  have hcomment : startsComment (Text.doubleQuote :: cs) = false := by
    rw [startsComment]
    decide
  simp [familyOf, hblank, hcomment]

theorem familyOf_of_literal {cs : List Char} (hall : ∀ c ∈ cs, isLiteralChar c = true)
    (hsign : ∃ c ∈ cs, isLiteralSign c = true) : familyOf cs = .literal := by
  have hplain : ∀ c ∈ cs, Plain c := fun c hc => plain_of_isLiteralChar (hall c hc)
  cases cs with
  | nil =>
    obtain ⟨c, hc, -⟩ := hsign
    cases hc
  | cons d ds =>
    have hd := hplain d (by simp)
    have hfront : ∀ s ∈ ['!', '#', Text.doubleQuote], d ≠ s := by
      intro s hs heq
      have hranges : (['!', '#', Text.doubleQuote].all (Text.inRanges frontRanges)) = true := by
        decide
      have := List.all_eq_true.mp hranges s hs
      rw [← heq, hd.inner] at this
      exact absurd this (by decide)
    have hblank : (d :: ds).all Text.isBlank = false := by
      simp [hd.solid]
    have hcomment : startsComment (d :: ds) = false := by
      simp [startsComment, hfront '!' (by simp), hfront '#' (by simp)]
    have hquote : (d :: ds).head? ≠ some Text.doubleQuote := by
      simpa using hfront Text.doubleQuote (by simp)
    have hliteral : ((d :: ds).all isLiteralChar && (d :: ds).any isLiteralSign) = true := by
      rw [Bool.and_eq_true]
      exact ⟨List.all_eq_true.mpr hall, List.any_eq_true.mpr hsign⟩
    rw [familyOf, hblank, hcomment, if_neg (by decide), if_neg (by decide), if_neg hquote,
      if_pos hliteral]

theorem familyOf_lowerFrom (before cs : List Char) :
    familyOf (Text.lowerFrom before cs) = familyOf cs := by
  simp only [familyOf, Text.caseBlind_isBlank.all_lowerFrom, startsComment_lowerFrom,
    head?_quote_lowerFrom, caseBlind_isLiteralChar.all_lowerFrom,
    caseBlind_isLiteralSign.any_lowerFrom]

theorem keywords_are_words : (Category.keywords.all fun k =>
    k.1.all fun w => decide (familyOf w.toList = .word)) = true := by
  decide +kernel

theorem familyOf_of_keyword {token : String} {k : List String × Category}
    (hk : k ∈ Category.keywords) (hword : Text.lower token ∈ k.1) :
    familyOf token.toList = .word := by
  have hlower := List.all_eq_true.mp (List.all_eq_true.mp keywords_are_words k hk) _ hword
  rwa [decide_eq_true_eq, Text.lower, String.toList_ofList, familyOf_lowerFrom] at hlower

end SwitchLexicon
