import SwitchLexicon.Proofs.Highlight.Language

/-!
Letter case in the classification. The forms of literals are read in the token as it stands and the
keywords in its lowercase, yet a token and its lowercase pass the same checks: the digits, signs,
quotes and blanks of a literal are classes that lowercasing keeps, and a token that consists of such
characters alone is lowered character by character, so its groups keep their places and lengths.
-/
namespace SwitchLexicon

/-- A map of characters under which digits and signs of literals stay what they are. -/
structure KeepsLiterals (f : Char → Char) : Prop where
  digit : ∀ c, Text.isDigit (f c) = Text.isDigit c
  hexDigit : ∀ c, Text.isHexDigit (f c) = Text.isHexDigit c
  point : ∀ c, (f c == '.') = (c == '.')
  slash : ∀ c, (f c == '/') = (c == '/')
  colon : ∀ c, (f c == ':') = (c == ':')

theorem keepsLiterals_lowerHead : KeepsLiterals Text.lowerHead where
  digit c := Text.caseBlind_isDigit c _ (Text.lowersTo_lowerHead c)
  hexDigit c := Text.caseBlind_isHexDigit c _ (Text.lowersTo_lowerHead c)
  point c := Text.caseBlind_sign (by decide) c _ (Text.lowersTo_lowerHead c)
  slash c := Text.caseBlind_sign (by decide) c _ (Text.lowersTo_lowerHead c)
  colon c := Text.caseBlind_sign (by decide) c _ (Text.lowersTo_lowerHead c)

section Map

variable {f : Char → Char}

theorem piecesOf_map {separator : Char} (hf : ∀ c, (f c == separator) = (c == separator))
    (cs : List Char) :
    piecesOf separator (cs.map f) = (piecesOf separator cs).map (List.map f) := by
  induction cs with
  | nil => rfl
  | cons c cs ih =>
    have hc : f c = separator ↔ c = separator := by
      rw [← beq_iff_eq, hf c, beq_iff_eq]
    rw [List.map_cons, piecesOf, piecesOf, ih]
    by_cases hseparator : c = separator
    · rw [if_pos hseparator, if_pos (hc.mpr hseparator)]
      rfl
    · rw [if_neg hseparator, if_neg fun h => hseparator (hc.mp h)]
      cases piecesOf separator cs <;> rfl

namespace KeepsLiterals

variable (h : KeepsLiterals f)
include h

theorem isNumeral_map (cs : List Char) : isNumeral (cs.map f) = isNumeral cs := by
  have hdigit : Text.isDigit ∘ f = Text.isDigit := funext h.digit
  rw [isNumeral, isNumeral, List.isEmpty_map, List.all_map, hdigit]

theorem isNumeralUpTo_map (width : Nat) (cs : List Char) :
    isNumeralUpTo width (cs.map f) = isNumeralUpTo width cs := by
  rw [isNumeralUpTo, isNumeralUpTo, h.isNumeral_map, List.length_map]

theorem isHexGroup_map (width : Nat) (cs : List Char) :
    isHexGroup width (cs.map f) = isHexGroup width cs := by
  have hdigit : Text.isHexDigit ∘ f = Text.isHexDigit := funext h.hexDigit
  rw [isHexGroup, isHexGroup, List.length_map, List.all_map, hdigit]

theorem isIpAddress_map (cs : List Char) : isIpAddress (cs.map f) = isIpAddress cs := by
  have hslash : (fun c => c != '/') ∘ f = fun c => c != '/' := by
    funext c
    exact congrArg not (h.slash c)
  have hgroup : isNumeralUpTo 3 ∘ List.map f = isNumeralUpTo 3 := funext (h.isNumeralUpTo_map 3)
  simp only [isIpAddress, List.takeWhile_map, List.dropWhile_map, hslash, piecesOf_map h.point,
    List.length_map, List.all_map, hgroup, List.isEmpty_map, ← List.map_drop, h.isNumeralUpTo_map]

theorem isMacAddress_map (cs : List Char) : isMacAddress (cs.map f) = isMacAddress cs := by
  have hgroup : ∀ width, isHexGroup width ∘ List.map f = isHexGroup width := fun width =>
    funext (h.isHexGroup_map width)
  simp only [isMacAddress, piecesOf_map h.point, piecesOf_map h.colon, List.length_map,
    List.all_map, hgroup]

end KeepsLiterals

end Map

theorem lowerFrom_of_literal (before : List Char) {cs : List Char}
    (hcs : ∀ c ∈ cs, isLiteralChar c = true) :
    Text.lowerFrom before cs = cs.map Text.lowerHead := by
  have hother : ∀ c ∈ cs, ∀ n, isLiteralChar (Char.ofNat n) = false → c.toNat ≠ n := by
    intro c hc n hn hcode
    rw [← hcode, Char.ofNat_toNat, hcs c hc] at hn
    exact absurd hn (by decide)
  exact Text.lowerFrom_eq_map before fun c hc =>
    ⟨hother c hc 0x130 (by rfl), hother c hc 0x3A3 (by rfl)⟩

theorem isQuotation_cons_quote (cs : List Char) :
    isQuotation (Text.doubleQuote :: cs) = cs.getLast?.any fun c => c == Text.doubleQuote := by
  cases hcs : cs.getLast? with
  | none =>
    rw [List.getLast?_eq_none_iff.mp hcs]
    rfl
  | some c =>
    have hne : cs ≠ [] := by
      rintro rfl
      cases hcs
    have hlength : 1 ≤ cs.length := List.length_pos_iff.mpr hne
    simp [isQuotation, hlength, List.getLast?_cons_of_ne_nil hne, hcs]

theorem isQuotation_lowerFrom (before cs : List Char) :
    isQuotation (Text.lowerFrom before cs) = isQuotation cs := by
  have hhead := head?_quote_lowerFrom before cs
  by_cases hquote : cs.head? = some Text.doubleQuote
  · obtain ⟨rest, rfl⟩ := List.head?_eq_some_iff.mp hquote
    have hlower : Text.lowerFrom before (Text.doubleQuote :: rest) =
        Text.doubleQuote :: Text.lowerFrom (Text.doubleQuote :: before) rest := rfl
    rw [hlower, isQuotation_cons_quote, isQuotation_cons_quote,
      (Text.caseBlind_sign (by decide)).getLast?_lowerFrom]
  · have hnone : ∀ ds : List Char, ds.head? ≠ some Text.doubleQuote → isQuotation ds = false := by
      intro ds hds
      simp [isQuotation, hds]
    rw [hnone cs hquote, hnone _ fun hlower => hquote (hhead.mp hlower)]

namespace Category

theorem accepts_literal_lower {c : Category} (hc : c.family = .literal) (token : String) :
    c.accepts (Text.lower token) = c.accepts token := by
  have hlower : (Text.lower token).toList = Text.lowerFrom [] token.toList := String.toList_ofList
  by_cases hall : token.toList.all isLiteralChar = true
  · have hmap := lowerFrom_of_literal [] (List.all_eq_true.mp hall)
    have hkeeps := keepsLiterals_lowerHead
    cases c with
    | ipAddress => rw [accepts, accepts, hlower, hmap, hkeeps.isIpAddress_map]
    | macAddress => rw [accepts, accepts, hlower, hmap, hkeeps.isMacAddress_map]
    | number => rw [accepts, accepts, hlower, hmap, hkeeps.isNumeral_map]
    | _ => exact absurd hc (by decide)
  · -- a character that no literal has is still there, in lowercase
    have hreject : ∀ t : String, t.toList.all isLiteralChar ≠ true → c.accepts t = false := by
      intro t ht
      apply Bool.eq_false_iff.mpr
      intro haccepts
      have hspells := (accepts_iff_spells t c).mp haccepts
      exact ht (List.all_eq_true.mpr (isLiteralChar_of_spells hspells hc))
    have hall' : (Text.lower token).toList.all isLiteralChar ≠ true := by
      rwa [hlower, caseBlind_isLiteralChar.all_lowerFrom]
    rw [hreject token hall, hreject _ hall']

theorem accepts_lower (c : Category) (token : String) :
    c.accepts (Text.lower token) = c.accepts token := by
  have hlower : (Text.lower token).toList = Text.lowerFrom [] token.toList := String.toList_ofList
  cases c with
  | plain => rw [accepts, accepts, hlower, Text.caseBlind_isBlank.all_lowerFrom]
  | comment => rw [accepts, accepts, hlower, startsComment_lowerFrom]
  | ipAddress => exact accepts_literal_lower rfl token
  | macAddress => exact accepts_literal_lower rfl token
  | number => exact accepts_literal_lower rfl token
  | quotation => rw [accepts, accepts, hlower, isQuotation_lowerFrom]
  | _ => simp only [accepts, Text.lower_lower]

end Category

theorem classify_lower (token : String) : classify (Text.lower token) = classify token := by
  rw [classify_eq_classifyIn, classify_eq_classifyIn, classifyIn, classifyIn]
  simp only [Category.accepts_lower]

theorem classify_ignores_case (token : String) :
    classify (Text.lower token) = classify token ∧
      ∀ other, Text.lower other = Text.lower token → classify other = classify token := by
  refine ⟨classify_lower token, fun other hother => ?_⟩
  calc classify other = classify (Text.lower other) := (classify_lower other).symm
    _ = classify (Text.lower token) := by rw [hother]
    _ = classify token := classify_lower token

/-- The kelvin sign is another character than the letter K, and its lowercase is the letter k. -/
theorem classify_ignores_case_kelvin :
    Text.lower "LINKAGG" = Text.lower "lin\u212aagg" ∧
      classify "LINKAGG" = classify "lin\u212aagg" ∧ classify "lin\u212aagg" = .command := by
  have hlower : Text.lower "LINKAGG" = Text.lower "lin\u212aagg" := by decide +kernel
  exact ⟨hlower, (classify_ignores_case "lin\u212aagg").2 "LINKAGG" hlower, by rfl⟩

end SwitchLexicon
