import SwitchLexicon.Highlight.Classify

/-!
Which characters a segment of a category can have. Addresses and numbers consist of digits and of
the signs between their groups, so a segment with any other character is a quotation or is looked up
among the keywords.
-/
namespace SwitchLexicon

theorem mem_extendHead_of_mem {c d : Char} {ps : List (List Char)} {p : List Char} (hp : p ∈ ps)
    (hd : d ∈ p) : ∃ q ∈ Text.extendHead c ps, d ∈ q := by
  cases ps with
  | nil => cases hp
  | cons w ws =>
    rcases List.mem_cons.mp hp with rfl | hp
    · exact ⟨c :: p, by simp [Text.extendHead], List.mem_cons_of_mem _ hd⟩
    · exact ⟨p, List.mem_cons_of_mem _ hp, hd⟩

theorem mem_extendHead_self (c : Char) (ps : List (List Char)) :
    ∃ q ∈ Text.extendHead c ps, c ∈ q := by
  cases ps with
  | nil => exact ⟨[c], by simp [Text.extendHead], by simp⟩
  | cons w ws => exact ⟨c :: w, by simp [Text.extendHead], by simp⟩

theorem mem_piecesOf {separator c : Char} {cs : List Char} (hc : c ∈ cs) (hne : c ≠ separator) :
    ∃ p ∈ piecesOf separator cs, c ∈ p := by
  induction cs with
  | nil => cases hc
  | cons a cs ih =>
    rw [piecesOf]
    split
    next ha =>
      rcases List.mem_cons.mp hc with rfl | hc
      · exact absurd ha hne
      · obtain ⟨p, hp, hcp⟩ := ih hc
        exact ⟨p, List.mem_cons_of_mem _ hp, hcp⟩
    next ha =>
      rcases List.mem_cons.mp hc with rfl | hc
      · exact mem_extendHead_self c _
      · obtain ⟨p, hp, hcp⟩ := ih hc
        exact mem_extendHead_of_mem hp hcp

theorem isDigit_of_isNumeral {cs : List Char} (h : isNumeral cs = true) {c : Char} (hc : c ∈ cs) :
    Text.isDigit c = true := by
  rw [isNumeral, Bool.and_eq_true] at h
  exact List.all_eq_true.mp h.2 c hc

theorem isDigit_of_isNumeralUpTo {width : Nat} {cs : List Char}
    (h : isNumeralUpTo width cs = true) {c : Char} (hc : c ∈ cs) : Text.isDigit c = true := by
  rw [isNumeralUpTo, Bool.and_eq_true] at h
  exact isDigit_of_isNumeral h.1 hc

theorem isHexDigit_of_isHexGroup {width : Nat} {cs : List Char} (h : isHexGroup width cs = true)
    {c : Char} (hc : c ∈ cs) : Text.isHexDigit c = true := by
  rw [isHexGroup, Bool.and_eq_true] at h
  exact List.all_eq_true.mp h.2 c hc

def isLiteralChar (c : Char) : Bool :=
  Text.isDigit c || Text.isHexDigit c || ['.', '/', ':'].contains c

theorem isLiteralChar_of_isIpAddress {cs : List Char} (h : isIpAddress cs = true) {c : Char}
    (hc : c ∈ cs) : isLiteralChar c = true := by
  simp only [isIpAddress, Bool.and_eq_true, Bool.or_eq_true] at h
  obtain ⟨⟨-, hgroups⟩, hmask⟩ := h
  rw [← List.takeWhile_append_dropWhile (p := (· != '/')) (l := cs), List.mem_append] at hc
  rcases hc with hc | hc
  · by_cases hpoint : c = '.'
    · subst hpoint
      decide
    · obtain ⟨p, hp, hcp⟩ := mem_piecesOf hc hpoint
      simp [isLiteralChar, isDigit_of_isNumeralUpTo (List.all_eq_true.mp hgroups p hp) hcp]
  · cases hrest : cs.dropWhile (· != '/') with
    | nil => simp [hrest] at hc
    | cons a rest =>
      have ha : a = '/' := by
        have hhead := List.head?_dropWhile_not (· != '/') cs
        simpa [hrest] using hhead
      rw [hrest] at hc hmask
      rcases List.mem_cons.mp hc with rfl | hc
      · subst ha
        decide
      · have hdigits : isNumeralUpTo 2 rest = true := by simpa using hmask
        simp [isLiteralChar, isDigit_of_isNumeralUpTo hdigits hc]

theorem isLiteralChar_of_hexGroups {separator : Char} {width : Nat} {cs : List Char}
    (h : (piecesOf separator cs).all (isHexGroup width) = true)
    (hseparator : isLiteralChar separator = true) {c : Char} (hc : c ∈ cs) :
    isLiteralChar c = true := by
  by_cases hsep : c = separator
  · rw [hsep, hseparator]
  · obtain ⟨p, hp, hcp⟩ := mem_piecesOf hc hsep
    simp [isLiteralChar, isHexDigit_of_isHexGroup (List.all_eq_true.mp h p hp) hcp]

theorem isLiteralChar_of_isMacAddress {cs : List Char} (h : isMacAddress cs = true) {c : Char}
    (hc : c ∈ cs) : isLiteralChar c = true := by
  simp only [isMacAddress, Bool.and_eq_true, Bool.or_eq_true] at h
  rcases h with ⟨-, h⟩ | ⟨-, h⟩
  · exact isLiteralChar_of_hexGroups h (by decide) hc
  · exact isLiteralChar_of_hexGroups h (by decide) hc

theorem isLiteralChar_of_isNumeral {cs : List Char} (h : isNumeral cs = true) {c : Char}
    (hc : c ∈ cs) : isLiteralChar c = true := by
  simp [isLiteralChar, isDigit_of_isNumeral h hc]

theorem classify_of_not_literal {token : String} {c : Char} (hc : c ∈ token.toList)
    (hliteral : isLiteralChar c = false) (hblank : token.toList.all Text.isBlank = false)
    (hcomment : startsComment token.toList = false) :
    classify token =
      if isQuotation token.toList then .quotation else keywordCategory (Text.lower token) := by
  have hip : isIpAddress token.toList = false :=
    Bool.eq_false_iff.mpr fun h => by simp [isLiteralChar_of_isIpAddress h hc] at hliteral
  have hmac : isMacAddress token.toList = false :=
    Bool.eq_false_iff.mpr fun h => by simp [isLiteralChar_of_isMacAddress h hc] at hliteral
  have hnumber : isNumeral token.toList = false :=
    Bool.eq_false_iff.mpr fun h => by simp [isLiteralChar_of_isNumeral h hc] at hliteral
  rw [classify]
  simp only [hblank, hcomment, Bool.false_eq_true, if_false, literalForms]
  cases hquoted : isQuotation token.toList with
  | true => simp [List.find?, hip, hmac, hnumber, hquoted]
  | false => simp [List.find?, hip, hmac, hnumber, hquoted]

theorem keywordCategory_ne_quotation (word : String) : keywordCategory word ≠ .quotation := by
  rw [keywordCategory]
  split
  next k category hfound =>
    have hmem := List.mem_of_find?_eq_some hfound
    have hall : ∀ k ∈ Category.keywords, k.2 ≠ .quotation := by decide
    exact hall _ hmem
  next => decide

end SwitchLexicon
