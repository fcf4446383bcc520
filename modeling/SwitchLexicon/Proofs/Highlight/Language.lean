import Mathlib.Data.List.Basic
import SwitchLexicon.Proofs.Highlight.Family

/-!
The languages of the categories. Each check of the classification decides a language of its own, and
no token is in two of them: tokens of different families differ in their characters, addresses and
numbers in the count of the signs between their groups, and keywords in the lists they stand in. So
the order in which the checks are made does not matter.
-/
namespace SwitchLexicon

theorem piecesOf_eq_splitOn (separator : Char) (cs : List Char) :
    piecesOf separator cs = cs.splitOn separator := by
  induction cs with
  | nil => rfl
  | cons c cs ih =>
    have hcons : (c :: cs).splitOn separator =
        if c == separator then [] :: cs.splitOn separator
        else (cs.splitOn separator).modifyHead (List.cons c) :=
      List.splitOnP_cons_eq_if_modifyHead c cs
    have hne : cs.splitOn separator ≠ [] := List.splitOnP_ne_nil _ _
    rw [piecesOf, ih, hcons]
    cases hpieces : cs.splitOn separator with
    | nil => exact absurd hpieces hne
    | cons p ps => simp [Text.extendHead]

def IsGroup (member : Char → Bool) (least most : Nat) (g : List Char) : Prop :=
  least ≤ g.length ∧ g.length ≤ most ∧ ∀ c ∈ g, member c = true

def IsJoined (separator : Char) (count : Nat) (group : List Char → Prop) (cs : List Char) : Prop :=
  ∃ gs : List (List Char), gs.length = count ∧ (∀ g ∈ gs, group g) ∧
    cs = [separator].intercalate gs

def IsDottedAddress (cs : List Char) : Prop :=
  ∃ address mask, IsJoined '.' 4 (IsGroup Text.isDigit 1 3) address ∧
    (mask = [] ∨ ∃ width, IsGroup Text.isDigit 1 2 width ∧ mask = '/' :: width) ∧
    cs = address ++ mask

theorem isNumeral_iff (cs : List Char) :
    isNumeral cs = true ↔ cs ≠ [] ∧ ∀ c ∈ cs, Text.isDigit c = true := by
  simp [isNumeral]

theorem isNumeralUpTo_iff (width : Nat) (cs : List Char) :
    isNumeralUpTo width cs = true ↔ IsGroup Text.isDigit 1 width cs := by
  rw [isNumeralUpTo, Bool.and_eq_true, isNumeral_iff, decide_eq_true_eq, IsGroup]
  constructor
  · intro h
    exact ⟨List.length_pos_iff.mpr h.1.1, h.2, h.1.2⟩
  · intro h
    exact ⟨⟨List.length_pos_iff.mp h.1, h.2.2⟩, h.2.1⟩

theorem isHexGroup_iff (width : Nat) (cs : List Char) :
    isHexGroup width cs = true ↔ IsGroup Text.isHexDigit width width cs := by
  rw [isHexGroup, Bool.and_eq_true, beq_iff_eq, List.all_eq_true, IsGroup]
  constructor
  · intro h
    exact ⟨h.1.ge, h.1.le, h.2⟩
  · intro h
    exact ⟨Nat.le_antisymm h.2.1 h.1, h.2.2⟩

section Joined

variable {separator : Char} {member : Char → Bool} {least most number : Nat} {cs : List Char}

theorem not_mem_groups {gs : List (List Char)} (hgroups : ∀ g ∈ gs, IsGroup member least most g)
    {c : Char} (hc : member c = false) : ∀ g ∈ gs, c ∉ g := by
  intro g hg hmem
  rw [(hgroups g hg).2.2 c hmem] at hc
  exact absurd hc (by decide)

theorem piecesOf_iff_isJoined (hseparator : member separator = false) (hnumber : 0 < number)
    {test : List Char → Bool} (htest : ∀ g, test g = true ↔ IsGroup member least most g) :
    (piecesOf separator cs).length = number ∧ (piecesOf separator cs).all test = true ↔
      IsJoined separator number (IsGroup member least most) cs := by
  rw [piecesOf_eq_splitOn, List.all_eq_true]
  constructor
  · intro h
    refine ⟨cs.splitOn separator, h.1, fun g hg => (htest g).mp (h.2 g hg), ?_⟩
    rw [List.intercalate_splitOn]
  · rintro ⟨gs, hlength, hgroups, rfl⟩
    have hfree := not_mem_groups hgroups hseparator
    have hne : gs ≠ [] := by
      intro hnil
      rw [hnil, List.length_nil] at hlength
      omega
    rw [List.splitOn_intercalate separator hfree hne]
    exact ⟨hlength, fun g hg => (htest g).mpr (hgroups g hg)⟩

theorem count_intercalate {c : Char} {gs : List (List Char)} (h : ∀ g ∈ gs, c ∉ g) :
    ([separator].intercalate gs).count c = if c = separator then gs.length - 1 else 0 := by
  induction gs with
  | nil => simp [List.intercalate]
  | cons g gs ih =>
    have hg : g.count c = 0 := List.count_eq_zero.mpr (h g (by simp))
    cases gs with
    | nil => simp [hg]
    | cons g' gs =>
      have htail := ih fun x hx => h x (List.mem_cons_of_mem _ hx)
      rw [List.intercalate_cons_cons, List.count_append, List.count_append, hg, htail]
      by_cases hc : c = separator
      · simp only [hc, List.count_singleton_self, if_true, List.length_cons]
        omega
      · simp [hc, Ne.symm hc]

theorem IsJoined.count (h : IsJoined separator number (IsGroup member least most) cs) {c : Char}
    (hc : member c = false) : cs.count c = if c = separator then number - 1 else 0 := by
  obtain ⟨gs, hlength, hgroups, rfl⟩ := h
  rw [count_intercalate (not_mem_groups hgroups hc), hlength]

theorem IsJoined.not_mem (h : IsJoined separator number (IsGroup member least most) cs) {c : Char}
    (hc : member c = false) (hne : c ≠ separator) : c ∉ cs := by
  rw [← List.count_eq_zero, h.count hc, if_neg hne]

end Joined

theorem not_isDigit_point : Text.isDigit '.' = false := rfl

theorem not_isDigit_colon : Text.isDigit ':' = false := rfl

theorem not_isDigit_slash : Text.isDigit '/' = false := rfl

theorem isDottedAddress_iff (cs : List Char) : isIpAddress cs = true ↔ IsDottedAddress cs := by
  have hpieces : ∀ address : List Char, (piecesOf '.' address).length = 4 ∧
      (piecesOf '.' address).all (isNumeralUpTo 3) = true ↔
        IsJoined '.' 4 (IsGroup Text.isDigit 1 3) address := fun address =>
    piecesOf_iff_isJoined not_isDigit_point (by decide) (isNumeralUpTo_iff 3)
  simp only [isIpAddress, Bool.and_eq_true, beq_iff_eq, Bool.or_eq_true, hpieces]
  constructor
  · rintro ⟨haddress, hmask⟩
    refine ⟨_, _, haddress, ?_, List.takeWhile_append_dropWhile.symm⟩
    cases hrest : cs.dropWhile (· != '/') with
    | nil => exact Or.inl rfl
    | cons c width =>
      have hslash : c = '/' := by
        have hhead := List.head?_dropWhile_not (· != '/') cs
        simpa [hrest] using hhead
      rw [hrest] at hmask
      have hdigits : isNumeralUpTo 2 width = true := by simpa using hmask
      exact Or.inr ⟨width, (isNumeralUpTo_iff 2 width).mp hdigits, by rw [hslash]⟩
  · rintro ⟨address, mask, haddress, hmask, rfl⟩
    have hfree : ∀ c ∈ address, (c != '/') = true := by
      intro c hc
      have hslash := haddress.not_mem not_isDigit_slash (by decide)
      simp only [bne_iff_ne, ne_eq]
      intro heq
      exact hslash (heq ▸ hc)
    rw [List.takeWhile_append_of_pos hfree, List.dropWhile_append_of_pos hfree]
    rcases hmask with rfl | ⟨width, hwidth, rfl⟩
    · simpa using haddress
    · have hdigits := (isNumeralUpTo_iff 2 width).mpr hwidth
      simpa [hdigits] using haddress

theorem isMacAddress_iff (cs : List Char) :
    isMacAddress cs = true ↔
      IsJoined ':' 6 (IsGroup Text.isHexDigit 2 2) cs ∨
        IsJoined '.' 3 (IsGroup Text.isHexDigit 4 4) cs := by
  rw [isMacAddress, Bool.or_eq_true, Bool.and_eq_true, Bool.and_eq_true, beq_iff_eq, beq_iff_eq,
    piecesOf_iff_isJoined (by decide) (by decide) (isHexGroup_iff 2),
    piecesOf_iff_isJoined (by decide) (by decide) (isHexGroup_iff 4)]

theorem isQuotation_iff (cs : List Char) :
    isQuotation cs = true ↔ ∃ inner, cs = Text.doubleQuote :: inner ++ [Text.doubleQuote] := by
  simp only [isQuotation, Bool.and_eq_true, decide_eq_true_eq, beq_iff_eq]
  constructor
  · rintro ⟨⟨hlength, hhead⟩, hlast⟩
    obtain ⟨rest, rfl⟩ := List.head?_eq_some_iff.mp hhead
    have hrest : rest ≠ [] := by
      rintro rfl
      simp at hlength
    rw [List.getLast?_cons_of_ne_nil hrest] at hlast
    obtain ⟨inner, rfl⟩ := List.getLast?_eq_some_iff.mp hlast
    exact ⟨inner, rfl⟩
  · rintro ⟨inner, rfl⟩
    simp [List.getLast?_cons_of_ne_nil]

theorem startsComment_iff (cs : List Char) :
    startsComment cs = true ↔ ∃ rest, cs = '!' :: rest ∨ cs = '#' :: rest := by
  cases cs with
  | nil => simp [startsComment]
  | cons c cs =>
    rw [startsComment, Bool.or_eq_true, decide_eq_true_eq, decide_eq_true_eq]
    constructor
    · rintro (rfl | rfl)
      · exact ⟨cs, Or.inl rfl⟩
      · exact ⟨cs, Or.inr rfl⟩
    · rintro ⟨rest, h | h⟩
      · exact Or.inl (List.cons.inj h).1
      · exact Or.inr (List.cons.inj h).1

namespace Category

def words : Category → List String
  | .command => commandWords
  | .parameter => parameterWords
  | .critical => criticalWords
  | .protocol => protocolWords
  | .action => actionWords
  | _ => []

/-- The language of a category. That of plain text has the blank tokens alone; other tokens are
plain for want of a language. -/
def Spells (token : String) : Category → Prop
  | .plain => ∀ c ∈ token.toList, Text.isBlank c = true
  | .comment => ∃ rest, token.toList = '!' :: rest ∨ token.toList = '#' :: rest
  | .ipAddress => IsDottedAddress token.toList
  | .macAddress => IsJoined ':' 6 (IsGroup Text.isHexDigit 2 2) token.toList ∨
      IsJoined '.' 3 (IsGroup Text.isHexDigit 4 4) token.toList
  | .number => token.toList ≠ [] ∧ ∀ c ∈ token.toList, Text.isDigit c = true
  | .quotation => ∃ inner, token.toList = Text.doubleQuote :: inner ++ [Text.doubleQuote]
  | keyword => Text.lower token ∈ keyword.words

def accepts (token : String) : Category → Bool
  | .plain => token.toList.all Text.isBlank
  | .comment => startsComment token.toList
  | .ipAddress => isIpAddress token.toList
  | .macAddress => isMacAddress token.toList
  | .number => isNumeral token.toList
  | .quotation => isQuotation token.toList
  | keyword => keyword.words.contains (Text.lower token)

theorem accepts_iff_spells (token : String) (c : Category) :
    c.accepts token = true ↔ c.Spells token := by
  cases c with
  | plain => exact List.all_eq_true
  | comment => exact startsComment_iff token.toList
  | ipAddress => exact isDottedAddress_iff token.toList
  | macAddress => exact isMacAddress_iff token.toList
  | number => exact isNumeral_iff token.toList
  | quotation => exact isQuotation_iff token.toList
  | _ => exact List.contains_iff_mem

def family : Category → Family
  | .plain => .blank
  | .comment => .comment
  | .ipAddress => .literal
  | .macAddress => .literal
  | .number => .literal
  | .quotation => .quotation
  | _ => .word

theorem eq_of_family {a b : Category} (h : a.family = b.family) (hliteral : a.family ≠ .literal)
    (hword : a.family ≠ .word) : a = b := by
  cases a <;> cases b <;> simp_all [family]

theorem words_of_family {c : Category} (h : c.family = .word) : (c.words, c) ∈ keywords := by
  cases c <;> simp_all [family, words, keywords]

theorem spells_of_family {c : Category} (h : c.family = .word) (token : String) :
    c.Spells token ↔ Text.lower token ∈ c.words := by
  cases c <;> simp_all [family, Spells]

end Category

theorem keywords_listed_once : (Category.keywords.all fun k =>
    k.1.all fun w => decide (keywordCategory w = k.2)) = true := by
  decide +kernel

theorem keywordCategory_of_mem {k : List String × Category} (hk : k ∈ Category.keywords)
    {word : String} (hword : word ∈ k.1) : keywordCategory word = k.2 := by
  have hlisted := List.all_eq_true.mp (List.all_eq_true.mp keywords_listed_once k hk) word hword
  simpa using hlisted

theorem count_eq_zero_of_digits {cs : List Char} (hcs : ∀ c ∈ cs, Text.isDigit c = true) {c : Char}
    (hc : Text.isDigit c = false) : cs.count c = 0 := by
  rw [List.count_eq_zero]
  intro hmem
  rw [hcs c hmem] at hc
  exact absurd hc (by decide)

theorem IsDottedAddress.signs {cs : List Char} (h : IsDottedAddress cs) :
    cs.count '.' = 3 ∧ cs.count ':' = 0 := by
  obtain ⟨address, mask, haddress, hmask, rfl⟩ := h
  have hnone : ∀ c, Text.isDigit c = false → c ≠ '/' → mask.count c = 0 := by
    intro c hc hslash
    rcases hmask with rfl | ⟨width, hwidth, rfl⟩
    · rfl
    · rw [List.count_cons_of_ne hslash.symm, count_eq_zero_of_digits hwidth.2.2 hc]
  rw [List.count_append, List.count_append, haddress.count not_isDigit_point,
    haddress.count not_isDigit_colon, hnone _ not_isDigit_point (by decide),
    hnone _ not_isDigit_colon (by decide)]
  exact ⟨rfl, rfl⟩

theorem macAddress_signs {cs : List Char}
    (h : IsJoined ':' 6 (IsGroup Text.isHexDigit 2 2) cs ∨
      IsJoined '.' 3 (IsGroup Text.isHexDigit 4 4) cs) :
    cs.count '.' = 0 ∧ cs.count ':' = 5 ∨ cs.count '.' = 2 ∧ cs.count ':' = 0 := by
  have hpoint : Text.isHexDigit '.' = false := by decide
  have hcolon : Text.isHexDigit ':' = false := by decide
  rcases h with h | h
  · exact Or.inl ⟨h.count hpoint, h.count hcolon⟩
  · exact Or.inr ⟨h.count hpoint, h.count hcolon⟩

namespace Category

theorem literal_signs {token : String} {c : Category} (h : c.Spells token)
    (hliteral : c.family = .literal) :
    c = .number ∧ token.toList.count '.' = 0 ∧ token.toList.count ':' = 0 ∨
    c = .ipAddress ∧ token.toList.count '.' = 3 ∧ token.toList.count ':' = 0 ∨
    c = .macAddress ∧ (token.toList.count '.' = 0 ∧ token.toList.count ':' = 5 ∨
      token.toList.count '.' = 2 ∧ token.toList.count ':' = 0) := by
  cases c with
  | number =>
    exact Or.inl ⟨rfl, count_eq_zero_of_digits h.2 not_isDigit_point,
      count_eq_zero_of_digits h.2 not_isDigit_colon⟩
  | ipAddress => exact Or.inr (Or.inl ⟨rfl, IsDottedAddress.signs h⟩)
  | macAddress => exact Or.inr (Or.inr ⟨rfl, macAddress_signs h⟩)
  | _ => exact absurd hliteral (by decide)

def literalOf (points colons : Nat) : Category :=
  if points = 3 then .ipAddress
  else if points = 0 ∧ colons = 0 then .number
  else .macAddress

theorem eq_literalOf {token : String} {c : Category} (h : c.Spells token)
    (hliteral : c.family = .literal) :
    c = literalOf (token.toList.count '.') (token.toList.count ':') := by
  rcases literal_signs h hliteral with ⟨rfl, hpoints, hcolons⟩ | ⟨rfl, hpoints, hcolons⟩ |
    ⟨rfl, ⟨hpoints, hcolons⟩ | ⟨hpoints, hcolons⟩⟩
  · rw [hpoints, hcolons]
    rfl
  · rw [hpoints, hcolons]
    rfl
  · rw [hpoints, hcolons]
    rfl
  · rw [hpoints, hcolons]
    rfl

theorem isLiteralChar_of_spells {token : String} {c : Category} (h : c.Spells token)
    (hliteral : c.family = .literal) : ∀ x ∈ token.toList, isLiteralChar x = true := by
  intro x hx
  have haccepts := (accepts_iff_spells token c).mpr h
  cases c with
  | number => exact isLiteralChar_of_isNumeral haccepts hx
  | ipAddress => exact isLiteralChar_of_isIpAddress haccepts hx
  | macAddress => exact isLiteralChar_of_isMacAddress haccepts hx
  | _ => exact absurd hliteral (by decide)

theorem exists_sign_of_spells {token : String} {c : Category} (h : c.Spells token)
    (hliteral : c.family = .literal) : ∃ x ∈ token.toList, isLiteralSign x = true := by
  have hsign : ∀ x, isLiteralSign x = true → 0 < token.toList.count x →
      ∃ x ∈ token.toList, isLiteralSign x = true := fun x hx hcount =>
    ⟨x, List.count_pos_iff.mp hcount, hx⟩
  rcases literal_signs h hliteral with ⟨rfl, -⟩ | ⟨-, hpoints, -⟩ | ⟨-, ⟨-, hcolons⟩ | ⟨hpoints, -⟩⟩
  · obtain ⟨x, hx⟩ := List.exists_mem_of_ne_nil _ h.1
    exact ⟨x, hx, by rw [isLiteralSign, h.2 x hx, Bool.true_or]⟩
  · exact hsign '.' rfl (by omega)
  · exact hsign ':' rfl (by omega)
  · exact hsign '.' rfl (by omega)

theorem familyOf_of_spells {token : String} {c : Category} (h : c.Spells token) :
    familyOf token.toList = c.family := by
  by_cases hliteral : c.family = .literal
  · rw [hliteral]
    exact familyOf_of_literal (isLiteralChar_of_spells h hliteral)
      (exists_sign_of_spells h hliteral)
  by_cases hword : c.family = .word
  · rw [hword]
    exact familyOf_of_keyword (words_of_family hword) ((spells_of_family hword token).mp h)
  cases c with
  | plain => exact familyOf_of_blank h
  | comment => exact familyOf_of_startsComment ((startsComment_iff _).mpr h)
  | quotation =>
    obtain ⟨inner, hinner⟩ := h
    rw [hinner]
    exact familyOf_cons_quote _
  | _ => simp [family] at hliteral hword

theorem spells_unique {token : String} {a b : Category} (ha : a.Spells token)
    (hb : b.Spells token) : a = b := by
  have hfamily : a.family = b.family := by
    rw [← familyOf_of_spells ha, familyOf_of_spells hb]
  by_cases hliteral : a.family = .literal
  · rw [eq_literalOf ha hliteral, eq_literalOf hb (hfamily ▸ hliteral)]
  by_cases hword : a.family = .word
  · have hwordb : b.family = .word := hfamily ▸ hword
    have hka := keywordCategory_of_mem (words_of_family hword) ((spells_of_family hword _).mp ha)
    have hkb := keywordCategory_of_mem (words_of_family hwordb) ((spells_of_family hwordb _).mp hb)
    exact hka.symm.trans hkb
  · exact eq_of_family hfamily hliteral hword

def order : List Category :=
  [.plain, .comment, .ipAddress, .macAddress, .number, .quotation, .command, .parameter, .critical,
    .protocol, .action]

theorem mem_order (c : Category) : c ∈ order := by
  cases c <;> decide

end Category

/-- The category of the first check that a token passes, with the checks made in some order. -/
def classifyIn (checks : List Category) (token : String) : Category :=
  (checks.find? (·.accepts token)).getD .plain

theorem find?_table {α : Type} (table : List (α × Category)) (passes : α → Bool) (token : String)
    (h : ∀ row ∈ table, passes row.1 = row.2.accepts token) :
    (table.find? fun row => passes row.1).map Prod.snd =
      (table.map Prod.snd).find? (·.accepts token) := by
  induction table with
  | nil => rfl
  | cons row table ih =>
    have htail := ih fun x hx => h x (List.mem_cons_of_mem _ hx)
    rw [List.map_cons, List.find?_cons, List.find?_cons, ← h row (by simp), ← htail]
    cases passes row.1 with
    | true => rfl
    | false => rfl

theorem keywordCategory_eq (word : String) : keywordCategory word =
    ((Category.keywords.find? fun k => k.1.contains word).map Prod.snd).getD .plain := by
  rw [keywordCategory]
  cases Category.keywords.find? fun k => k.1.contains word with
  | none => rfl
  | some k => rfl

theorem classify_eq_classifyIn (token : String) :
    classify token = classifyIn Category.order token := by
  have hforms := find?_table literalForms (· token.toList) token
    (by simp [literalForms, Category.accepts])
  have hwords := find?_table Category.keywords (·.contains (Text.lower token)) token
    (by simp [Category.keywords, Category.accepts, Category.words])
  have horder : Category.order = .plain :: .comment ::
      (literalForms.map Prod.snd ++ Category.keywords.map Prod.snd) := rfl
  rw [classifyIn, horder, List.find?_cons, List.find?_cons, List.find?_append, ← hforms, ← hwords,
    classify, Category.accepts, Category.accepts]
  cases token.toList.all Text.isBlank with
  | true => rfl
  | false =>
    cases startsComment token.toList with
    | true => rfl
    | false =>
      rw [if_neg (by decide), if_neg (by decide), keywordCategory_eq]
      cases literalForms.find? fun l => l.1 token.toList with
      | none => rfl
      | some l => rfl

theorem classifyIn_of_spells {checks : List Category} {token : String} {c : Category}
    (hc : c ∈ checks) (h : c.Spells token) : classifyIn checks token = c := by
  have haccepts := (Category.accepts_iff_spells token c).mpr h
  cases hfound : checks.find? (·.accepts token) with
  | none => exact absurd haccepts (List.find?_eq_none.mp hfound c hc)
  | some d =>
    have hd : d.Spells token := (Category.accepts_iff_spells token d).mp (List.find?_some hfound)
    rw [classifyIn, hfound, Option.getD_some, Category.spells_unique hd h]

theorem classifyIn_of_not_spells {checks : List Category} {token : String}
    (h : ∀ c : Category, ¬c.Spells token) : classifyIn checks token = .plain := by
  have hnone : checks.find? (·.accepts token) = none := by
    rw [List.find?_eq_none]
    intro c _ haccepts
    exact h c ((Category.accepts_iff_spells token c).mp haccepts)
  rw [classifyIn, hnone, Option.getD_none]

theorem classifyIn_perm {checks : List Category} (h : checks.Perm Category.order)
    (token : String) : classifyIn checks token = classify token := by
  rw [classify_eq_classifyIn]
  by_cases hspells : ∃ c : Category, c.Spells token
  · obtain ⟨c, hc⟩ := hspells
    rw [classifyIn_of_spells (h.mem_iff.mpr c.mem_order) hc, classifyIn_of_spells c.mem_order hc]
  · have hnone : ∀ c : Category, ¬c.Spells token := fun c hc => hspells ⟨c, hc⟩
    rw [classifyIn_of_not_spells hnone, classifyIn_of_not_spells hnone]

theorem classify_languages (token : String) :
    (∀ c : Category, c.accepts token = true ↔ c.Spells token) ∧
    (∀ a b : Category, a.Spells token → b.Spells token → a = b) ∧
    (∀ c : Category, c.Spells token → classify token = c) ∧
    ((∀ c : Category, ¬c.Spells token) → classify token = .plain) ∧
    ∀ checks : List Category, checks.Perm Category.order →
      classifyIn checks token = classify token := by
  refine ⟨Category.accepts_iff_spells token, fun a b ha hb => Category.spells_unique ha hb,
    fun c hc => ?_, fun hnone => ?_, fun checks hchecks => classifyIn_perm hchecks token⟩
  · rw [classify_eq_classifyIn, classifyIn_of_spells c.mem_order hc]
  · rw [classify_eq_classifyIn, classifyIn_of_not_spells hnone]

end SwitchLexicon
