import Mathlib.Data.List.Infix
import SwitchLexicon.Json.Writer
import SwitchLexicon.Proofs.Json.Values
import SwitchLexicon.Proofs.Text.Encodable

/-!
Written JSON is read back. A value comes back from its text, indented or not, if its leaves do and
if it is nested no deeper than the reader goes. The leaves that come back are the null value, truth
values, whole numbers that are not too long and texts that can be encoded.
-/
namespace SwitchLexicon.Json

/-! ## Texts -/

section Texts

variable (opening acc : List Char) (high : Option Nat)

theorem readText_quote (rest : List Char) :
    readText opening acc high ('"' :: rest) = .ok (String.ofList acc.reverse, rest) := by
  rw [readText]

theorem readText_plain {c : Char} (hquote : c ≠ '"') (hslash : c ≠ '\\') (hcontrol : 0x20 ≤ c.toNat)
    (rest : List Char) :
    readText opening acc high (c :: rest) = readText opening (c :: acc) none rest := by
  rw [readText, if_neg (by omega)]
  · exact hquote
  · exact hslash

theorem readText_escape {e c : Char} (hu : e ≠ 'u') (he : simpleEscape? e = some c)
    (rest : List Char) :
    readText opening acc high ('\\' :: e :: rest) = readText opening (c :: acc) none rest := by
  rw [readText, if_neg hu, he]
  all_goals exact fun _ _ _ _ _ h _ => hu h

theorem readText_unit {a b c d : Char} {n : Nat} (hn : unit? a b c d = some n) {rest : List Char}
    (hrest : rest ≠ []) :
    readText opening acc high ('\\' :: 'u' :: a :: b :: c :: d :: rest) =
      readText opening (pushUnit high n acc) (if Text.isHighSurrogate n then some n else none)
        rest := by
  rw [readText, hn]
  dsimp only
  rw [if_neg (by simpa using hrest)]

end Texts

theorem hexValue?_hexDigit {n : Nat} (h : n < 16) : Text.hexValue? (Text.hexDigit n) = some n := by
  have hall : ∀ n < 16, Text.hexValue? (Text.hexDigit n) = some n := by decide
  exact hall n h

theorem readText_unitEscape (opening acc : List Char) (high : Option Nat) {n : Nat}
    (hn : n < 0x10000) {rest : List Char} (hrest : rest ≠ []) :
    readText opening acc high (unitEscape n ++ rest) =
      readText opening (pushUnit high n acc) (if Text.isHighSurrogate n then some n else none)
        rest := by
  have hunit : unit? (Text.hexDigit (n / 16 / 16 / 16 % 16)) (Text.hexDigit (n / 16 / 16 % 16))
      (Text.hexDigit (n / 16 % 16)) (Text.hexDigit (n % 16)) = some n := by
    simp only [unit?, hexValue?_hexDigit (Nat.mod_lt _ (by decide : 0 < 16))]
    refine congrArg some ?_
    omega
  exact readText_unit opening acc high hunit hrest

theorem not_surrogate (c : Char) :
    Text.isHighSurrogate c.toNat = false ∧ Text.isLowSurrogate c.toNat = false := by
  have hvalid : c.toNat < 0xD800 ∨ 0xDFFF < c.toNat ∧ c.toNat < 0x110000 := c.valid
  simp only [Text.isHighSurrogate, Text.isLowSurrogate, Bool.and_eq_false_iff,
    decide_eq_false_iff_not]
  omega

theorem ofCode_toNat (c : Char) : Text.ofCode c.toNat = c := by
  rw [Text.ofCode, (not_surrogate c).1, (not_surrogate c).2]
  exact Char.ofNat_toNat c

structure Halves (n high low : Nat) : Prop where
  high_lt : high < 0x10000
  low_lt : low < 0x10000
  isHigh : Text.isHighSurrogate high = true
  isLow : Text.isLowSurrogate low = true
  notHigh : Text.isHighSurrogate low = false
  joined : Text.joinSurrogates high low = n

theorem halves {n : Nat} (hn : 0x10000 ≤ n) (hmax : n < 0x110000) :
    Halves n (0xD800 + (n - 0x10000) / 0x400) (0xDC00 + (n - 0x10000) % 0x400) where
  high_lt := by omega
  low_lt := by omega
  isHigh := by
    simp only [Text.isHighSurrogate, Bool.and_eq_true, decide_eq_true_eq]
    omega
  isLow := by
    simp only [Text.isLowSurrogate, Bool.and_eq_true, decide_eq_true_eq]
    omega
  notHigh := by
    simp only [Text.isHighSurrogate, Bool.and_eq_false_iff, decide_eq_false_iff_not]
    omega
  joined := by
    delta Text.joinSurrogates
    omega

theorem readText_pair (opening acc : List Char) {c : Char} {high low : Nat}
    (h : Halves c.toNat high low) {rest : List Char} (hrest : rest ≠ []) :
    readText opening acc none (unitEscape high ++ (unitEscape low ++ rest)) =
      readText opening (c :: acc) none rest := by
  rw [readText_unitEscape _ _ _ h.high_lt (by simp [unitEscape]),
    readText_unitEscape _ _ _ h.low_lt hrest, h.isHigh, h.notHigh, if_pos rfl,
    if_neg Bool.false_ne_true, pushUnit, h.isLow, if_pos rfl, h.joined, Char.ofNat_toNat]
  rfl

theorem readText_escapedChar (opening acc : List Char) {c : Char} (hc : Text.surrogate? c = none)
    {rest : List Char} (hrest : rest ≠ []) :
    readText opening acc none (escapedChar c ++ rest) = readText opening (c :: acc) none rest := by
  have hsimple {e d : Char} (hu : e ≠ 'u') (he : simpleEscape? e = some d) :
      readText opening acc none (['\\', e] ++ rest) = readText opening (d :: acc) none rest :=
    readText_escape opening acc none hu he rest
  have hcode {n : Nat} (hn : c.toNat = n) : c = Char.ofNat n := by
    rw [← hn, Char.ofNat_toNat]
  simp only [escapedChar]
  split_ifs with hquote hslash hback hform hfeed hreturn htab hprint hplane
  · obtain rfl : c = '"' := hcode hquote
    exact hsimple (by decide) rfl
  · obtain rfl := hslash
    exact hsimple (by decide) rfl
  · obtain rfl := hcode hback
    exact hsimple (by decide) rfl
  · obtain rfl := hcode hform
    exact hsimple (by decide) rfl
  · obtain rfl := hfeed
    exact hsimple (by decide) rfl
  · obtain rfl := hreturn
    exact hsimple (by decide) rfl
  · obtain rfl := htab
    exact hsimple (by decide) rfl
  · exact readText_plain _ _ _ (fun h => hquote (by rw [h]; rfl)) hslash hprint.1 rest
  · rw [hc, readText_unitEscape _ _ _ hplane hrest, (not_surrogate c).1,
      if_neg Bool.false_ne_true, pushUnit, ofCode_toNat]
  · have hvalid : c.toNat < 0xD800 ∨ 0xDFFF < c.toNat ∧ c.toNat < 0x110000 := c.valid
    have hmax : c.toNat < 0x110000 := by omega
    rw [hc, List.append_assoc]
    exact readText_pair opening acc (halves (Nat.not_lt.mp hplane) hmax) hrest

theorem readText_flatMap (opening acc : List Char) {cs : List Char}
    (hcs : ∀ c ∈ cs, Text.surrogate? c = none) (rest : List Char) :
    readText opening acc none (cs.flatMap escapedChar ++ '"' :: rest) =
      .ok (String.ofList (acc.reverse ++ cs), rest) := by
  induction cs generalizing acc with
  | nil => rw [List.flatMap_nil, List.nil_append, readText_quote, List.append_nil]
  | cons c cs ih =>
    rw [List.flatMap_cons, List.append_assoc, readText_escapedChar _ _ (hcs c (.head _)) (by simp),
      ih _ fun d hd => hcs d (.tail _ hd), List.reverse_cons, List.append_assoc,
      List.singleton_append]

/-! ## Numbers -/

def Delimited (rest : List Char) : Prop :=
  ∀ c ∈ rest.head?, isAsciiDigit c = false ∧ c ≠ '.' ∧ c ≠ 'e' ∧ c ≠ 'E'

theorem isAsciiDigit_of_mem_toDigits {n : Nat} {c : Char} (h : c ∈ Nat.toDigits 10 n) :
    isAsciiDigit c = true := by
  have hdigit := Char.isDigit_iff_toNat.mp
    (Nat.isDigit_of_mem_toDigits (by decide) (by decide) h)
  simpa [isAsciiDigit] using hdigit

theorem head?_toDigits {n : Nat} (hn : 0 < n) : (Nat.toDigits 10 n).head? ≠ some '0' := by
  induction n using Nat.strongRecOn with
  | ind n ih =>
    by_cases hsmall : n < 10
    · have hall : ∀ n < 10, 0 < n → (Nat.toDigits 10 n).head? ≠ some '0' := by decide
      exact hall n hsmall hn
    · rw [Nat.toDigits_of_base_le (by decide) (Nat.not_lt.mp hsmall),
        List.head?_append_of_ne_nil _ Nat.toDigits_ne_nil]
      exact ih (n / 10) (by omega) (by omega)

theorem digitsValue_toDigits (n : Nat) : digitsValue (Nat.toDigits 10 n) = n :=
  Nat.ofDigitChars_toDigits (by decide) (by decide)

theorem takeWhile_toDigits (n : Nat) {rest : List Char} (hrest : Delimited rest) :
    (Nat.toDigits 10 n ++ rest).takeWhile isAsciiDigit = Nat.toDigits 10 n := by
  rw [List.takeWhile_append_of_pos fun c hc => isAsciiDigit_of_mem_toDigits hc]
  cases rest with
  | nil => simp
  | cons c rest => simp [(hrest c rfl).1]

theorem fractionOf_delimited {rest : List Char} (hrest : Delimited rest) :
    fractionOf rest = ([], rest) := by
  rw [fractionOf]
  rintro cs rfl
  exact (hrest '.' rfl).2.1 rfl

theorem exponentOf_delimited {rest : List Char} (hrest : Delimited rest) :
    exponentOf rest = (none, rest) := by
  cases rest with
  | nil => rfl
  | cons c rest =>
    obtain ⟨-, -, he, hE⟩ := hrest c rfl
    simp [exponentOf, he, hE]

theorem readNumber_digits {n : Nat} (hn : n < numberLimit) {rest : List Char}
    (hrest : Delimited rest) (negative : Bool) :
    readNumber ((if negative then ['-'] else []) ++ (Nat.toDigits 10 n ++ rest)) =
      .ok (.int (if negative then -(n : Int) else n), rest) := by
  have hne : Nat.toDigits 10 n ≠ [] := Nat.toDigits_ne_nil
  have hlength : (Nat.toDigits 10 n).length ≤ digitLimit := by
    have hpos : 0 < digitLimit := by decide
    unfold numberLimit at hn
    generalize digitLimit = most at hn hpos ⊢
    exact (Nat.length_toDigits_le_iff (by decide) hpos).mpr hn
  have hwhole : (if (Nat.toDigits 10 n ++ rest).head? == some '0' then ['0'] else
      (Nat.toDigits 10 n ++ rest).takeWhile isAsciiDigit) = Nat.toDigits 10 n := by
    rw [List.head?_append_of_ne_nil _ hne]
    split
    next hzero =>
      cases Nat.eq_zero_or_pos n with
      | inl h => rw [h]; rfl
      | inr h => exact absurd (beq_iff_eq.mp hzero) (head?_toDigits h)
    next => exact takeWhile_toDigits n hrest
  have hnumber : (Nat.toDigits 10 n).isEmpty = false := by simp
  cases negative with
  | false =>
    have hsign : ((Nat.toDigits 10 n ++ rest).head? == some '-') = false := by
      rw [List.head?_append_of_ne_nil _ hne, beq_eq_false_iff_ne]
      intro hminus
      exact absurd (isAsciiDigit_of_mem_toDigits (List.mem_of_head? hminus)) (by decide)
    simp only [readNumber, Bool.false_eq_true, if_false, List.nil_append, hsign, hwhole, hnumber,
      List.drop_left, fractionOf_delimited hrest, exponentOf_delimited hrest, List.isEmpty_nil,
      Option.isNone_none, Bool.and_self, if_true, Nat.not_lt.mpr hlength, digitsValue_toDigits]
  | true =>
    simp only [readNumber, Bool.false_eq_true, if_false, List.singleton_append, List.head?_cons,
      beq_self_eq_true, if_true, List.drop_succ_cons, List.drop_zero, hwhole, hnumber,
      List.drop_left, fractionOf_delimited hrest, exponentOf_delimited hrest, List.isEmpty_nil,
      Option.isNone_none, Bool.and_self, Nat.not_lt.mpr hlength, digitsValue_toDigits]

theorem toList_toString (n : Int) : ∃ negative : Bool,
    n = (if negative then -(n.natAbs : Int) else n.natAbs) ∧
      (toString n).toList = (if negative then ['-'] else []) ++ Nat.toDigits 10 n.natAbs := by
  rw [Int.toString_eq_repr, Int.repr_eq_if]
  split
  next h =>
    obtain ⟨m, rfl⟩ := Int.eq_ofNat_of_zero_le h
    exact ⟨false, rfl, by simp⟩
  next h =>
    obtain ⟨m, hm⟩ := Int.eq_ofNat_of_zero_le (by omega : 0 ≤ -n)
    obtain rfl : n = -m := by omega
    exact ⟨true, by simp, by simp⟩

theorem find?_literals (negative : Bool) {d : Char} (hd : isAsciiDigit d = true)
    (rest : List Char) :
    (literals.find? fun l =>
      l.1.toList.isPrefixOf ((if negative then ['-'] else []) ++ d :: rest)) = none := by
  have hwords : ∀ l ∈ literals, 2 ≤ l.1.toList.length ∧
      (l.1.toList.all fun c => !isAsciiDigit c) = true := by decide
  rw [List.find?_eq_none]
  intro l hl hprefix
  obtain ⟨hlength, hword⟩ := hwords l hl
  have hmem : d ∈ ((if negative then ['-'] else []) ++ d :: rest).take 2 := by
    cases negative <;> simp
  -- A word that starts like this has the digit in it.
  have hin : d ∈ l.1.toList := by
    rw [List.prefix_iff_eq_take.mp (List.isPrefixOf_iff_prefix.mp hprefix)]
    exact (List.take_prefix_take_left hlength).subset hmem
  have hplain := List.all_eq_true.mp hword d hin
  rw [hd] at hplain
  cases hplain

theorem readScalar_digits {n : Int} (hn : n.natAbs < numberLimit) {rest : List Char}
    (hrest : Delimited rest) :
    readScalar ((toString n).toList ++ rest) = .ok (.int n, rest) := by
  obtain ⟨negative, hvalue, htext⟩ := toList_toString n
  have hnumber := readNumber_digits hn hrest negative
  rw [← hvalue] at hnumber
  rw [htext, List.append_assoc, readScalar]
  obtain ⟨d, ds, hds⟩ : ∃ d ds, Nat.toDigits 10 n.natAbs = d :: ds :=
    List.exists_cons_of_ne_nil Nat.toDigits_ne_nil
  have hd : isAsciiDigit d = true := isAsciiDigit_of_mem_toDigits (by rw [hds]; exact .head _)
  rw [hds] at hnumber ⊢
  rw [List.cons_append, find?_literals negative hd]
  exact hnumber

/-! ## Values -/

theorem isSpace_newline (i : Indent) : ∀ c ∈ i.newline.toList, isSpace c = true := by
  cases i with
  | none => exact nofun
  | some level =>
    intro c hc
    simp only [Indent.newline, String.toList_append, String.toList_ofList, List.mem_append,
      List.mem_replicate] at hc
    rcases hc with hc | ⟨-, rfl⟩
    · obtain rfl : c = '\n' := by simpa using hc
      rfl
    · rfl

section Spaces

variable {spaces : List Char} (hspaces : ∀ c ∈ spaces, isSpace c = true)
include hspaces

theorem skipSpace_append (cs : List Char) : skipSpace (spaces ++ cs) = skipSpace cs :=
  List.dropWhile_append_of_pos hspaces

theorem delimited_append {rest : List Char} (hrest : Delimited rest) :
    Delimited (spaces ++ rest) := by
  cases spaces with
  | nil => exact hrest
  | cons s spaces =>
    have hs := hspaces s (.head _)
    simp only [isSpace, Bool.or_eq_true, decide_eq_true_eq] at hs
    rintro d ⟨⟩
    rcases hs with ((rfl | rfl) | rfl) | rfl <;> decide

end Spaces

/-- What the text of a value, or of an entry, does not start with. -/
def Begins (cs : List Char) : Prop :=
  ∃ c tail, cs = c :: tail ∧ isSpace c = false ∧ c ≠ ']' ∧ c ≠ '}' ∧ c ≠ Char.ofNat 0xFEFF

theorem Begins.skipSpace {cs : List Char} (h : Begins cs) (rest : List Char) :
    Json.skipSpace (cs ++ rest) = cs ++ rest := by
  obtain ⟨c, tail, rfl, hc, -⟩ := h
  simp [Json.skipSpace, hc]

/-- The written value is read back, whatever comes after it. -/
def ReadsBack (depth : Nat) (i : Indent) (v : Value) : Prop :=
  ∀ fuel rest, (write i v).toList.length ≤ fuel → Delimited rest →
    readValue depth fuel ((write i v).toList ++ rest) = .ok (v, rest)

inductive Restored : Value → Prop
  | null : Restored .null
  | bool (b : Bool) : Restored (.bool b)
  | int {n : Int} (short : n.natAbs < numberLimit) : Restored (.int n)
  | text {s : String} (encodable : Text.isEncodable s = true) : Restored (.text s)

theorem one_lt_numberLimit : 1 < numberLimit := by
  have hdigits : digitLimit ≠ 0 := by decide
  unfold numberLimit
  generalize digitLimit = most at hdigits ⊢
  exact Nat.one_lt_pow hdigits (by decide)

theorem layered_pair {name other : String} (hne : name ≠ other)
    (hname : Text.isEncodable name = true) (hother : Text.isEncodable other = true)
    {depth : Nat} {v w : Value} (hv : Layered Restored depth v)
    (hw : Layered Restored depth w) :
    Layered Restored (depth + 1) (.ofEntries [(name, v), (other, w)]) := by
  refine .map ?_ (fun e he => ?_) fun e he => ?_
  · simpa [Entries.Distinct, Key.same, Key.whole?] using hne
  · rcases List.mem_pair.mp he with rfl | rfl
    · exact ⟨name, rfl, .text hname⟩
    · exact ⟨other, rfl, .text hother⟩
  · rcases List.mem_pair.mp he with rfl | rfl
    · exact hv
    · exact hw

theorem toList_textLiteral (s : String) :
    (textLiteral s).toList = '"' :: (s.toList.flatMap escapedChar ++ ['"']) := by
  simp [textLiteral]

theorem readText_textLiteral {s : String} (h : Text.isEncodable s = true)
    (opening rest : List Char) :
    readText opening [] none (s.toList.flatMap escapedChar ++ '"' :: rest) = .ok (s, rest) := by
  have hcs : ∀ c ∈ s.toList, Text.surrogate? c = none := by
    simpa [Text.isEncodable] using h
  rw [readText_flatMap _ _ hcs, List.reverse_nil, List.nil_append, String.ofList_toList]

theorem readValue_scalar {depth fuel : Nat} {c : Char} (cs : List Char) (hquote : c ≠ '"')
    (hlist : c ≠ '[') (hmap : c ≠ '{') :
    readValue depth (fuel + 1) (c :: cs) = readScalar (c :: cs) := by
  rw [readValue]
  · rintro rest h
    exact hquote (List.cons.inj h).1
  · rintro rest h
    exact hlist (List.cons.inj h).1
  · rintro rest h
    exact hmap (List.cons.inj h).1

theorem exists_cons_toString (n : Int) :
    ∃ c tail, (toString n).toList = c :: tail ∧ (c = '-' ∨ isAsciiDigit c = true) := by
  obtain ⟨negative, -, htext⟩ := toList_toString n
  obtain ⟨d, ds, hds⟩ := List.exists_cons_of_ne_nil
    (Nat.toDigits_ne_nil : Nat.toDigits 10 n.natAbs ≠ [])
  rw [htext, hds]
  cases negative with
  | true => exact ⟨'-', d :: ds, rfl, Or.inl rfl⟩
  | false =>
    exact ⟨d, ds, rfl, Or.inr (isAsciiDigit_of_mem_toDigits (by rw [hds]; exact .head _))⟩

theorem ne_of_starts {c d : Char} (hc : c = '-' ∨ isAsciiDigit c = true)
    (hd : d ≠ '-' ∧ isAsciiDigit d = false) : c ≠ d := by
  rintro rfl
  rcases hc with hc | hc
  · exact hd.1 hc
  · exact Bool.false_ne_true (hd.2.symm.trans hc)

theorem toList_write_null (i : Indent) : (write i .null).toList = ['n', 'u', 'l', 'l'] := by
  rw [write]
  rfl

theorem toList_write_bool (i : Indent) (b : Bool) :
    (write i (.bool b)).toList =
      if b then ['t', 'r', 'u', 'e'] else ['f', 'a', 'l', 's', 'e'] := by
  rw [write]
  cases b <;> rfl

theorem begins_restored (i : Indent) {v : Value} (h : Restored v) : Begins (write i v).toList := by
  cases h with
  | null => exact ⟨'n', _, toList_write_null i, rfl, by decide⟩
  | bool b =>
    cases b with
    | true => exact ⟨'t', _, toList_write_bool i true, rfl, by decide⟩
    | false => exact ⟨'f', _, toList_write_bool i false, rfl, by decide⟩
  | @int n short =>
    obtain ⟨c, tail, htext, hc⟩ := exists_cons_toString n
    refine ⟨c, tail, htext, ?_, ne_of_starts hc (by decide), ne_of_starts hc (by decide),
      ne_of_starts hc (by decide)⟩
    rw [isSpace, decide_eq_false (ne_of_starts hc (by decide)),
      decide_eq_false (ne_of_starts hc (by decide)), decide_eq_false (ne_of_starts hc (by decide)),
      decide_eq_false (ne_of_starts hc (by decide))]
    rfl
  | @text s encodable => exact ⟨'"', _, toList_textLiteral s, rfl, by decide⟩

theorem readsBack_restored (depth : Nat) (i : Indent) {v : Value} (h : Restored v) :
    ReadsBack depth i v := by
  intro fuel rest hfuel hrest
  obtain ⟨c, tail, htext, -⟩ := begins_restored i h
  obtain ⟨fuel, rfl⟩ : ∃ m, fuel = m + 1 := Nat.exists_eq_add_one.mpr (by
    rw [htext, List.length_cons] at hfuel
    omega)
  cases h with
  | null =>
    rw [toList_write_null, List.cons_append,
      readValue_scalar _ (by decide) (by decide) (by decide)]
    rfl
  | bool b =>
    cases b with
    | true =>
      rw [toList_write_bool, if_pos rfl, List.cons_append,
        readValue_scalar _ (by decide) (by decide) (by decide)]
      rfl
    | false =>
      rw [toList_write_bool, if_neg Bool.false_ne_true, List.cons_append,
        readValue_scalar _ (by decide) (by decide) (by decide)]
      rfl
  | @int n short =>
    obtain ⟨c, tail, htext, hc⟩ := exists_cons_toString n
    have hscalar := readScalar_digits short hrest
    rw [write]
    rw [htext] at hscalar ⊢
    rw [List.cons_append, readValue_scalar _ (ne_of_starts hc (by decide))
      (ne_of_starts hc (by decide)) (ne_of_starts hc (by decide))]
    exact hscalar
  | @text s encodable =>
    rw [write, toList_textLiteral, List.cons_append, List.append_assoc, List.singleton_append,
      readValue, readText_textLiteral encodable]

/-! ## Lists and mappings -/

theorem writeItems_eq (i : Indent) (vs : List Value) : writeItems i vs = vs.map (write i) := by
  induction vs with
  | nil => rfl
  | cons v vs ih => rw [writeItems, ih, List.map_cons]

def colon (i : Indent) : String := if i.isSome then ": " else ":"

def writeEntry (i : Indent) (e : Key × Value) : String :=
  textLiteral (keyText e.1) ++ colon i ++ write i e.2

theorem writeEntries_eq (i : Indent) (es : Entries) :
    writeEntries i es = es.map (writeEntry i) := by
  induction es with
  | nil => rfl
  | cons e es ih => rw [writeEntries, ih, List.map_cons, writeEntry, colon]

theorem toList_container_nil (i : Indent) (opening closing : String) :
    (container i opening closing []).toList = opening.toList ++ closing.toList := by
  simp [container]

theorem toList_container (i : Indent) (opening closing : String) {parts : List String}
    (hparts : parts ≠ []) :
    (container i opening closing parts).toList = opening.toList ++ (i.deeper.newline.toList ++
      ((("," ++ i.deeper.newline).intercalate parts).toList ++
        (i.newline.toList ++ closing.toList))) := by
  rw [container, if_neg (by simpa using hparts)]
  simp only [String.toList_append, List.append_assoc]

theorem begins_intercalate {part : String} (h : Begins part.toList) (separator : String)
    (parts : List String) : Begins (separator.intercalate (part :: parts)).toList := by
  obtain ⟨c, tail, htext, hc⟩ := h
  cases parts with
  | nil => exact ⟨c, tail, by rw [String.intercalate_singleton, htext], hc⟩
  | cons p parts =>
    refine ⟨c, tail ++ separator.toList ++ (separator.intercalate (p :: parts)).toList, ?_, hc⟩
    rw [String.intercalate_cons_cons, String.toList_append, String.toList_append, htext,
      List.cons_append, List.cons_append]

theorem toList_colon (i : Indent) :
    (colon i).toList = ':' :: if i.isSome then [' '] else [] := by
  rw [colon]
  split_ifs <;> rfl

theorem skipSpace_colon (i : Indent) {cs : List Char} (h : Begins cs) (rest : List Char) :
    ∃ tail, skipSpace ((colon i).toList ++ (cs ++ rest)) = ':' :: tail ∧
      skipSpace tail = cs ++ rest := by
  have hspaces : ∀ c ∈ if i.isSome then [' '] else [], isSpace c = true := by
    rw [← List.all_eq_true]
    cases i.isSome <;> rfl
  refine ⟨(if i.isSome then [' '] else []) ++ (cs ++ rest), ?_, ?_⟩
  · rw [toList_colon, List.cons_append]
    rfl
  · rw [skipSpace_append hspaces, h.skipSpace]

theorem toList_writeEntry (i : Indent) (e : Key × Value) :
    (writeEntry i e).toList = '"' :: ((keyText e.1).toList.flatMap escapedChar ++
      '"' :: ((colon i).toList ++ (write i e.2).toList)) := by
  simp [writeEntry, toList_textLiteral]

theorem begins_writeEntry (i : Indent) (e : Key × Value) : Begins (writeEntry i e).toList :=
  ⟨'"', _, toList_writeEntry i e, rfl, by decide⟩

theorem length_writeEntry (i : Indent) (k : Key) (v : Value) :
    (write i v).toList.length ≤ (writeEntry i (k, v)).toList.length := by
  rw [writeEntry, String.toList_append, List.length_append]
  exact Nat.le_add_left _ _

section Steps

variable {depth fuel : Nat} {i : Indent} {v : Value} (hv : ReadsBack depth i v)
  (hfuel : (write i v).toList.length ≤ fuel) {rest tail : List Char} (hrest : Delimited rest)
include hv hfuel hrest

theorem readItems_last (acc : List Value) (h : skipSpace rest = ']' :: tail) :
    readItems depth (fuel + 1) acc ((write i v).toList ++ rest) =
      .ok (.list (acc.reverse ++ [v]), tail) := by
  rw [readItems, hv fuel rest hfuel hrest]
  simp only [h, List.reverse_cons]

theorem readItems_more (acc : List Value) (h : skipSpace rest = ',' :: tail) :
    readItems depth (fuel + 1) acc ((write i v).toList ++ rest) =
      readItems depth fuel (v :: acc) (skipSpace tail) := by
  rw [readItems, hv fuel rest hfuel hrest]
  simp only [h]

variable (hbegins : Begins (write i v).toList) {name : String}
  (hname : Text.isEncodable name = true)
include hbegins hname

theorem readEntries_last (acc : Entries) (h : skipSpace rest = '}' :: tail) :
    readEntries depth (fuel + 1) acc ((writeEntry i (.text name, v)).toList ++ rest) =
      .ok (.map (Entries.ofPairs (acc.reverse ++ [(.text name, v)])), tail) := by
  obtain ⟨afterColon, hcolon, hvalue⟩ := skipSpace_colon i hbegins rest
  rw [toList_writeEntry, List.cons_append, List.append_assoc, List.cons_append, List.append_assoc,
    readEntries, keyText, readText_textLiteral hname]
  simp only [hcolon, hvalue, hv fuel rest hfuel hrest, h, List.reverse_cons]

theorem readEntries_more (acc : Entries) (h : skipSpace rest = ',' :: tail) :
    readEntries depth (fuel + 1) acc ((writeEntry i (.text name, v)).toList ++ rest) =
      readEntries depth fuel ((.text name, v) :: acc) (skipSpace tail) := by
  obtain ⟨afterColon, hcolon, hvalue⟩ := skipSpace_colon i hbegins rest
  rw [toList_writeEntry, List.cons_append, List.append_assoc, List.cons_append, List.append_assoc,
    readEntries, keyText, readText_textLiteral hname]
  simp only [hcolon, hvalue, hv fuel rest hfuel hrest, h]

end Steps

theorem skipSpace_comma (cs : List Char) : skipSpace (",".toList ++ cs) = ',' :: cs := rfl

theorem delimited_comma (cs : List Char) : Delimited (",".toList ++ cs) := by
  rintro c ⟨⟩
  decide

section Runs

variable {depth fuel : Nat} {i : Indent} {inner outer : String}
  (hinner : ∀ c ∈ inner.toList, isSpace c = true) (houter : ∀ c ∈ outer.toList, isSpace c = true)
include hinner houter

theorem readItems_intercalate {v : Value} {vs : List Value}
    (hbegins : ∀ u ∈ v :: vs, Begins (write i u).toList)
    (hreads : ∀ u ∈ v :: vs, ReadsBack depth i u) (acc : List Value) (rest : List Char)
    (hfuel : (("," ++ inner).intercalate ((v :: vs).map (write i))).toList.length < fuel) :
    readItems depth fuel acc ((("," ++ inner).intercalate ((v :: vs).map (write i))).toList ++
      (outer.toList ++ ']' :: rest)) = .ok (.list (acc.reverse ++ v :: vs), rest) := by
  induction vs generalizing v acc fuel with
  | nil =>
    obtain ⟨fuel, rfl⟩ : ∃ m, fuel = m + 1 := Nat.exists_eq_add_one.mpr (by omega)
    rw [List.map_singleton, String.intercalate_singleton] at hfuel ⊢
    have hdelimited : Delimited (']' :: rest) := by
      rintro c ⟨⟩
      decide
    exact readItems_last (hreads v (.head _)) (by omega) (delimited_append houter hdelimited) acc
      (skipSpace_append houter _)
  | cons w vs ih =>
    obtain ⟨fuel, rfl⟩ : ∃ m, fuel = m + 1 := Nat.exists_eq_add_one.mpr (by omega)
    have hnext := begins_intercalate (hbegins w (.tail _ (.head _))) ("," ++ inner)
      (vs.map (write i))
    rw [List.map_cons, List.map_cons, String.intercalate_cons_cons] at hfuel ⊢
    simp only [String.toList_append, List.append_assoc, List.length_append] at hfuel ⊢
    have hcomma : ",".toList.length = 1 := rfl
    rw [readItems_more (hreads v (.head _)) (by omega) (delimited_comma _) acc
      (skipSpace_comma _), skipSpace_append hinner, hnext.skipSpace, ← List.map_cons,
      ih (fun u hu => hbegins u (.tail _ hu)) (fun u hu => hreads u (.tail _ hu)) (v :: acc)
        (by rw [List.map_cons]; omega),
      List.reverse_cons, List.append_assoc, List.singleton_append]

theorem readEntries_intercalate {e : Key × Value} {es : Entries}
    (hnames : ∀ f ∈ e :: es, ∃ name, f.1 = .text name ∧ Text.isEncodable name = true)
    (hbegins : ∀ f ∈ e :: es, Begins (write i f.2).toList)
    (hreads : ∀ f ∈ e :: es, ReadsBack depth i f.2) (acc : Entries) (rest : List Char)
    (hfuel : (("," ++ inner).intercalate ((e :: es).map (writeEntry i))).toList.length < fuel) :
    readEntries depth fuel acc
        ((("," ++ inner).intercalate ((e :: es).map (writeEntry i))).toList ++
          (outer.toList ++ '}' :: rest)) =
      .ok (.map (Entries.ofPairs (acc.reverse ++ e :: es)), rest) := by
  induction es generalizing e acc fuel with
  | nil =>
    obtain ⟨fuel, rfl⟩ : ∃ m, fuel = m + 1 := Nat.exists_eq_add_one.mpr (by omega)
    obtain ⟨k, v⟩ := e
    obtain ⟨name, rfl, hname⟩ := hnames _ (.head _)
    rw [List.map_singleton, String.intercalate_singleton] at hfuel ⊢
    have hdelimited : Delimited ('}' :: rest) := by
      rintro c ⟨⟩
      decide
    have hlength := length_writeEntry i (.text name) v
    exact readEntries_last (v := v) (hreads _ (.head _)) (by omega)
      (delimited_append houter hdelimited) (hbegins _ (.head _)) hname acc
      (skipSpace_append houter _)
  | cons f es ih =>
    obtain ⟨fuel, rfl⟩ : ∃ m, fuel = m + 1 := Nat.exists_eq_add_one.mpr (by omega)
    obtain ⟨k, v⟩ := e
    obtain ⟨name, rfl, hname⟩ := hnames _ (.head _)
    have hnext := begins_intercalate (begins_writeEntry i f) ("," ++ inner) (es.map (writeEntry i))
    have hlength := length_writeEntry i (.text name) v
    rw [List.map_cons, List.map_cons, String.intercalate_cons_cons] at hfuel ⊢
    simp only [String.toList_append, List.append_assoc, List.length_append] at hfuel ⊢
    have hcomma : ",".toList.length = 1 := rfl
    rw [readEntries_more (v := v) (hreads _ (.head _)) (by omega) (delimited_comma _)
      (hbegins _ (.head _)) hname acc (skipSpace_comma _), skipSpace_append hinner,
      hnext.skipSpace, ← List.map_cons,
      ih (fun g hg => hnames g (.tail _ hg)) (fun g hg => hbegins g (.tail _ hg))
        (fun g hg => hreads g (.tail _ hg)) _ (by rw [List.map_cons]; omega),
      List.reverse_cons, List.append_assoc, List.singleton_append]

end Runs

section Brackets

variable {depth fuel : Nat} {cs more rest : List Char} (h : Begins cs)
  (hrest : skipSpace rest = cs ++ more)
include h hrest

theorem readValue_list :
    readValue (depth + 1) (fuel + 1) ('[' :: rest) = readItems depth fuel [] (cs ++ more) := by
  obtain ⟨c, tail, rfl, -, hc, -⟩ := h
  rw [readValue, if_neg (Nat.succ_ne_zero depth), hrest]
  split
  next hclose => exact absurd (List.cons.inj hclose).1 hc
  next => rfl

theorem readValue_map :
    readValue (depth + 1) (fuel + 1) ('{' :: rest) = readEntries depth fuel [] (cs ++ more) := by
  obtain ⟨c, tail, rfl, -, -, hc, -⟩ := h
  rw [readValue, if_neg (Nat.succ_ne_zero depth), hrest]
  split
  next hclose => exact absurd (List.cons.inj hclose).1 hc
  next => rfl

end Brackets

theorem readsBack_list {depth : Nat} {i : Indent} {vs : List Value}
    (hbegins : ∀ v ∈ vs, Begins (write i.deeper v).toList)
    (hreads : ∀ v ∈ vs, ReadsBack depth i.deeper v) : ReadsBack (depth + 1) i (.list vs) := by
  intro fuel rest hfuel hrest
  have hopening : "[".toList = ['['] := rfl
  have hclosing : "]".toList = [']'] := rfl
  rw [write, writeItems_eq] at hfuel ⊢
  cases vs with
  | nil =>
    rw [List.map_nil, toList_container_nil, hopening, hclosing] at hfuel ⊢
    obtain ⟨fuel, rfl⟩ := Nat.exists_eq_add_one.mpr (Nat.lt_of_lt_of_le (by decide) hfuel)
    rfl
  | cons v vs =>
    have hnext := begins_intercalate (hbegins v (.head _)) ("," ++ i.deeper.newline)
      (vs.map (write i.deeper))
    rw [← List.map_cons] at hnext
    rw [toList_container i _ _ (by simp), hopening, hclosing] at hfuel ⊢
    simp only [List.singleton_append, List.length_cons, List.length_append] at hfuel
    obtain ⟨fuel, rfl⟩ : ∃ m, fuel = m + 1 := Nat.exists_eq_add_one.mpr (by omega)
    simp only [List.cons_append, List.append_assoc, List.nil_append]
    rw [readValue_list hnext ((skipSpace_append (isSpace_newline i.deeper) _).trans
        (hnext.skipSpace _)),
      readItems_intercalate (isSpace_newline i.deeper) (isSpace_newline i) hbegins hreads [] rest
        (by omega), List.reverse_nil, List.nil_append]

theorem readsBack_map {depth : Nat} {i : Indent} {es : Entries} (hdistinct : es.Distinct)
    (hnames : ∀ e ∈ es, ∃ name, e.1 = .text name ∧ Text.isEncodable name = true)
    (hbegins : ∀ e ∈ es, Begins (write i.deeper e.2).toList)
    (hreads : ∀ e ∈ es, ReadsBack depth i.deeper e.2) : ReadsBack (depth + 1) i (.map es) := by
  intro fuel rest hfuel hrest
  have hopening : "\x7b".toList = ['{'] := rfl
  have hclosing : "\x7d".toList = ['}'] := rfl
  rw [write, writeEntries_eq] at hfuel ⊢
  cases es with
  | nil =>
    rw [List.map_nil, toList_container_nil, hopening, hclosing] at hfuel ⊢
    obtain ⟨fuel, rfl⟩ := Nat.exists_eq_add_one.mpr (Nat.lt_of_lt_of_le (by decide) hfuel)
    rfl
  | cons e es =>
    have hnext := begins_intercalate (begins_writeEntry i.deeper e) ("," ++ i.deeper.newline)
      (es.map (writeEntry i.deeper))
    rw [← List.map_cons] at hnext
    rw [toList_container i _ _ (by simp), hopening, hclosing] at hfuel ⊢
    simp only [List.singleton_append, List.length_cons, List.length_append] at hfuel
    obtain ⟨fuel, rfl⟩ : ∃ m, fuel = m + 1 := Nat.exists_eq_add_one.mpr (by omega)
    simp only [List.cons_append, List.append_assoc, List.nil_append]
    rw [readValue_map hnext ((skipSpace_append (isSpace_newline i.deeper) _).trans
        (hnext.skipSpace _)),
      readEntries_intercalate (isSpace_newline i.deeper) (isSpace_newline i) hnames hbegins hreads
        [] rest (by omega), List.reverse_nil, List.nil_append,
      Entries.ofPairs_of_distinct hdistinct]

theorem begins_container (i : Indent) {opening : String} (h : Begins opening.toList)
    (closing : String) (parts : List String) :
    Begins (container i opening closing parts).toList := by
  obtain ⟨c, tail, htext, hc⟩ := h
  cases parts with
  | nil => exact ⟨c, _, by rw [toList_container_nil, htext, List.cons_append], hc⟩
  | cons part parts =>
    exact ⟨c, _, by rw [toList_container i _ _ (by simp), htext, List.cons_append], hc⟩

theorem begins_and_readsBack {depth : Nat} {v : Value} (h : Layered Restored depth v)
    (i : Indent) : Begins (write i v).toList ∧ ReadsBack depth i v := by
  induction h generalizing i with
  | leaf holds => exact ⟨begins_restored i holds, readsBack_restored _ i holds⟩
  | list items ih =>
    refine ⟨?_, readsBack_list (fun v hv => (ih v hv _).1) fun v hv => (ih v hv _).2⟩
    rw [write]
    exact begins_container i ⟨'[', [], rfl, by decide⟩ _ _
  | map distinct keys values ih =>
    refine ⟨?_, readsBack_map distinct (fun e he => ?_) (fun e he => (ih e he _).1)
      fun e he => (ih e he _).2⟩
    · rw [write]
      exact begins_container i ⟨'{', [], rfl, by decide⟩ _ _
    · obtain ⟨name, hname, hrestored⟩ := keys e he
      cases hrestored with
      | text encodable => exact ⟨name, hname, encodable⟩

/-- A written document is read back, also with spaces after it. -/
theorem read_write {v : Value} (h : Layered Restored depthLimit v) (i : Indent) {spaces : String}
    (hspaces : ∀ c ∈ spaces.toList, isSpace c = true) :
    read (write i v ++ spaces) = .ok v := by
  obtain ⟨hbegins, hreads⟩ := begins_and_readsBack h i
  have hskip : skipSpace spaces.toList = [] := by
    rw [← List.append_nil spaces.toList, skipSpace_append hspaces]
    rfl
  have hdelimited : Delimited spaces.toList := by
    rw [← List.append_nil spaces.toList]
    exact delimited_append hspaces nofun
  have hdocument : readDocument (write i v ++ spaces).toList = .ok v := by
    rw [String.toList_append, readDocument, hbegins.skipSpace,
      hreads _ spaces.toList (by rw [List.length_append]; omega) hdelimited, if_neg]
    · simp only [hskip]
    · obtain ⟨c, tail, htext, -, -, -, hmark⟩ := hbegins
      simpa [htext] using hmark
  rw [read, hdocument]

end SwitchLexicon.Json
