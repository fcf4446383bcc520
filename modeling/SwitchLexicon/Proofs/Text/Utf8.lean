import SwitchLexicon.Text.Utf8

/-!
Strict UTF-8 is exact: bytes are read as a text if and only if they are its written form. So a text
has one form, and bytes that are no such form are refused.
-/
namespace SwitchLexicon.Text

theorem continues_iff (b : UInt8) : continues b = true ↔ 0x80 ≤ b.toNat ∧ b.toNat ≤ 0xBF := by
  simp [continues]

theorem secondFits_iff (a b : UInt8) :
    secondFits a b = true ↔ (0x80 ≤ b.toNat ∧ b.toNat ≤ 0xBF) ∧
      (a.toNat = 0xE0 → 0xA0 ≤ b.toNat) ∧ (a.toNat = 0xED → b.toNat < 0xA0) ∧
      (a.toNat = 0xF0 → 0x90 ≤ b.toNat) ∧ (a.toNat = 0xF4 → b.toNat < 0x90) := by
  simp only [secondFits, Bool.and_eq_true, continues_iff, Bool.not_eq_true', Bool.and_eq_false_imp,
    beq_iff_eq, decide_eq_false_iff_not, Nat.not_lt, Nat.not_le, and_assoc]

/-- The bytes that the reader takes for one character. -/
inductive Spells : Char → List UInt8 → Prop
  | one {a : UInt8} (ha : a.toNat < 0x80) : Spells (Char.ofNat a.toNat) [a]
  | two {a b : UInt8} (ha : 0xC2 ≤ a.toNat ∧ a.toNat < 0xE0) (hb : secondFits a b = true) :
      Spells (Char.ofNat (a.toNat % 32 * 64 + low6 b)) [a, b]
  | three {a b c : UInt8} (ha : 0xE0 ≤ a.toNat ∧ a.toNat < 0xF0) (hb : secondFits a b = true)
      (hc : continues c = true) :
      Spells (Char.ofNat ((a.toNat % 16 * 64 + low6 b) * 64 + low6 c)) [a, b, c]
  | four {a b c d : UInt8} (ha : 0xF0 ≤ a.toNat ∧ a.toNat < 0xF5) (hb : secondFits a b = true)
      (hc : continues c = true) (hd : continues d = true) :
      Spells (Char.ofNat (((a.toNat % 8 * 64 + low6 b) * 64 + low6 c) * 64 + low6 d)) [a, b, c, d]

theorem decodeFrom_of_spells {x : Char} {bytes : List UInt8} (h : Spells x bytes) (position : Nat)
    (acc : List Char) (rest : List UInt8) :
    decodeFrom position acc (bytes ++ rest) =
      decodeFrom (position + bytes.length) (x :: acc) rest := by
  cases h with
  | one ha =>
    rw [List.cons_append, decodeFrom.eq_def]
    simp [ha]
  | @two a b ha hb =>
    have h1 : ¬ a.toNat < 0x80 := by omega
    have h2 : ¬ (a.toNat < 0xC2 ∨ 0xF5 ≤ a.toNat) := by omega
    rw [List.cons_append, decodeFrom.eq_def]
    simp [h1, h2, hb, ha.2]
  | @three a b c ha hb hc =>
    have h1 : ¬ a.toNat < 0x80 := by omega
    have h2 : ¬ (a.toNat < 0xC2 ∨ 0xF5 ≤ a.toNat) := by omega
    have h3 : ¬ a.toNat < 0xE0 := by omega
    rw [List.cons_append, decodeFrom.eq_def]
    simp [h1, h2, h3, hb, hc, ha.2]
  | @four a b c d ha hb hc hd =>
    have h1 : ¬ a.toNat < 0x80 := by omega
    have h2 : ¬ (a.toNat < 0xC2 ∨ 0xF5 ≤ a.toNat) := by omega
    have h3 : ¬ a.toNat < 0xE0 := by omega
    have h4 : ¬ a.toNat < 0xF0 := by omega
    rw [List.cons_append, decodeFrom.eq_def]
    simp [h1, h2, h3, h4, hb, hc, hd]

theorem toNat_ofNat {n : Nat} (h : n.isValidChar) : (Char.ofNat n).toNat = n := by
  rw [Char.ofNat, dif_pos h]
  rfl

theorem toUInt8_eq {n : Nat} {b : UInt8} (h : n = b.toNat) : n.toUInt8 = b := by
  simp [h]

theorem encodeChar_of_spells {x : Char} {bytes : List UInt8} (h : Spells x bytes) :
    encodeChar x = bytes := by
  cases h with
  | @one a ha =>
    have hx := toNat_ofNat (n := a.toNat) (by left; omega)
    simp [encodeChar, hx, ha]
  | @two a b ha hb =>
    rw [secondFits_iff] at hb
    simp only [low6]
    generalize hn : a.toNat % 32 * 64 + b.toNat % 64 = n
    have hx := toNat_ofNat (n := n) (by left; omega)
    have h1 : ¬ n < 0x80 := by omega
    have h2 : n < 0x800 := by omega
    simp only [encodeChar, hx, h1, h2, if_false, if_true, List.cons.injEq, and_true]
    exact ⟨toUInt8_eq (by omega), toUInt8_eq (by omega)⟩
  | @three a b c ha hb hc =>
    rw [secondFits_iff] at hb
    rw [continues_iff] at hc
    simp only [low6]
    generalize hn : (a.toNat % 16 * 64 + b.toNat % 64) * 64 + c.toNat % 64 = n
    have hx := toNat_ofNat (n := n) (by simp only [Nat.isValidChar]; omega)
    have h1 : ¬ n < 0x80 := by omega
    have h2 : ¬ n < 0x800 := by omega
    have h3 : n < 0x10000 := by omega
    simp only [encodeChar, hx, h1, h2, h3, if_false, if_true, List.cons.injEq, and_true]
    exact ⟨toUInt8_eq (by omega), toUInt8_eq (by omega), toUInt8_eq (by omega)⟩
  | @four a b c d ha hb hc hd =>
    rw [secondFits_iff] at hb
    rw [continues_iff] at hc hd
    simp only [low6]
    generalize hn : ((a.toNat % 8 * 64 + b.toNat % 64) * 64 + c.toNat % 64) * 64 + d.toNat % 64 = n
    have hx := toNat_ofNat (n := n) (by simp only [Nat.isValidChar]; omega)
    have h1 : ¬ n < 0x80 := by omega
    have h2 : ¬ n < 0x800 := by omega
    have h3 : ¬ n < 0x10000 := by omega
    simp only [encodeChar, hx, h1, h2, h3, if_false, List.cons.injEq, and_true]
    exact ⟨toUInt8_eq (by omega), toUInt8_eq (by omega), toUInt8_eq (by omega),
      toUInt8_eq (by omega)⟩

theorem toNat_toUInt8 {n : Nat} (h : n < 256) : n.toUInt8.toNat = n := by
  simp [Nat.toUInt8, Nat.mod_eq_of_lt h]

theorem toNat_cases (c : Char) : c.toNat < 0xD800 ∨ (0xDFFF < c.toNat ∧ c.toNat < 0x110000) :=
  c.valid

theorem spells_encodeChar (x : Char) : Spells x (encodeChar x) := by
  have hcases := toNat_cases x
  generalize hn : x.toNat = n at hcases
  have hx : Char.ofNat n = x := hn ▸ Char.ofNat_toNat x
  -- the last byte of all the longer forms
  have hlast : (0x80 + n % 64).toUInt8.toNat = 0x80 + n % 64 := toNat_toUInt8 (by omega)
  have hmiddle : (0x80 + n / 64 % 64).toUInt8.toNat = 0x80 + n / 64 % 64 :=
    toNat_toUInt8 (by omega)
  simp only [encodeChar, hn]
  split
  · have ha : n.toUInt8.toNat = n := toNat_toUInt8 (by omega)
    have h := Spells.one (a := n.toUInt8) (by omega)
    rwa [ha, hx] at h
  split
  · have ha : (0xC0 + n / 64).toUInt8.toNat = 0xC0 + n / 64 := toNat_toUInt8 (by omega)
    have hcode : (0xC0 + n / 64) % 32 * 64 + (0x80 + n % 64) % 64 = n := by omega
    have h := Spells.two (a := (0xC0 + n / 64).toUInt8) (by omega)
      ((secondFits_iff _ (0x80 + n % 64).toUInt8).mpr (by omega))
    rwa [low6, ha, hlast, hcode, hx] at h
  split
  · have ha : (0xE0 + n / 4096).toUInt8.toNat = 0xE0 + n / 4096 := toNat_toUInt8 (by omega)
    have hcode : ((0xE0 + n / 4096) % 16 * 64 + (0x80 + n / 64 % 64) % 64) * 64 +
        (0x80 + n % 64) % 64 = n := by omega
    have h := Spells.three (a := (0xE0 + n / 4096).toUInt8) (by omega)
      ((secondFits_iff _ (0x80 + n / 64 % 64).toUInt8).mpr (by omega))
      ((continues_iff (0x80 + n % 64).toUInt8).mpr (by omega))
    rwa [low6, low6, ha, hmiddle, hlast, hcode, hx] at h
  · have ha : (0xF0 + n / 262144).toUInt8.toNat = 0xF0 + n / 262144 := toNat_toUInt8 (by omega)
    have hb : (0x80 + n / 4096 % 64).toUInt8.toNat = 0x80 + n / 4096 % 64 :=
      toNat_toUInt8 (by omega)
    have hcode : (((0xF0 + n / 262144) % 8 * 64 + (0x80 + n / 4096 % 64) % 64) * 64 +
        (0x80 + n / 64 % 64) % 64) * 64 + (0x80 + n % 64) % 64 = n := by omega
    have h := Spells.four (a := (0xF0 + n / 262144).toUInt8) (by omega)
      ((secondFits_iff _ (0x80 + n / 4096 % 64).toUInt8).mpr (by omega))
      ((continues_iff (0x80 + n / 64 % 64).toUInt8).mpr (by omega))
      ((continues_iff (0x80 + n % 64).toUInt8).mpr (by omega))
    rwa [low6, low6, low6, ha, hb, hmiddle, hlast, hcode, hx] at h

theorem decodeFrom_encode (position : Nat) (acc cs : List Char) :
    decodeFrom position acc (cs.flatMap encodeChar) = .ok (acc.reverse ++ cs) := by
  induction cs generalizing position acc with
  | nil => simp [decodeFrom]
  | cons c cs ih =>
    rw [List.flatMap_cons, decodeFrom_of_spells (spells_encodeChar c), ih]
    simp

def SpellsRest (acc : List Char) (bytes : List UInt8) (cs : List Char) : Prop :=
  ∃ ds, cs = acc.reverse ++ ds ∧ bytes = ds.flatMap encodeChar

theorem Spells.append {x : Char} {front : List UInt8} (hx : Spells x front) {acc cs : List Char}
    {rest : List UInt8} (h : SpellsRest (x :: acc) rest cs) :
    SpellsRest acc (front ++ rest) cs := by
  obtain ⟨ds, hcs, hrest⟩ := h
  refine ⟨x :: ds, by simp [hcs], ?_⟩
  rw [List.flatMap_cons, encodeChar_of_spells hx, hrest]

theorem spellsRest_of_decodeFrom {position : Nat} {acc : List Char} {bytes : List UInt8}
    {cs : List Char} (h : decodeFrom position acc bytes = .ok cs) : SpellsRest acc bytes cs := by
  fun_induction decodeFrom position acc bytes with
  | case1 => exact ⟨[], by simpa using h.symm, rfl⟩
  | case2 position acc a rest n ha ih => exact (Spells.one ha).append (ih h)
  | case6 position acc a n ha hstart b rest hb hwidth ih =>
    have hb : secondFits a b = true := by simpa using hb
    exact (Spells.two (by omega) hb).append (ih h)
  | case9 position acc a n ha hstart b hb hwidth c rest hc hwidth' ih =>
    have hb : secondFits a b = true := by simpa using hb
    have hc : continues c = true := by simpa using hc
    exact (Spells.three (by omega) hb hc).append (ih h)
  | case12 position acc a n ha hstart b hb hwidth c hc hwidth' d rest hd ih =>
    have hb : secondFits a b = true := by simpa using hb
    have hc : continues c = true := by simpa using hc
    have hd : continues d = true := by simpa using hd
    exact (Spells.four (by omega) hb hc hd).append (ih h)
  | _ => simp at h

theorem decodeUtf8_eq_ok_iff (bytes : List UInt8) (s : String) :
    decodeUtf8 bytes = .ok s ↔ bytes = encodeUtf8 s := by
  constructor
  · intro h
    cases hcs : decodeFrom 0 [] bytes with
    | error e => simp [decodeUtf8, hcs, Except.map] at h
    | ok cs =>
      obtain ⟨ds, rfl, hbytes⟩ := spellsRest_of_decodeFrom hcs
      have hs : String.ofList cs = s := by simpa [decodeUtf8, hcs, Except.map] using h
      rw [hbytes, encodeUtf8, ← hs, String.toList_ofList]
  · rintro rfl
    simp [decodeUtf8, encodeUtf8, decodeFrom_encode, Except.map]

theorem encodeUtf8_injective {s t : String} (h : encodeUtf8 s = encodeUtf8 t) : s = t := by
  have hs := (decodeUtf8_eq_ok_iff (encodeUtf8 t) s).mpr h.symm
  have ht := (decodeUtf8_eq_ok_iff (encodeUtf8 t) t).mpr rfl
  exact Except.ok.inj (hs.symm.trans ht)

end SwitchLexicon.Text
