import Mathlib.Data.List.Basic
import SwitchLexicon.Number.Shortest
import SwitchLexicon.Text.Utf8
import SwitchLexicon.Value.Moment

/-!
Texts that UTF-8 can hold, which are those without half of a surrogate pair. The texts of numbers
and of points in time are among them.
-/
namespace SwitchLexicon

namespace Text

def isEncodable (s : String) : Bool :=
  s.toList.all fun c => (surrogate? c).isNone

theorem isSome_encodeUtf8? (s : String) : (encodeUtf8? s).isSome = isEncodable s := by
  have hany : (s.toList.any fun c => (surrogate? c).isSome) = !isEncodable s := by
    rw [isEncodable, List.not_all_eq_any_not]
    simp
  rw [encodeUtf8?, hany]
  cases isEncodable s <;> rfl

@[simp] theorem isEncodable_append (s t : String) :
    isEncodable (s ++ t) = (isEncodable s && isEncodable t) := by
  simp [isEncodable]

theorem isEncodable_ofList (cs : List Char) :
    isEncodable (String.ofList cs) = cs.all fun c => (surrogate? c).isNone := by
  simp [isEncodable]

theorem surrogate?_eq_none {c : Char} (h : c.toNat < 0xDD800) : surrogate? c = none := by
  have hhigh : isHighSurrogate (c.toNat - 0xD0000) = false := by
    rw [isHighSurrogate, Bool.and_eq_false_iff, decide_eq_false_iff_not]
    omega
  have hlow : isLowSurrogate (c.toNat - 0xD0000) = false := by
    rw [isLowSurrogate, Bool.and_eq_false_iff, decide_eq_false_iff_not]
    omega
  rw [surrogate?, hhigh, hlow]
  rfl

theorem isEncodable_of_ascii {cs : List Char} (h : ∀ c ∈ cs, c.toNat < 128) :
    isEncodable (String.ofList cs) = true := by
  rw [isEncodable_ofList, List.all_eq_true]
  intro c hc
  have hlt := h c hc
  rw [surrogate?_eq_none (by omega), Option.isNone_none]

theorem isEncodable_of_subset {cs ds : List Char} (h : cs ⊆ ds)
    (hds : isEncodable (String.ofList ds) = true) : isEncodable (String.ofList cs) = true := by
  rw [isEncodable_ofList, List.all_eq_true] at *
  exact fun c hc => hds c (h hc)

@[simp] theorem isEncodable_nat (n : Nat) : isEncodable (toString n) = true := by
  have hdigits : toString n = String.ofList (Nat.toDigits 10 n) := String.toList_inj.mp (by simp)
  rw [hdigits]
  refine isEncodable_of_ascii fun c hc => ?_
  have hdigit := Nat.isDigit_of_mem_toDigits (by decide) (by decide) hc
  have hle : c.toNat ≤ 57 := (Char.isDigit_iff_toNat.mp hdigit).2
  omega

theorem isEncodable_replicate {c : Char} (h : c.toNat < 128) (n : Nat) :
    isEncodable (String.ofList (List.replicate n c)) = true :=
  isEncodable_of_ascii fun d hd => by rwa [List.eq_of_mem_replicate hd]

theorem isEncodable_int (n : Int) : isEncodable (toString n) = true := by
  cases n with
  | ofNat m => exact isEncodable_nat m
  | negSucc m =>
    have hsign : toString (Int.negSucc m) = "-" ++ toString (m + 1) := rfl
    rw [hsign, isEncodable_append, isEncodable_nat]
    decide

theorem isEncodable_join (ls : List String) :
    isEncodable (String.join ls) = ls.all isEncodable := by
  rw [isEncodable, String.toList_join, List.all_flatMap]
  rfl

theorem isEncodable_intercalate {separator : String} (h : isEncodable separator = true)
    (ls : List String) : isEncodable (separator.intercalate ls) = ls.all isEncodable := by
  have hchars : separator.toList.all (fun c => (surrogate? c).isNone) = true := h
  rw [isEncodable, String.toList_intercalate]
  induction ls with
  | nil => rfl
  | cons l ls ih =>
    cases ls with
    | nil => simp [isEncodable]
    | cons m ls =>
      rw [List.map_cons] at ih
      rw [List.map_cons, List.map_cons, List.intercalate_cons_cons, List.all_append,
        List.all_append, hchars, ih, Bool.and_true]
      rfl

theorem isAscii_hexDigits {width n : Nat} : ∀ c ∈ hexDigits width n, c.toNat < 128 := by
  induction width generalizing n with
  | zero => simp [hexDigits]
  | succ width ih =>
    intro c hc
    rw [hexDigits, List.mem_append, List.mem_singleton] at hc
    rcases hc with hc | rfl
    · exact ih c hc
    · have hdigit : ∀ m < 16, (hexDigit m).toNat < 128 := by decide
      exact hdigit _ (Nat.mod_lt n (by decide))

end Text

open Text

@[simp] theorem Binary64.isEncodable_zeros (n : Nat) : isEncodable (zeros n) = true :=
  isEncodable_replicate (by decide) n

theorem Binary64.Decimal.isEncodable_text (d : Decimal) : isEncodable d.text = true := by
  have hdigits : isEncodable (String.ofList (toString d.digits).toList) = true := by
    rw [String.ofList_toList, isEncodable_nat]
  have htake : ∀ k, isEncodable (String.ofList ((toString d.digits).toList.take k)) = true :=
    fun k => isEncodable_of_subset (List.take_subset k _) hdigits
  have hdrop : ∀ k, isEncodable (String.ofList ((toString d.digits).toList.drop k)) = true :=
    fun k => isEncodable_of_subset (List.drop_subset k _) hdigits
  rw [Decimal.text]
  split
  · split
    · simp only [isEncodable_append, hdigits, isEncodable_zeros]
      decide
    · split
      · simp only [isEncodable_append, htake, hdrop]
        decide
      · simp only [isEncodable_append, hdigits, isEncodable_zeros]
        decide
  · simp only [isEncodable_append, htake, apply_ite isEncodable, isEncodable_nat, hdrop]
    split_ifs <;> decide

theorem Binary64.isEncodable_text (x : Binary64) : isEncodable x.text = true := by
  rw [Binary64.text]
  split
  · decide
  · simp only [isEncodable_append, apply_ite isEncodable, Decimal.isEncodable_text]
    cases x.isNegative <;> cases x.isInfinite <;> decide

@[simp] theorem isEncodable_padded (width n : Nat) : isEncodable (padded width n) = true := by
  rw [padded, isEncodable_append, isEncodable_nat, isEncodable_replicate (by decide)]
  rfl

theorem Date.isEncodable_text (d : Date) : isEncodable d.text = true := by
  simp only [Date.text, isEncodable_append, isEncodable_padded]
  decide

theorem TimeOfDay.isEncodable_text (t : TimeOfDay) : isEncodable t.text = true := by
  have hfraction : isEncodable (if t.micro = 0 then "" else "." ++ padded 6 t.micro) = true := by
    split
    · decide
    · rw [isEncodable_append, isEncodable_padded]
      decide
  simp only [TimeOfDay.text, isEncodable_append, isEncodable_padded, hfraction]
  decide

theorem isEncodable_offsetText (minutes : Int) : isEncodable (offsetText minutes) = true := by
  have hsign : isEncodable (if minutes < 0 then "-" else "+") = true := by
    split <;> decide
  simp only [offsetText, isEncodable_append, isEncodable_padded, hsign]
  decide

theorem Moment.isEncodable_text (m : Moment) : isEncodable m.text = true := by
  cases m with
  | date d => exact d.isEncodable_text
  | time t => exact t.isEncodable_text
  | point d t offset =>
    have hoffset : isEncodable ((offset.map offsetText).getD "") = true := by
      cases offset with
      | none => decide
      | some minutes => exact isEncodable_offsetText minutes
    simp only [Moment.text, isEncodable_append, d.isEncodable_text, t.isEncodable_text, hoffset]
    decide

end SwitchLexicon
