import Mathlib.Data.List.Infix
import SwitchLexicon.Json.Reader

/-!
The limits of JSON reading. A reader that gives up because of a limit has met a text that shows it:
a run of digits that is too long, or more opening brackets than levels are allowed.
-/
namespace SwitchLexicon.Json

def isOpening (c : Char) : Bool :=
  c = '[' || c = '{'

def HasLongNumber (cs : List Char) : Prop :=
  ∃ run, run <:+: cs ∧ run.all isAsciiDigit = true ∧ digitLimit < run.length

/-- What the outcome of a reader tells about its text, with `depth` levels still allowed: reading
goes on behind what was read, and a limit is hit for a reason. -/
def Accounts {α : Type} (depth : Nat) (cs : List Char) : Read α → Prop
  | .ok (_, rest) => rest <:+ cs
  | .error (.fault _ _) => True
  | .error (.digits _) => HasLongNumber cs
  | .error (.nesting _) => depth < cs.countP isOpening

namespace Accounts

theorem of_suffix {α : Type} {depth : Nat} {cs ds : List Char} {r : Read α}
    (h : Accounts depth cs r) (hsuffix : cs <:+ ds) : Accounts depth ds r := by
  match r, h with
  | .ok (_, rest), h => exact List.IsSuffix.trans h hsuffix
  | .error (.fault _ _), _ => trivial
  | .error (.digits _), ⟨run, hrun, hdigits, hlong⟩ =>
    exact ⟨run, hrun.trans hsuffix.isInfix, hdigits, hlong⟩
  | .error (.nesting _), h => exact Nat.lt_of_lt_of_le h (hsuffix.sublist.countP_le)

theorem of_opening {α : Type} {depth : Nat} {c : Char} {cs : List Char} {r : Read α}
    (h : Accounts depth cs r) (hc : isOpening c = true) : Accounts (depth + 1) (c :: cs) r := by
  match r, h with
  | .ok (_, rest), h => exact List.IsSuffix.trans h (List.suffix_cons c cs)
  | .error (.fault _ _), _ => trivial
  | .error (.digits _), ⟨run, hrun, hdigits, hlong⟩ =>
    exact ⟨run, hrun.trans (List.suffix_cons c cs).isInfix, hdigits, hlong⟩
  | .error (.nesting _), h =>
    change depth + 1 < List.countP isOpening (c :: cs)
    rw [List.countP_cons_of_pos hc]
    exact Nat.succ_lt_succ h

theorem of_error {α β : Type} {depth : Nat} {cs : List Char} {e : Stop}
    (h : Accounts depth cs (.error e : Read α)) : Accounts depth cs (.error e : Read β) := by
  cases e <;> exact h

end Accounts

theorem skipSpace_suffix (cs : List Char) : skipSpace cs <:+ cs :=
  List.dropWhile_suffix _

theorem suffix_of_skipSpace {cs rest : List Char} {c : Char} (h : skipSpace cs = c :: rest) :
    rest <:+ cs :=
  (List.suffix_cons c rest).trans (h ▸ skipSpace_suffix cs)

theorem readText_accounts (depth : Nat) (opening acc : List Char) (high : Option Nat)
    (cs : List Char) : Accounts depth cs (readText opening acc high cs) := by
  fun_induction readText opening acc high cs with
  | case2 acc high rest => exact List.suffix_cons _ rest
  | case6 acc high a b c d tail n _ _ ih =>
    exact ih.of_suffix (List.suffix_append ['\\', 'u', a, b, c, d] tail)
  | case8 acc high e tail _ _ c _ ih => exact ih.of_suffix (List.suffix_append ['\\', e] tail)
  | case11 acc high c rest _ _ _ ih => exact ih.of_suffix (List.suffix_cons c rest)
  | _ => trivial

theorem readQuoted_accounts (depth : Nat) (rest : List Char) :
    Accounts depth ('"' :: rest) (readText ('"' :: rest) [] none rest) :=
  (readText_accounts depth ('"' :: rest) [] none rest).of_suffix (List.suffix_cons '"' rest)

theorem fractionOf_suffix (cs : List Char) : (fractionOf cs).2 <:+ cs := by
  fun_cases fractionOf cs with
  | case2 cs ds hds => exact (List.dropWhile_suffix _).trans (List.suffix_cons _ cs)
  | _ => exact List.suffix_rfl

theorem unsigned_suffix (signed : Bool) (cs : List Char) :
    (if signed then cs.drop 1 else cs) <:+ cs := by
  split
  · exact List.drop_suffix 1 cs
  · exact List.suffix_rfl

theorem exponentOf_suffix (cs : List Char) : (exponentOf cs).2 <:+ cs := by
  fun_cases exponentOf cs with
  | case2 c rest he negative body ds hds n =>
    exact (List.dropWhile_suffix _).trans ((unsigned_suffix _ rest).trans (List.suffix_cons c rest))
  | _ => exact List.suffix_rfl

theorem afterExponent_suffix {cs fraction middle rest : List Char} {exponent : Option Int}
    (hfraction : fractionOf cs = (fraction, middle))
    (hexponent : exponentOf middle = (exponent, rest)) : rest <:+ cs := by
  have hmiddle := fractionOf_suffix cs
  have hrest := exponentOf_suffix middle
  rw [hfraction] at hmiddle
  rw [hexponent] at hrest
  exact hrest.trans hmiddle

theorem readNumber_accounts (depth : Nat) (cs : List Char) :
    Accounts depth cs (readNumber cs) := by
  fun_cases readNumber cs with
  | case1 => trivial
  | case2 negative body whole _ fraction middle _ exponent rest _ _ hlong =>
    have hwhole : whole = body.takeWhile isAsciiDigit := by
      refine if_neg fun hzero => ?_
      have hone : whole = ['0'] := if_pos hzero
      simp [hone, digitLimit] at hlong
    refine ⟨whole, ?_, ?_, hlong⟩ <;> rw [hwhole]
    · exact (List.takeWhile_prefix _).isInfix.trans (unsigned_suffix negative cs).isInfix
    · exact List.all_takeWhile
  | case3 negative body whole _ fraction middle hfraction exponent rest hexponent _ _ n =>
    exact (afterExponent_suffix hfraction hexponent).trans
      ((List.drop_suffix _ body).trans (unsigned_suffix negative cs))
  | case4 negative body whole _ fraction middle hfraction exponent rest hexponent _ =>
    exact (afterExponent_suffix hfraction hexponent).trans
      ((List.drop_suffix _ body).trans (unsigned_suffix negative cs))

theorem readScalar_accounts (depth : Nat) (cs : List Char) :
    Accounts depth cs (readScalar cs) := by
  rw [readScalar]
  split
  · exact List.drop_suffix _ cs
  · exact readNumber_accounts depth cs

structure ReadersAccount (fuel : Nat) : Prop where
  value : ∀ depth cs, Accounts depth cs (readValue depth fuel cs)
  items : ∀ depth acc cs, Accounts depth cs (readItems depth fuel acc cs)
  entries : ∀ depth acc cs, Accounts depth cs (readEntries depth fuel acc cs)

section Readers

variable {fuel : Nat} (ih : ∀ m < fuel, ReadersAccount m)
include ih

theorem readValue_accounts (depth : Nat) (cs : List Char) :
    Accounts depth cs (readValue depth fuel cs) := by
  fun_cases readValue depth fuel cs with
  | case1 => trivial
  | case2 fuel rest e htext =>
    have h := readQuoted_accounts depth rest
    rw [htext] at h
    rw [htext]
    exact h.of_error
  | case3 fuel tail s rest htext =>
    have h := readQuoted_accounts depth tail
    rw [htext] at h
    rw [htext]
    exact h
  | case4 fuel rest hdepth =>
    change depth < List.countP isOpening ('[' :: rest)
    simp [hdepth, isOpening]
  | case5 fuel tail hdepth rest hclose =>
    exact (suffix_of_skipSpace hclose).trans (List.suffix_cons '[' tail)
  | case6 fuel rest hdepth _ =>
    have h := ((ih fuel (Nat.lt_succ_self fuel)).items (depth - 1) [] (skipSpace rest)).of_suffix
      (skipSpace_suffix rest)
    rw [← Nat.sub_one_add_one hdepth]
    exact h.of_opening rfl
  | case7 fuel rest hdepth =>
    change depth < List.countP isOpening (_ :: rest)
    simp [hdepth, isOpening]
  | case8 fuel tail hdepth rest hclose =>
    exact (suffix_of_skipSpace hclose).trans (List.suffix_cons _ tail)
  | case9 fuel rest hdepth _ =>
    have h := ((ih fuel (Nat.lt_succ_self fuel)).entries (depth - 1) [] (skipSpace rest)).of_suffix
      (skipSpace_suffix rest)
    rw [← Nat.sub_one_add_one hdepth]
    exact h.of_opening rfl
  | case10 => exact readScalar_accounts depth cs

theorem readItems_accounts (depth : Nat) (acc : List Value) (cs : List Char) :
    Accounts depth cs (readItems depth fuel acc cs) := by
  fun_cases readItems depth fuel acc cs with
  | case1 => trivial
  | case2 fuel _ _ e hvalue =>
    have h := (ih fuel (Nat.lt_succ_self fuel)).value depth cs
    rwa [hvalue] at h
  | case3 fuel _ _ v tail hvalue rest hclose =>
    have h := (ih fuel (Nat.lt_succ_self fuel)).value depth cs
    rw [hvalue] at h
    exact (suffix_of_skipSpace hclose).trans h
  | case4 fuel _ _ v tail hvalue rest hcomma =>
    have h := (ih fuel (Nat.lt_succ_self fuel)).value depth cs
    rw [hvalue] at h
    refine ((ih fuel (Nat.lt_succ_self fuel)).items depth (v :: acc) (skipSpace rest)).of_suffix ?_
    exact (skipSpace_suffix rest).trans ((suffix_of_skipSpace hcomma).trans h)
  | case5 => trivial

theorem readEntries_accounts (depth : Nat) (acc : Entries) (cs : List Char) :
    Accounts depth cs (readEntries depth fuel acc cs) := by
  cases fuel with
  | zero => trivial
  | succ fuel =>
    have hreaders := ih fuel (Nat.lt_succ_self fuel)
    rw [readEntries.eq_def]
    dsimp only
    split
    · next rest =>
      have hname := readQuoted_accounts depth rest
      split
      · next e he => exact (he ▸ hname).of_error
      · next name afterName htext =>
        rw [htext] at hname
        split
        · next afterColon hcolon =>
          have hvalue := (hreaders.value depth (skipSpace afterColon)).of_suffix
            ((skipSpace_suffix afterColon).trans ((suffix_of_skipSpace hcolon).trans hname))
          split
          · next e he => exact he ▸ hvalue
          · next v afterValue hread =>
            rw [hread] at hvalue
            split
            · next rest hclose => exact (suffix_of_skipSpace hclose).trans hvalue
            · next rest hcomma =>
              exact (hreaders.entries depth _ (skipSpace rest)).of_suffix
                ((skipSpace_suffix rest).trans ((suffix_of_skipSpace hcomma).trans hvalue))
            · trivial
        · trivial
    · trivial

end Readers

theorem readersAccount (fuel : Nat) : ReadersAccount fuel := by
  induction fuel using Nat.strongRecOn with
  | ind fuel ih => exact ⟨readValue_accounts ih, readItems_accounts ih, readEntries_accounts ih⟩

theorem readDocument_accounts (cs : List Char) {e : Stop} (h : readDocument cs = .error e) :
    Accounts depthLimit cs (.error e : Read Value) := by
  rw [readDocument] at h
  split at h
  · cases h
    trivial
  · have hvalue := ((readersAccount (2 * cs.length + 2)).value depthLimit (skipSpace cs)).of_suffix
      (skipSpace_suffix cs)
    split at h
    · next stop hstop =>
      cases h
      rwa [hstop] at hvalue
    · split at h
      · cases h
      · cases h
        trivial

/-- Of all that can go wrong, what no mistake in the text is to blame for. -/
def Error.isLimit : Error → Bool
  | .malformed _ _ => false
  | _ => true

structure IsModest (text : String) : Prop where
  numbers : ¬ HasLongNumber text.toList
  brackets : text.toList.countP isOpening ≤ depthLimit

theorem IsModest.isLimit_eq_false {text : String} (h : IsModest text) {e : Error}
    (he : read text = .error e) : e.isLimit = false := by
  rw [read] at he
  split at he
  · cases he
  · cases he
    rfl
  · next count hstop => exact absurd (readDocument_accounts _ hstop) h.numbers
  · next isList hstop => exact absurd (readDocument_accounts _ hstop) (Nat.not_lt.mpr h.brackets)

end SwitchLexicon.Json
