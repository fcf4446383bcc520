import Mathlib.Tactic.Common
import SwitchLexicon.Console.Markup

/-!
Escaped texts. The console takes what looks like a tag for a tag unless an odd number of backslashes
stands before it. Escaping puts that number before every tag, and leaves a text alone exactly if
nothing in it looks like a tag and no single backslash ends it.
-/
namespace SwitchLexicon.Markup

def hasTag : List Char → Bool
  | [] => false
  | c :: cs => (tag? (c :: cs)).isSome || hasTag cs

def isPlain (s : String) : Bool :=
  !hasTag s.toList && !endsInSingleSlash s.toList

/-- Every tag is taken for plain text; `slashes` counts the backslashes just before. -/
def guardsFrom (slashes : Nat) : List Char → Bool
  | [] => true
  | c :: cs =>
    if c = '\\' then guardsFrom (slashes + 1) cs
    else (!(tag? (c :: cs)).isSome || slashes % 2 == 1) && guardsFrom 0 cs

def isGuarded (s : String) : Bool :=
  guardsFrom 0 s.toList

/-! ## Tags -/

theorem tagBody?_cons {c : Char} (hclose : c ≠ ']') (hopen : c ≠ '[') (cs : List Char) :
    tagBody? (c :: cs) = (tagBody? cs).map fun (body, rest) => (c :: body, rest) := by
  rw [tagBody?, if_neg hclose, if_neg hopen]

theorem tag?_of_ne {c : Char} (hc : c ≠ '[') (cs : List Char) : tag? (c :: cs) = none := by
  rw [tag?]
  rintro d ds hcons
  exact hc (List.cons.inj hcons).1

theorem tagBody?_inversion {cs body rest : List Char} (h : tagBody? cs = some (body, rest)) :
    cs = body ++ rest ∧ '[' ∉ body ∧ ∃ front, body = front ++ [']'] := by
  induction cs generalizing body with
  | nil => cases h
  | cons c cs ih =>
    by_cases hclose : c = ']'
    · subst hclose
      rw [tagBody?, if_pos rfl] at h
      obtain ⟨rfl, rfl⟩ := Prod.mk.inj (Option.some.inj h)
      exact ⟨rfl, by decide, [], rfl⟩
    · by_cases hopen : c = '['
      · subst hopen
        cases h
      · rw [tagBody?_cons hclose hopen] at h
        obtain ⟨⟨inner, rest'⟩, hinner, heq⟩ := Option.map_eq_some_iff.mp h
        obtain ⟨rfl, rfl⟩ := Prod.mk.inj heq
        obtain ⟨rfl, hnone, front, rfl⟩ := ih hinner
        exact ⟨rfl, by simp [hnone, Ne.symm hopen], c :: front, rfl⟩

theorem tag?_inversion {c : Char} {cs tag rest : List Char}
    (h : tag? (c :: cs) = some (tag, rest)) :
    c = '[' ∧ ∃ body, tag = '[' :: body ∧ cs = body ++ rest ∧ '[' ∉ body ∧
      ∃ front, body = front ++ [']'] := by
  by_cases hc : c = '['
  · subst hc
    refine ⟨rfl, ?_⟩
    cases cs with
    | nil => cases h
    | cons d ds =>
      rw [tag?] at h
      split at h
      next hopens =>
        obtain ⟨⟨inner, rest'⟩, hinner, heq⟩ := Option.map_eq_some_iff.mp h
        obtain ⟨rfl, rfl⟩ := Prod.mk.inj heq
        obtain ⟨rfl, hnone, front, rfl⟩ := tagBody?_inversion hinner
        have hd : d ≠ '[' := by
          rintro rfl
          exact absurd hopens (by decide)
        exact ⟨d :: (front ++ [']']), rfl, rfl, by simp_all [Ne.symm hd], d :: front, rfl⟩
      next => cases h
  · rw [tag?_of_ne hc] at h
    cases h

/-! ## One step of escaping -/

theorem escapeFrom_slash (slashes : Nat) (cs : List Char) :
    escapeFrom slashes 0 ('\\' :: cs) = '\\' :: escapeFrom (slashes + 1) 0 cs := by
  rw [escapeFrom, if_pos rfl]

theorem escapeFrom_plain (slashes : Nat) {c : Char} {cs : List Char} (hc : c ≠ '\\')
    (h : tag? (c :: cs) = none) : escapeFrom slashes 0 (c :: cs) = c :: escapeFrom 0 0 cs := by
  rw [escapeFrom, if_neg hc, h]

theorem escapeFrom_skip (front rest : List Char) :
    escapeFrom 0 front.length (front ++ rest) = front ++ escapeFrom 0 0 rest := by
  induction front with
  | nil => rfl
  | cons c front ih => rw [List.length_cons, List.cons_append, escapeFrom, ih, List.cons_append]

theorem escapeFrom_tag (slashes : Nat) {c : Char} {cs tag rest : List Char}
    (h : tag? (c :: cs) = some (tag, rest)) : escapeFrom slashes 0 (c :: cs) =
      List.replicate (slashes + 1) '\\' ++ (tag ++ escapeFrom 0 0 rest) := by
  obtain ⟨rfl, body, rfl, rfl, -⟩ := tag?_inversion h
  rw [escapeFrom, if_neg (by decide), h]
  simp only [List.length_cons, Nat.add_sub_cancel, escapeFrom_skip]
  rfl

/-- Escaping goes on after a backslash, a tag or any other character. -/
theorem escapeInduction {motive : List Char → Prop} (nil : motive [])
    (slash : ∀ cs, motive cs → motive ('\\' :: cs))
    (plain : ∀ c cs, c ≠ '\\' → tag? (c :: cs) = none → motive cs → motive (c :: cs))
    (tag : ∀ body rest, tag? ('[' :: (body ++ rest)) = some ('[' :: body, rest) → motive rest →
      motive ('[' :: (body ++ rest))) (cs : List Char) : motive cs := by
  induction hlength : cs.length using Nat.strongRecOn generalizing cs with
  | ind n ih =>
    cases cs with
    | nil => exact nil
    | cons c cs =>
      by_cases hc : c = '\\'
      · subst hc
        exact slash cs (ih cs.length (by simp [← hlength]) cs rfl)
      · cases htag : tag? (c :: cs) with
        | none => exact plain c cs hc htag (ih cs.length (by simp [← hlength]) cs rfl)
        | some found =>
          obtain ⟨rfl, body, hbody, rfl, -⟩ := tag?_inversion htag
          refine tag body found.2 (htag.trans (by rw [← hbody])) (ih _ ?_ found.2 rfl)
          rw [List.length_cons, List.length_append] at hlength
          omega

/-! ## Texts that need no escape -/

theorem escapeFrom_of_hasTag_false {cs : List Char} (h : hasTag cs = false) (slashes : Nat) :
    escapeFrom slashes 0 cs = cs := by
  induction cs generalizing slashes with
  | nil => rfl
  | cons c cs ih =>
    rw [hasTag, Bool.or_eq_false_iff] at h
    by_cases hc : c = '\\'
    · subst hc
      rw [escapeFrom_slash, ih h.2]
    · rw [escapeFrom_plain slashes hc (by simpa using h.1), ih h.2]

/-- Escaping only puts characters in, at least one for each tag. -/
theorem sublist_escapeFrom (cs : List Char) : ∀ slashes,
    cs.Sublist (escapeFrom slashes 0 cs) ∧
      (hasTag cs = true → cs.length < (escapeFrom slashes 0 cs).length) := by
  induction cs using escapeInduction with
  | nil => exact fun slashes => ⟨List.Sublist.refl _, fun h => by cases h⟩
  | slash cs ih =>
    intro slashes
    have htag : tag? ('\\' :: cs) = none := tag?_of_ne (by decide) cs
    rw [escapeFrom_slash, hasTag, htag, List.length_cons, List.length_cons]
    simpa using ih (slashes + 1)
  | plain c cs hc htag ih =>
    intro slashes
    rw [escapeFrom_plain slashes hc htag, hasTag, htag, List.length_cons, List.length_cons]
    simpa using ih 0
  | tag body rest htag ih =>
    intro slashes
    have hrest := (ih 0).1
    rw [escapeFrom_tag slashes htag]
    have hsub := ((List.Sublist.refl body).append hrest).cons_cons '['
    refine ⟨hsub.trans (List.sublist_append_right _ _), fun _ => ?_⟩
    have hlength := hrest.length_le
    simp only [List.length_cons, List.length_append, List.length_replicate]
    omega

theorem sublist_escape (s : String) : s.toList.Sublist (escape s).toList := by
  rw [escape, String.toList_ofList]
  have hsub := (sublist_escapeFrom s.toList 0).1
  split
  · exact hsub.trans (List.sublist_append_left _ _)
  · exact hsub

theorem escape_eq_self_iff (s : String) : escape s = s ↔ isPlain s = true := by
  rw [escape, isPlain, ← String.toList_inj, String.toList_ofList]
  cases htag : hasTag s.toList with
  | true =>
    have hlength := (sublist_escapeFrom s.toList 0).2 htag
    refine iff_of_false (fun h => ?_) (by simp)
    have hle := congrArg List.length h
    split at hle
    · rw [List.length_append] at hle
      omega
    · omega
  | false =>
    rw [escapeFrom_of_hasTag_false htag]
    cases endsInSingleSlash s.toList <;> simp

theorem hasTag_of_not_mem {cs : List Char} (h : '[' ∉ cs) : hasTag cs = false := by
  induction cs with
  | nil => rfl
  | cons c cs ih =>
    rw [List.mem_cons, not_or] at h
    rw [hasTag, tag?_of_ne (Ne.symm h.1), ih h.2]
    rfl

theorem endsInSingleSlash_of_not_mem {cs : List Char} (h : '\\' ∉ cs) :
    endsInSingleSlash cs = false := by
  rw [endsInSingleSlash]
  split
  · rfl
  next ds hds =>
    exact absurd (List.mem_reverse.mp (hds ▸ List.mem_cons_self)) h
  · rfl

theorem isPlain_toString (n : Nat) : isPlain (toString n) = true := by
  have hdigit {c : Char} (hc : c ∈ (toString n).toList) : c.isDigit = true := by
    rw [Nat.toString_eq_repr, Nat.toList_repr] at hc
    exact Nat.isDigit_of_mem_toDigits (by decide) (by decide) hc
  have hopen : '[' ∉ (toString n).toList := fun hc => by cases hdigit hc
  have hslash : '\\' ∉ (toString n).toList := fun hc => by cases hdigit hc
  rw [isPlain, hasTag_of_not_mem hopen, endsInSingleSlash_of_not_mem hslash]
  rfl

/-! ## Tags in escaped texts -/

theorem tagBody?_replicate (n : Nat) {cs : List Char} (h : tagBody? cs = none) :
    tagBody? (List.replicate n '\\' ++ cs) = none := by
  induction n with
  | zero => exact h
  | succ n ih =>
    rw [List.replicate_succ, List.cons_append, tagBody?_cons (by decide) (by decide), ih]
    rfl

theorem tagBody?_escapeFrom {cs : List Char} (h : tagBody? cs = none) (slashes : Nat) :
    tagBody? (escapeFrom slashes 0 cs) = none := by
  induction cs generalizing slashes with
  | nil => rfl
  | cons c cs ih =>
    by_cases hopen : c = '['
    · subst hopen
      cases htag : tag? ('[' :: cs) with
      | none =>
        rw [escapeFrom_plain slashes (by decide) htag]
        rfl
      | some found =>
        obtain ⟨-, body, hbody, -⟩ := tag?_inversion htag
        rw [escapeFrom_tag slashes htag, hbody]
        exact tagBody?_replicate _ rfl
    · have hclose : c ≠ ']' := by
        rintro rfl
        cases h
      rw [tagBody?_cons hclose hopen, Option.map_eq_none_iff] at h
      by_cases hc : c = '\\'
      · subst hc
        rw [escapeFrom_slash, tagBody?_cons hclose hopen, ih h]
        rfl
      · rw [escapeFrom_plain slashes hc (tag?_of_ne hopen cs), tagBody?_cons hclose hopen, ih h]
        rfl

theorem tag?_escapeFrom {c : Char} {cs : List Char} (h : tag? (c :: cs) = none) :
    tag? (c :: escapeFrom 0 0 cs) = none := by
  by_cases hc : c = '['
  · subst hc
    cases cs with
    | nil => rfl
    | cons d ds =>
      cases hopens : opensTag d with
      | true =>
        rw [tag?, if_pos hopens, Option.map_eq_none_iff] at h
        have hslash : d ≠ '\\' := by
          rintro rfl
          cases hopens
        have hbracket : d ≠ '[' := by
          rintro rfl
          cases hopens
        rw [escapeFrom_plain 0 hslash (tag?_of_ne hbracket ds), tag?, if_pos hopens,
          tagBody?_escapeFrom h]
        rfl
      | false =>
        -- The character after the bracket may have a backslash before it now.
        have hhead : ∃ e es, escapeFrom 0 0 (d :: ds) = e :: es ∧ opensTag e = false := by
          by_cases hslash : d = '\\'
          · subst hslash
            exact ⟨_, _, escapeFrom_slash 0 ds, by decide⟩
          · cases htag : tag? (d :: ds) with
            | none => exact ⟨_, _, escapeFrom_plain 0 hslash htag, hopens⟩
            | some found => exact ⟨_, _, escapeFrom_tag 0 htag, by decide⟩
        obtain ⟨e, es, hescaped, he⟩ := hhead
        rw [hescaped, tag?, he]
        rfl
  · exact tag?_of_ne hc _

theorem guardsFrom_slashes (n slashes : Nat) (cs : List Char) :
    guardsFrom slashes (List.replicate n '\\' ++ cs) = guardsFrom (slashes + n) cs := by
  induction n generalizing slashes with
  | zero => rfl
  | succ n ih =>
    rw [List.replicate_succ, List.cons_append, guardsFrom, if_pos rfl, ih, Nat.add_right_comm]
    rfl

theorem guardsFrom_body {front : List Char} (h : '[' ∉ front) (slashes : Nat) (rest : List Char) :
    guardsFrom slashes (front ++ ']' :: rest) = guardsFrom 0 rest := by
  induction front generalizing slashes with
  | nil =>
    rw [List.nil_append, guardsFrom, if_neg (by decide), tag?_of_ne (by decide)]
    rfl
  | cons c front ih =>
    rw [List.mem_cons, not_or] at h
    rw [List.cons_append, guardsFrom, tag?_of_ne (Ne.symm h.1), ih h.2, ih h.2]
    simp

theorem guardsFrom_escapeFrom (cs : List Char) : ∀ slashes,
    guardsFrom slashes (escapeFrom slashes 0 cs) = true := by
  induction cs using escapeInduction with
  | nil => exact fun slashes => rfl
  | slash cs ih =>
    intro slashes
    rw [escapeFrom_slash, guardsFrom, if_pos rfl]
    exact ih (slashes + 1)
  | plain c cs hc htag ih =>
    intro slashes
    rw [escapeFrom_plain slashes hc htag, guardsFrom, if_neg hc, tag?_escapeFrom htag]
    exact ih 0
  | tag body rest htag ih =>
    intro slashes
    obtain ⟨-, body', hbody, -, hnone, front, hfront⟩ := tag?_inversion htag
    obtain rfl : body = body' := (List.cons.inj hbody).2
    subst hfront
    -- The backslashes that stood there, and as many again with one more.
    have hodd : (slashes + (slashes + 1)) % 2 = 1 := by omega
    rw [escapeFrom_tag slashes htag, guardsFrom_slashes, List.cons_append, guardsFrom,
      if_neg (by decide), hodd, List.append_assoc, List.singleton_append,
      guardsFrom_body (by simp_all), ih 0]
    simp

def isBracketFree (cs : List Char) : Bool :=
  cs.all fun c => c != '[' && c != ']'

theorem tagBody?_of_isBracketFree {cs : List Char} (h : isBracketFree cs = true) :
    tagBody? cs = none := by
  induction cs with
  | nil => rfl
  | cons c cs ih =>
    simp only [isBracketFree, List.all_cons, Bool.and_eq_true, bne_iff_ne] at h ih
    rw [tagBody?_cons h.1.2 h.1.1, ih h.2]
    rfl

theorem tagBody?_append {tail : List Char} (h : isBracketFree tail = true) (cs : List Char) :
    (tagBody? (cs ++ tail)).isSome = (tagBody? cs).isSome := by
  induction cs with
  | nil => rw [List.nil_append, tagBody?_of_isBracketFree h, tagBody?]
  | cons c cs ih =>
    rw [List.cons_append, tagBody?, tagBody?]
    split_ifs
    · rfl
    · rfl
    · rw [Option.isSome_map, Option.isSome_map, ih]

/-- What has no brackets neither ends a tag nor starts one. -/
theorem tag?_append {tail : List Char} (h : isBracketFree tail = true) {cs : List Char}
    (hcs : cs ≠ []) : (tag? (cs ++ tail)).isSome = (tag? cs).isSome := by
  cases cs with
  | nil => exact absurd rfl hcs
  | cons c cs =>
    by_cases hc : c = '['
    · subst hc
      cases cs with
      | nil =>
        cases tail with
        | nil => rfl
        | cons d tail =>
          have htail : isBracketFree tail = true := by
            rw [isBracketFree, List.all_cons, Bool.and_eq_true] at h
            exact h.2
          rw [List.cons_append, List.nil_append, tag?, tagBody?_of_isBracketFree htail]
          split <;> rfl
      | cons d ds =>
        rw [List.cons_append, List.cons_append, tag?, tag?]
        split_ifs
        · rw [Option.isSome_map, Option.isSome_map, tagBody?_append h]
        · rfl
    · rw [List.cons_append, tag?_of_ne hc, tag?_of_ne hc]

theorem guardsFrom_of_isBracketFree {cs : List Char} (h : isBracketFree cs = true)
    (slashes : Nat) : guardsFrom slashes cs = true := by
  induction cs generalizing slashes with
  | nil => rfl
  | cons c cs ih =>
    simp only [isBracketFree, List.all_cons, Bool.and_eq_true, bne_iff_ne] at h ih
    rw [guardsFrom, tag?_of_ne h.1.1, ih h.2, ih h.2]
    simp

theorem guardsFrom_append {tail : List Char} (h : isBracketFree tail = true) (slashes : Nat)
    (cs : List Char) : guardsFrom slashes (cs ++ tail) = guardsFrom slashes cs := by
  induction cs generalizing slashes with
  | nil => exact guardsFrom_of_isBracketFree h slashes
  | cons c cs ih =>
    rw [List.cons_append, guardsFrom, guardsFrom, ih, ih, ← List.cons_append,
      tag?_append h (List.cons_ne_nil c cs)]

theorem isGuarded_escape (s : String) : isGuarded (escape s) = true := by
  rw [isGuarded, escape, String.toList_ofList]
  split
  · rw [guardsFrom_append (by decide)]
    exact guardsFrom_escapeFrom s.toList 0
  · exact guardsFrom_escapeFrom s.toList 0

end SwitchLexicon.Markup
