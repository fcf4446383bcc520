import SwitchLexicon.Text.Blank

/-!
Words of a text. A blank cuts the words of a text into those before it and those after it, and a run
without blanks is one word, so words that are joined by spaces are found again.
-/
namespace SwitchLexicon.Text

def IsRun (w : List Char) : Prop := w ≠ [] ∧ ∀ c ∈ w, isBlank c = false

def IsWord (s : String) : Prop := IsRun s.toList

theorem isBlank_space : isBlank ' ' = true := by decide

theorem wordsOf_cons_blank {c : Char} (hc : isBlank c = true) (cs : List Char) :
    wordsOf (c :: cs) = wordsOf cs := by
  simp [wordsOf, hc]

theorem extendHead_ne_nil (c : Char) (ws : List (List Char)) : extendHead c ws ≠ [] := by
  cases ws <;> simp [extendHead]

theorem extendHead_append (c : Char) {ws : List (List Char)} (hws : ws ≠ [])
    (vs : List (List Char)) : extendHead c (ws ++ vs) = extendHead c ws ++ vs := by
  cases ws with
  | nil => exact absurd rfl hws
  | cons w ws => rfl

theorem wordsOf_cons_last {c : Char} {cs : List Char} (hc : isBlank c = false)
    (hcs : cs.head?.all isBlank = true) : wordsOf (c :: cs) = [c] :: wordsOf cs := by
  rw [wordsOf]
  simp [hc, hcs]

theorem wordsOf_cons_inner {c d : Char} (hc : isBlank c = false) (hd : isBlank d = false)
    (cs : List Char) : wordsOf (c :: d :: cs) = extendHead c (wordsOf (d :: cs)) := by
  rw [wordsOf]
  simp [hc, hd]

theorem wordsOf_cons_ne_nil {c : Char} (hc : isBlank c = false) (cs : List Char) :
    wordsOf (c :: cs) ≠ [] := by
  simp only [wordsOf, hc, Bool.false_eq_true, if_false]
  split
  · simp
  · exact extendHead_ne_nil _ _

theorem wordsOf_append_blank {b : Char} (hb : isBlank b = true) (cs ds : List Char) :
    wordsOf (cs ++ b :: ds) = wordsOf cs ++ wordsOf ds := by
  induction cs with
  | nil => simp [wordsOf, hb]
  | cons c cs ih =>
    rcases Bool.eq_false_or_eq_true (isBlank c) with hc | hc
    · rw [List.cons_append, wordsOf_cons_blank hc, wordsOf_cons_blank hc, ih]
    · cases cs with
      | nil =>
        rw [List.cons_append, wordsOf_cons_last hc (by simpa using hb),
          wordsOf_cons_last hc (by simp), ih, List.cons_append]
      | cons d cs =>
        rcases Bool.eq_false_or_eq_true (isBlank d) with hd | hd
        · rw [List.cons_append, wordsOf_cons_last hc (by simpa using hd), ih,
            wordsOf_cons_last hc (by simpa using hd), List.cons_append]
        · -- the word that `c` joins is the first one on both sides, since `d` belongs to it
          rw [List.cons_append, List.cons_append, wordsOf_cons_inner hc hd, ← List.cons_append, ih,
            wordsOf_cons_inner hc hd, extendHead_append c (wordsOf_cons_ne_nil hd cs)]

theorem wordsOf_run {w : List Char} (hw : IsRun w) : wordsOf w = [w] := by
  obtain ⟨hne, hsolid⟩ := hw
  induction w with
  | nil => exact absurd rfl hne
  | cons c cs ih =>
    have hc : isBlank c = false := hsolid c (by simp)
    cases cs with
    | nil => exact wordsOf_cons_last hc (by simp)
    | cons d ds =>
      have hd : isBlank d = false := hsolid d (by simp)
      have htail := ih (by simp) fun x hx => hsolid x (List.mem_cons_of_mem _ hx)
      rw [wordsOf_cons_inner hc hd, htail, extendHead]

theorem mem_extendHead {c : Char} {w : List Char} {ws : List (List Char)}
    (h : w ∈ extendHead c ws) : w = [c] ∨ w ∈ ws ∨ ∃ v ∈ ws, w = c :: v := by
  cases ws with
  | nil => exact Or.inl (by simpa [extendHead] using h)
  | cons v vs =>
    rcases List.mem_cons.mp h with h | h
    · exact Or.inr (Or.inr ⟨v, by simp, h⟩)
    · exact Or.inr (Or.inl (List.mem_cons_of_mem _ h))

theorem isRun_singleton {c : Char} (hc : isBlank c = false) : IsRun [c] :=
  ⟨by simp, by simpa using hc⟩

theorem IsRun.cons {c : Char} {w : List Char} (hc : isBlank c = false) (hw : IsRun w) :
    IsRun (c :: w) :=
  ⟨by simp, fun x hx => (List.mem_cons.mp hx).elim (fun h => h ▸ hc) (hw.2 x)⟩

theorem isRun_of_mem_wordsOf {w : List Char} (cs : List Char) (h : w ∈ wordsOf cs) : IsRun w := by
  induction cs generalizing w with
  | nil => simp [wordsOf] at h
  | cons c cs ih =>
    by_cases hc : isBlank c = true
    · exact ih (by simpa [wordsOf, hc] using h)
    · have hc' : isBlank c = false := by simpa using hc
      simp only [wordsOf, hc, if_false, Bool.false_eq_true] at h
      split at h
      · rcases List.mem_cons.mp h with h | h
        · exact h ▸ isRun_singleton hc'
        · exact ih h
      · rcases mem_extendHead h with h | h | ⟨v, hv, h⟩
        · exact h ▸ isRun_singleton hc'
        · exact ih h
        · exact h ▸ (ih hv).cons hc'

theorem wordsOf_eq_nil_iff (cs : List Char) : wordsOf cs = [] ↔ cs.all isBlank = true := by
  induction cs with
  | nil => simp [wordsOf]
  | cons c cs ih =>
    by_cases hc : isBlank c = true
    · simp [wordsOf_cons_blank hc, hc, ih]
    · simp [wordsOf_cons_ne_nil (by simpa using hc) cs, hc]

theorem wordsOf_intercalate {ws : List (List Char)} (h : ∀ w ∈ ws, IsRun w) :
    wordsOf ([' '].intercalate ws) = ws := by
  induction ws with
  | nil => rfl
  | cons w ws ih =>
    have hw := wordsOf_run (h w (by simp))
    have hws := ih fun v hv => h v (List.mem_cons_of_mem _ hv)
    cases ws with
    | nil => simpa [List.intercalate_singleton] using hw
    | cons v vs =>
      rw [List.intercalate_cons_cons, List.append_assoc, List.singleton_append,
        wordsOf_append_blank isBlank_space, hw, hws, List.singleton_append]

theorem isWord_of_mem_words {w s : String} (h : w ∈ words s) : IsWord w := by
  obtain ⟨cs, hcs, rfl⟩ := List.mem_map.mp h
  simpa [IsWord] using isRun_of_mem_wordsOf _ hcs

theorem words_eq_nil_iff (s : String) : words s = [] ↔ isBlankText s = true := by
  simpa [words, isBlankText] using wordsOf_eq_nil_iff s.toList

theorem isBlankText_eq_false_iff (s : String) :
    isBlankText s = false ↔ ∃ c ∈ s.toList, isBlank c = false := by
  simp [isBlankText]

theorem words_unwords {ws : List String} (h : ∀ w ∈ ws, IsWord w) : words (unwords ws) = ws := by
  have hruns : ∀ w ∈ ws.map String.toList, IsRun w := by
    intro w hw
    obtain ⟨v, hv, rfl⟩ := List.mem_map.mp hw
    exact h v hv
  have hlist : (unwords ws).toList = [' '].intercalate (ws.map String.toList) := by
    simp [unwords, String.toList_intercalate]
  rw [words, hlist, wordsOf_intercalate hruns, List.map_map]
  exact (List.map_congr_left fun w _ => String.ofList_toList).trans (List.map_id ws)

theorem words_unwords_words (s : String) : words (unwords (words s)) = words s :=
  words_unwords fun _ hw => isWord_of_mem_words hw

end SwitchLexicon.Text
