import SwitchLexicon.Proofs.Line.Split

/-!
The word under the cursor. It is the run without blanks at the end of the text before the cursor,
with one exception: behind a word a final line feed is no end of the word, and the query keeps it.
-/
namespace SwitchLexicon

/-- The text ends in a line feed that stands right behind a word. -/
def EndsInFeed (before : List Char) : Prop :=
  ∃ init c, before = init ++ [c, '\n'] ∧ Text.isBlank c = false

structure IsCut (before : List Char) (split : LineSplit) : Prop where
  within : split.start ≤ before.length
  query : split.query = String.ofList (before.drop split.start)
  completed : split.completed = Text.words (String.ofList (before.take split.start))
  opens : split.start = 0 ∨ ∃ c, before[split.start - 1]? = some c ∧ Text.isBlank c = true

/-- The query is the run without blanks at the end, so with the complete words it makes up the words
of the whole text. -/
structure CutsAtRun (before : List Char) (split : LineSplit) : Prop where
  solid : ∀ c ∈ split.query.toList, Text.isBlank c = false
  blank_end : before.getLast?.all Text.isBlank = true → split.start = before.length
  words : Text.words (String.ofList before) =
    split.completed ++ if split.query = "" then [] else [split.query]

theorem trailingRun_concat (cs : List Char) (c : Char) :
    trailingRun (cs ++ [c]) = if Text.isBlank c then 0 else trailingRun cs + 1 := by
  cases hc : Text.isBlank c <;> simp [trailingRun, hc]

theorem trailingRun_eq_zero_iff (cs : List Char) :
    trailingRun cs = 0 ↔ cs.getLast?.all Text.isBlank = true := by
  rcases List.eq_nil_or_concat' cs with rfl | ⟨init, c, rfl⟩
  · simp [trailingRun]
  · rw [trailingRun_concat, List.getLast?_concat]
    cases hc : Text.isBlank c <;> simp [hc]

theorem drop_trailingRun (cs : List Char) :
    cs.drop (cs.length - trailingRun cs) = cs.rtakeWhile fun c => !Text.isBlank c := by
  have hparts := List.take_append_drop (cs.length - trailingRun cs) cs
  have hrun : (cs.rdropWhile fun c => !Text.isBlank c) ++
      (cs.rtakeWhile fun c => !Text.isBlank c) = cs := List.rdropWhile_append_rtakeWhile
  rw [take_trailingRun] at hparts
  exact List.append_cancel_left (hparts.trans hrun.symm)

theorem endsInFeed_concat_iff (init : List Char) :
    EndsInFeed (init ++ ['\n']) ↔ trailingRun init ≠ 0 := by
  constructor
  · rintro ⟨front, c, hsplit, hc⟩
    have hinit : init = front ++ [c] :=
      List.append_inj_left' (hsplit.trans (List.append_cons front c ['\n'])) rfl
    rw [hinit, trailingRun_concat, hc]
    simp
  · intro hrun
    rcases List.eq_nil_or_concat' init with rfl | ⟨front, c, rfl⟩
    · simp [trailingRun] at hrun
    · refine ⟨front, c, by simp, ?_⟩
      rw [trailingRun_concat] at hrun
      simpa using hrun

theorem partialLength_of_feed {init : List Char} (h : EndsInFeed (init ++ ['\n'])) :
    partialLength (init ++ ['\n']) = trailingRun init + 1 := by
  have hblank : Text.isBlank '\n' = true := by decide
  have hrun := (endsInFeed_concat_iff init).mp h
  simp [partialLength, trailingRun_concat, hblank, hrun]

theorem partialLength_of_no_feed {before : List Char} (h : ¬EndsInFeed before) :
    partialLength before = trailingRun before := by
  rw [partialLength]
  split
  next hend =>
    obtain ⟨hrun, hlast⟩ := hend
    obtain ⟨init, rfl⟩ := List.getLast?_eq_some_iff.mp hlast
    rw [endsInFeed_concat_iff, not_not] at h
    simp [h, hrun]
  next => rfl

theorem isCut_splitBefore (before : List Char) : IsCut before (splitBefore before) where
  within := start_le_length before
  query := splitBefore_query before
  completed := splitBefore_completed before
  opens := by
    have hwithin := start_le_length before
    have hopen := isOpen_take_start before
    generalize (splitBefore before).start = start at hwithin hopen
    rcases Nat.eq_zero_or_pos start with hzero | hpos
    · exact Or.inl hzero
    · have hlength : (before.take start).length = start := List.length_take_of_le hwithin
      have hne : before.take start ≠ [] := by
        rw [← List.length_pos_iff, hlength]
        exact hpos
      refine Or.inr ⟨(before.take start).getLast hne, ?_, hopen hne⟩
      rw [← List.getLast?_eq_some_getLast hne, List.getLast?_eq_getElem?, hlength,
        List.getElem?_take_of_lt (by omega)]

theorem splitBefore_start_of_no_feed {before : List Char} (h : ¬EndsInFeed before) :
    (splitBefore before).start = before.length - trailingRun before := by
  simp only [splitBefore, partialLength_of_no_feed h]

theorem splitBefore_query_of_no_feed {before : List Char} (h : ¬EndsInFeed before) :
    (splitBefore before).query = String.ofList (before.rtakeWhile fun c => !Text.isBlank c) := by
  rw [splitBefore_query, splitBefore_start_of_no_feed h, drop_trailingRun]

theorem words_of_no_feed {before : List Char} (h : ¬EndsInFeed before) :
    Text.words (String.ofList before) = (splitBefore before).completed ++
      if (splitBefore before).query = "" then [] else [(splitBefore before).query] := by
  have hopen := isOpen_take_start before
  have hparts := List.take_append_drop (splitBefore before).start before
  have hquery := splitBefore_query before
  have hsolid := splitBefore_query_of_no_feed h
  rw [splitBefore_completed]
  split
  next hempty =>
    have hdrop : before.drop (splitBefore before).start = [] := by
      rw [hempty] at hquery
      exact String.ofList_eq_empty_iff.mp hquery.symm
    rw [hdrop, List.append_nil] at hparts
    rw [hparts, List.append_nil]
  next hne =>
    have hrun : Text.IsRun (before.drop (splitBefore before).start) := by
      refine ⟨fun hnil => hne (by rw [hquery, hnil]), fun c hc => ?_⟩
      have hc' : c ∈ before.rtakeWhile fun c => !Text.isBlank c := by
        rw [hquery, String.ofList_inj] at hsolid
        rwa [← hsolid]
      simpa using List.mem_rtakeWhile_imp hc'
    nth_rewrite 1 [← hparts]
    simp only [Text.words, String.toList_ofList, wordsOf_append_run hopen hrun, List.map_append,
      List.map_singleton, hquery]

theorem cutsAtRun_of_no_feed {before : List Char} (h : ¬EndsInFeed before) :
    CutsAtRun before (splitBefore before) where
  solid c hc := by
    rw [splitBefore_query_of_no_feed h, String.toList_ofList] at hc
    simpa using List.mem_rtakeWhile_imp hc
  blank_end hblank := by
    rw [splitBefore_start_of_no_feed h, (trailingRun_eq_zero_iff before).mpr hblank, Nat.sub_zero]
  words := words_of_no_feed h

theorem no_feed_of_feed {init : List Char} (h : EndsInFeed (init ++ ['\n'])) :
    ¬EndsInFeed init := by
  rintro ⟨front, c, rfl, -⟩
  rw [endsInFeed_concat_iff, List.append_cons, trailingRun_concat] at h
  exact h (if_pos (by decide))

theorem splitBefore_of_feed {init : List Char} (h : EndsInFeed (init ++ ['\n'])) :
    splitBefore (init ++ ['\n']) =
      ⟨(splitBefore init).completed, (splitBefore init).query ++ "\n",
        (splitBefore init).start⟩ := by
  have hstart : (splitBefore (init ++ ['\n'])).start = (splitBefore init).start := by
    rw [splitBefore_start_of_no_feed (no_feed_of_feed h), splitBefore]
    simp only [partialLength_of_feed h, List.length_append, List.length_singleton]
    omega
  have hwithin := start_le_length init
  rw [LineSplit.mk.injEq, splitBefore_completed, splitBefore_query, hstart,
    List.take_append_of_le_length hwithin, List.drop_append_of_le_length hwithin,
    String.ofList_append]
  exact ⟨(splitBefore_completed init).symm, by rw [splitBefore_query], rfl⟩

theorem not_cutsAtRun_of_feed {before : List Char} (h : EndsInFeed before) :
    ¬CutsAtRun before (splitBefore before) := by
  intro hcuts
  obtain ⟨init, c, rfl, hc⟩ := h
  rw [List.append_cons] at hcuts
  have hfeed : EndsInFeed (init ++ [c] ++ ['\n']) := ⟨init, c, by simp, hc⟩
  have hsolid := hcuts.solid '\n' (by rw [splitBefore_of_feed hfeed]; simp)
  exact absurd hsolid (by decide)

theorem splitLine_cuts (line : String) (cursor : Int) :
    (0 ≤ cursor ∧ cursor ≤ line.length → ∃ split, splitLine line cursor = .ok split ∧
      IsCut (line.toList.take cursor.toNat) split ∧
      (CutsAtRun (line.toList.take cursor.toNat) split ↔
        ¬EndsInFeed (line.toList.take cursor.toNat)) ∧
      ∀ init, line.toList.take cursor.toNat = init ++ ['\n'] → EndsInFeed (init ++ ['\n']) →
        ∃ word, split.query = word ++ "\n" ∧ CutsAtRun init ⟨split.completed, word, split.start⟩) ∧
    (¬(0 ≤ cursor ∧ cursor ≤ line.length) →
      splitLine line cursor = .error ⟨cursor, line.length⟩) := by
  refine ⟨fun ⟨hlow, hhigh⟩ => ?_, fun houtside => ?_⟩
  · have hbefore := beforeCursor_eq_ok_iff.mpr ⟨hlow, hhigh, rfl⟩
    refine ⟨splitBefore (line.toList.take cursor.toNat), by simp [splitLine, hbefore, Except.map],
      isCut_splitBefore _, ⟨fun hcuts hfeed => not_cutsAtRun_of_feed hfeed hcuts,
        cutsAtRun_of_no_feed⟩, fun init hinit hfeed => ?_⟩
    have hinner := cutsAtRun_of_no_feed (no_feed_of_feed hfeed)
    rw [hinit, splitBefore_of_feed hfeed]
    generalize splitBefore init = inner at hinner ⊢
    exact ⟨inner.query, rfl, hinner⟩
  · simp [splitLine, beforeCursor, houtside, Except.map]

theorem splitLine_cuts_two_words :
    ∃ split, splitLine "show\u00a0ip is" 10 = .ok split ∧
      IsCut "show\u00a0ip is".toList split ∧ CutsAtRun "show\u00a0ip is".toList split := by
  have hbefore : "show\u00a0ip is".toList.take (10 : Int).toNat = "show\u00a0ip is".toList := by
    rfl
  have hno : ¬EndsInFeed "show\u00a0ip is".toList := by
    rintro ⟨init, c, hsplit, -⟩
    have hlast := congrArg List.getLast? hsplit
    rw [List.append_cons, List.getLast?_concat] at hlast
    exact absurd hlast (by decide)
  obtain ⟨split, hsplit, hcut, hruns, -⟩ :=
    (splitLine_cuts "show\u00a0ip is" 10).1 ⟨by decide, by decide⟩
  rw [hbefore] at hcut hruns
  exact ⟨split, hsplit, hcut, hruns.mpr hno⟩

/-- The line feed that ends the text stays in the query, which starts at the word before it. -/
theorem feed_stays_in_query :
    splitLine "show\n" 5 = .ok ⟨[], "show\n", 0⟩ ∧
      ¬CutsAtRun "show\n".toList ⟨[], "show\n", 0⟩ := by
  refine ⟨by rfl, fun hcuts => ?_⟩
  have hsolid := hcuts.solid '\n' (by decide)
  exact absurd hsolid (by decide)

end SwitchLexicon
