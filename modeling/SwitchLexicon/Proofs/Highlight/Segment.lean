import Mathlib.Data.List.Chain
import Mathlib.Data.List.TakeWhile
import SwitchLexicon.Proofs.Highlight.Classify

/-!
The grammar of a line. A line falls into runs of blanks, single marks, quotations and words such
that blanks do not follow blanks, words do not follow words, and only the last segment may be a
quotation without its closing quote. There is one way to cut a line so, and it is the one of
`segments`.
-/
namespace SwitchLexicon

inductive SegmentKind
  | blanks
  | mark
  | quotation
  | openQuotation
  | word
deriving DecidableEq

inductive IsSegment : SegmentKind → List Char → Prop
  | blanks {s : List Char} (ne_nil : s ≠ []) (all : ∀ c ∈ s, Text.isBlank c = true) :
      IsSegment .blanks s
  | mark {c : Char} (mark : isMark c = true) : IsSegment .mark [c]
  | quotation {body : List Char} (inner : Text.doubleQuote ∉ body) :
      IsSegment .quotation (Text.doubleQuote :: body ++ [Text.doubleQuote])
  | openQuotation {body : List Char} (inner : Text.doubleQuote ∉ body) :
      IsSegment .openQuotation (Text.doubleQuote :: body)
  | word {s : List Char} (ne_nil : s ≠ []) (blankless : ∀ c ∈ s, Text.isBlank c = false)
      (markless : ∀ c ∈ s, isMark c = false) (quoteless : Text.doubleQuote ∉ s) :
      IsSegment .word s

def MayFollow (s t : List Char) : Prop :=
  ¬(IsSegment .blanks s ∧ IsSegment .blanks t) ∧ ¬(IsSegment .word s ∧ IsSegment .word t) ∧
    ¬IsSegment .openQuotation s

structure IsSegmentation (line : List Char) (ss : List (List Char)) : Prop where
  joined : ss.flatten = line
  segments : ∀ s ∈ ss, ∃ kind, IsSegment kind s
  apart : ss.IsChain MayFollow

/-- Where a segment of a kind ends, told from the rest of the line. -/
def SegmentKind.EndsBefore (rest : List Char) : SegmentKind → Prop
  | .blanks => ∀ c, rest.head? = some c → Text.isBlank c = false
  | .openQuotation => rest = []
  | .word => ∀ c, rest.head? = some c → isWordChar c = false
  | _ => True

theorem isWordChar_iff (c : Char) : isWordChar c = true ↔
    Text.isBlank c = false ∧ isMark c = false ∧ c ≠ Text.doubleQuote := by
  simp [isWordChar, and_assoc]

theorem all_isNotQuote {body : List Char} (h : Text.doubleQuote ∉ body) :
    ∀ c ∈ body, isNotQuote c = true := by
  intro c hc
  rw [isNotQuote, bne_iff_ne]
  rintro rfl
  exact h hc

theorem not_isBlank_doubleQuote : Text.isBlank Text.doubleQuote = false := by decide

theorem isMark_cases {c : Char} (hc : isMark c = true) :
    Text.isBlank c = false ∧ c ≠ Text.doubleQuote := by
  have hall : ['(', ')', '[', ']', '{', '}', ','].all
      (fun d => !Text.isBlank d && d != Text.doubleQuote) = true := by decide
  have hchar := List.all_eq_true.mp hall c (by simpa [isMark] using hc)
  simpa using hchar

theorem isSegment_word_iff {s : List Char} :
    IsSegment .word s ↔ s ≠ [] ∧ ∀ c ∈ s, isWordChar c = true := by
  constructor
  · rintro ⟨⟩
    next hne hblankless hmarkless hquoteless =>
      refine ⟨hne, fun c hc => (isWordChar_iff c).mpr ⟨hblankless c hc, hmarkless c hc, ?_⟩⟩
      rintro rfl
      exact hquoteless hc
  · rintro ⟨hne, hall⟩
    have hchar := fun c hc => (isWordChar_iff c).mp (hall c hc)
    exact .word hne (fun c hc => (hchar c hc).1) (fun c hc => (hchar c hc).2.1)
      fun hquote => (hchar _ hquote).2.2 rfl

namespace IsSegment

theorem ne_nil {kind : SegmentKind} {s : List Char} (h : IsSegment kind s) : s ≠ [] := by
  cases h with
  | blanks hne => exact hne
  | mark => simp
  | quotation => simp
  | openQuotation => simp
  | word hne => exact hne

theorem eq_blanks_iff {kind : SegmentKind} {c : Char} {s : List Char}
    (h : IsSegment kind (c :: s)) : kind = .blanks ↔ Text.isBlank c = true := by
  cases h with
  | blanks hne hall => exact iff_of_true rfl (hall c (by simp))
  | mark hmark => simp [(isMark_cases hmark).1]
  | quotation => simp [not_isBlank_doubleQuote]
  | openQuotation => simp [not_isBlank_doubleQuote]
  | word hne hblankless => simp [hblankless c (by simp)]

theorem eq_word_iff {kind : SegmentKind} {c : Char} {s : List Char}
    (h : IsSegment kind (c :: s)) : kind = .word ↔ isWordChar c = true := by
  rw [isWordChar_iff]
  cases h with
  | blanks hne hall => simp [hall c (by simp)]
  | mark hmark => simp [hmark]
  | quotation => simp
  | openQuotation => simp
  | word hne hblankless hmarkless hquoteless =>
    refine iff_of_true rfl ⟨hblankless c (by simp), hmarkless c (by simp), ?_⟩
    rintro rfl
    exact hquoteless (by simp)

theorem eq_openQuotation {kind : SegmentKind} {s : List Char} (h : IsSegment kind s)
    (hopen : IsSegment .openQuotation s) : kind = .openQuotation := by
  obtain ⟨body, hinner, rfl⟩ : ∃ body, Text.doubleQuote ∉ body ∧ s = Text.doubleQuote :: body := by
    cases hopen with
    | openQuotation hinner => exact ⟨_, hinner, rfl⟩
  cases h with
  | blanks hne hall => simpa [not_isBlank_doubleQuote] using hall Text.doubleQuote (by simp)
  | mark hmark => exact absurd rfl (isMark_cases hmark).2
  | quotation => simp at hinner
  | openQuotation => rfl
  | word hne hblankless hmarkless hquoteless => simp at hquoteless

end IsSegment

theorem run_append {p : Char → Bool} {w : List Char} (hw : ∀ c ∈ w, p c = true)
    (rest : List Char) (hrest : ∀ c, rest.head? = some c → p c = false) :
    (w ++ rest).takeWhile p = w ∧ (w ++ rest).dropWhile p = rest := by
  rw [List.takeWhile_append_of_pos hw, List.dropWhile_append_of_pos hw]
  cases rest with
  | nil => simp
  | cons c rest => simp [hrest c rfl]

theorem segmentsOf_append {kind : SegmentKind} {s rest : List Char} (hs : IsSegment kind s)
    (hend : kind.EndsBefore rest) : segmentsOf (s ++ rest) = s :: segmentsOf rest := by
  cases hs with
  | blanks hne hall =>
    obtain ⟨c, cs, rfl⟩ := List.exists_cons_of_ne_nil hne
    obtain ⟨htake, hdrop⟩ := run_append (fun d hd => hall d (List.mem_cons_of_mem _ hd)) rest hend
    rw [List.cons_append, segmentsOf, if_pos (hall c (by simp)), htake, hdrop]
  | @mark c hmark =>
    obtain ⟨hblank, hquote⟩ := isMark_cases hmark
    rw [List.singleton_append, segmentsOf, if_neg (by simp [hblank]), if_neg hquote, if_pos hmark]
  | @quotation body hinner =>
    obtain ⟨htake, hdrop⟩ :=
      run_append (all_isNotQuote hinner) (Text.doubleQuote :: rest) (by simp [isNotQuote])
    rw [List.cons_append, List.cons_append, List.append_assoc, List.singleton_append, segmentsOf,
      if_neg (by simp [not_isBlank_doubleQuote]), if_pos rfl, htake, hdrop]
    rfl
  | @openQuotation body hinner =>
    obtain rfl : rest = [] := hend
    have htake := List.takeWhile_eq_self_iff.mpr (all_isNotQuote hinner)
    have hdrop := List.dropWhile_eq_nil_iff.mpr (all_isNotQuote hinner)
    rw [List.append_nil, segmentsOf, segmentsOf, if_neg (by simp [not_isBlank_doubleQuote]),
      if_pos rfl, htake, hdrop]
    simp [segmentsOf]
  | word hne hblankless hmarkless hquoteless =>
    have hword := (isSegment_word_iff.mp (.word hne hblankless hmarkless hquoteless)).2
    obtain ⟨c, cs, rfl⟩ := List.exists_cons_of_ne_nil hne
    obtain ⟨hblank, hmark, hquote⟩ := (isWordChar_iff c).mp (hword c (by simp))
    obtain ⟨htake, hdrop⟩ := run_append (fun d hd => hword d (List.mem_cons_of_mem _ hd)) rest hend
    rw [List.cons_append, segmentsOf, if_neg (by simp [hblank]), if_neg hquote,
      if_neg (by simp [hmark]), htake, hdrop]

theorem head?_dropWhile {p : Char → Bool} {cs : List Char} {c : Char}
    (h : (cs.dropWhile p).head? = some c) : p c = false := by
  have hhead := List.head?_dropWhile_not p cs
  rwa [h] at hhead

theorem exists_first_segment (c : Char) (cs : List Char) :
    ∃ kind s rest, c :: cs = s ++ rest ∧ IsSegment kind s ∧ kind.EndsBefore rest := by
  have hcut : ∀ p : Char → Bool, c :: cs = (c :: cs.takeWhile p) ++ cs.dropWhile p := by
    intro p
    rw [List.cons_append, List.takeWhile_append_dropWhile]
  by_cases hblank : Text.isBlank c = true
  · refine ⟨.blanks, _, _, hcut Text.isBlank, .blanks (by simp) ?_, fun d hd => head?_dropWhile hd⟩
    intro d hd
    rcases List.mem_cons.mp hd with rfl | hd
    · exact hblank
    · exact List.mem_takeWhile_imp hd
  by_cases hquote : c = Text.doubleQuote
  · subst hquote
    have hinner : Text.doubleQuote ∉ cs.takeWhile isNotQuote := by
      intro hmem
      simpa [isNotQuote] using List.mem_takeWhile_imp hmem
    cases hrest : cs.dropWhile isNotQuote with
    | nil => exact ⟨.openQuotation, _, _, hrest ▸ hcut isNotQuote, .openQuotation hinner, rfl⟩
    | cons d rest =>
      have hhead : (cs.dropWhile isNotQuote).head? = some d := by rw [hrest, List.head?_cons]
      have hd : d = Text.doubleQuote := by simpa [isNotQuote] using head?_dropWhile hhead
      refine ⟨.quotation, _, rest, ?_, .quotation hinner, trivial⟩
      rw [hcut isNotQuote, hrest, hd]
      simp
  by_cases hmark : isMark c = true
  · exact ⟨.mark, [c], cs, rfl, .mark hmark, trivial⟩
  · refine ⟨.word, _, _, hcut isWordChar, isSegment_word_iff.mpr ⟨by simp, ?_⟩,
      fun d hd => head?_dropWhile hd⟩
    intro d hd
    rcases List.mem_cons.mp hd with rfl | hd
    · exact (isWordChar_iff d).mpr ⟨by simpa using hblank, by simpa using hmark, hquote⟩
    · exact List.mem_takeWhile_imp hd

theorem isSegmentation_nil : IsSegmentation [] [] := ⟨rfl, by simp, .nil⟩

theorem IsSegmentation.head {rest : List Char} {t : List Char} {ts : List (List Char)}
    (h : IsSegmentation rest (t :: ts)) :
    ∃ kind c cs, t = c :: cs ∧ IsSegment kind (c :: cs) ∧ rest.head? = some c := by
  obtain ⟨kind, ht⟩ := h.segments t (by simp)
  obtain ⟨c, cs, rfl⟩ := List.exists_cons_of_ne_nil ht.ne_nil
  exact ⟨kind, c, cs, rfl, ht, by rw [← h.joined]; rfl⟩

theorem IsSegmentation.tail {line s : List Char} {ss : List (List Char)}
    (h : IsSegmentation line (s :: ss)) : IsSegmentation ss.flatten ss :=
  ⟨rfl, fun t ht => h.segments t (List.mem_cons_of_mem _ ht), h.apart.tail⟩

theorem IsSegmentation.endsBefore {kind : SegmentKind} {line s : List Char} {ss : List (List Char)}
    (h : IsSegmentation line (s :: ss)) (hs : IsSegment kind s) : kind.EndsBefore ss.flatten := by
  cases ss with
  | nil => cases kind <;> simp [SegmentKind.EndsBefore]
  | cons t ts =>
    obtain ⟨hblanks, hwords, hopen⟩ := (List.isChain_cons_cons.mp h.apart).1
    obtain ⟨other, c, cs, rfl, ht, hhead⟩ := h.tail.head
    cases kind with
    | blanks =>
      intro d hd
      obtain rfl := Option.some.inj (hhead.symm.trans hd)
      apply Bool.eq_false_iff.mpr
      intro hblank
      exact hblanks ⟨hs, ht.eq_blanks_iff.mpr hblank ▸ ht⟩
    | openQuotation => exact absurd hs hopen
    | word =>
      intro d hd
      obtain rfl := Option.some.inj (hhead.symm.trans hd)
      apply Bool.eq_false_iff.mpr
      intro hword
      exact hwords ⟨hs, ht.eq_word_iff.mpr hword ▸ ht⟩
    | mark => trivial
    | quotation => trivial

theorem IsSegmentation.mayFollow {kind : SegmentKind} {s t rest : List Char}
    {ts : List (List Char)} (h : IsSegmentation rest (t :: ts)) (hs : IsSegment kind s)
    (hend : kind.EndsBefore rest) : MayFollow s t := by
  obtain ⟨other, c, cs, rfl, ht, hhead⟩ := h.head
  obtain ⟨a, as, rfl⟩ := List.exists_cons_of_ne_nil hs.ne_nil
  -- a list of characters is a segment of one kind, so `kind` is the one each pair speaks of
  refine ⟨fun ⟨hblanks, hother⟩ => ?_, fun ⟨hword, hother⟩ => ?_, fun hopen => ?_⟩
  · obtain rfl := hs.eq_blanks_iff.mpr (hblanks.eq_blanks_iff.mp rfl)
    exact Bool.eq_false_iff.mp (hend c hhead) (hother.eq_blanks_iff.mp rfl)
  · obtain rfl := hs.eq_word_iff.mpr (hword.eq_word_iff.mp rfl)
    exact Bool.eq_false_iff.mp (hend c hhead) (hother.eq_word_iff.mp rfl)
  · obtain rfl := hs.eq_openQuotation hopen
    obtain rfl : rest = [] := hend
    cases hhead

theorem isSegmentation_cons_iff {line s : List Char} {ss : List (List Char)} :
    IsSegmentation line (s :: ss) ↔ ∃ kind rest, line = s ++ rest ∧ IsSegment kind s ∧
      kind.EndsBefore rest ∧ IsSegmentation rest ss := by
  constructor
  · intro h
    obtain ⟨kind, hs⟩ := h.segments s (by simp)
    exact ⟨kind, ss.flatten, h.joined.symm, hs, h.endsBefore hs, h.tail⟩
  · rintro ⟨kind, rest, rfl, hs, hend, hrest⟩
    refine ⟨by rw [List.flatten_cons, hrest.joined], ?_, ?_⟩
    · intro t ht
      rcases List.mem_cons.mp ht with rfl | ht
      · exact ⟨kind, hs⟩
      · exact hrest.segments t ht
    · cases ss with
      | nil => exact .singleton _
      | cons t ts => exact List.isChain_cons_cons.mpr ⟨hrest.mayFollow hs hend, hrest.apart⟩

theorem isSegmentation_segmentsOf (line : List Char) : IsSegmentation line (segmentsOf line) := by
  -- a segment may be as long as the rest of the line, so the induction is on the length
  induction hlength : line.length using Nat.strong_induction_on generalizing line with
  | _ n ih =>
    cases line with
    | nil =>
      rw [segmentsOf]
      exact isSegmentation_nil
    | cons c cs =>
      obtain ⟨kind, s, rest, hcut, hs, hend⟩ := exists_first_segment c cs
      have hshorter : rest.length < n := by
        have hpos := List.length_pos_iff.mpr hs.ne_nil
        rw [← hlength, hcut, List.length_append]
        omega
      rw [hcut, segmentsOf_append hs hend]
      exact isSegmentation_cons_iff.mpr ⟨kind, rest, rfl, hs, hend, ih _ hshorter rest rfl⟩

theorem isSegmentation_iff (line : List Char) (ss : List (List Char)) :
    IsSegmentation line ss ↔ ss = segmentsOf line := by
  refine ⟨fun h => ?_, fun h => h ▸ isSegmentation_segmentsOf line⟩
  induction ss generalizing line with
  | nil =>
    obtain rfl : [] = line := h.joined
    rw [segmentsOf]
  | cons s ss ih =>
    obtain ⟨kind, rest, rfl, hs, hend, hrest⟩ := isSegmentation_cons_iff.mp h
    rw [segmentsOf_append hs hend, ← ih rest hrest]

def OpensComment (line : String) : Prop :=
  ∃ blanks c rest, line.toList = blanks ++ c :: rest ∧ blanks.all Text.isBlank = true ∧
    (c = '!' ∨ c = '#')

theorem isCommentLine_iff (line : String) : isCommentLine line = true ↔ OpensComment line := by
  rw [isCommentLine]
  constructor
  · intro h
    cases hrest : line.toList.dropWhile Text.isBlank with
    | nil => simp [hrest, startsComment] at h
    | cons c rest =>
      refine ⟨line.toList.takeWhile Text.isBlank, c, rest, ?_, List.all_takeWhile, ?_⟩
      · rw [← hrest, List.takeWhile_append_dropWhile]
      · simpa [hrest, startsComment] using h
  · rintro ⟨blanks, c, rest, hline, hblanks, hc⟩
    have hsolid : Text.isBlank c = false := by
      rcases hc with rfl | rfl <;> decide
    obtain ⟨-, hdrop⟩ :=
      run_append (List.all_eq_true.mp hblanks) (c :: rest) (by simpa using hsolid)
    rw [hline, hdrop]
    simpa [startsComment] using hc

theorem OpensComment.ne_empty {line : String} (h : OpensComment line) : line.isEmpty = false := by
  obtain ⟨blanks, c, rest, hline, -⟩ := h
  rw [← Bool.not_eq_true, String.isEmpty_iff, ← String.toList_eq_nil_iff, hline]
  simp

theorem segments_of_comment {line : String} (h : OpensComment line) : segments line = [line] := by
  rw [segments, (isCommentLine_iff line).mpr h, h.ne_empty]
  rfl

theorem classifyLine_of_comment {line : String} (h : OpensComment line) :
    classifyLine line = [(line, .comment)] := by
  rw [classifyLine, (isCommentLine_iff line).mpr h]
  rfl

theorem segments_of_not_comment {line : String} (h : ¬OpensComment line) :
    segments line = (segmentsOf line.toList).map String.ofList := by
  rw [segments, if_neg fun hcomment => h ((isCommentLine_iff line).mp hcomment)]

theorem classifyLine_of_not_comment {line : String} (h : ¬OpensComment line) :
    classifyLine line = (segments line).map fun s => (s, classify s) := by
  rw [classifyLine, if_neg fun hcomment => h ((isCommentLine_iff line).mp hcomment)]

theorem map_fst_classifyLine (line : String) :
    (classifyLine line).map Prod.fst = segments line := by
  by_cases h : OpensComment line
  · rw [classifyLine_of_comment h, segments_of_comment h]
    rfl
  · rw [classifyLine_of_not_comment h, List.map_map]
    exact List.map_id _

theorem join_segments (line : String) : String.join (segments line) = line := by
  apply String.toList_injective
  rw [String.toList_join]
  by_cases h : OpensComment line
  · rw [segments_of_comment h]
    simp
  · have hjoined := (isSegmentation_segmentsOf line.toList).joined
    rw [segments_of_not_comment h, List.flatMap_map]
    simpa [List.flatMap_def] using hjoined

theorem isSegmentation_iff_segments {line : String} (h : ¬OpensComment line) (ss : List String) :
    IsSegmentation line.toList (ss.map String.toList) ↔ ss = segments line := by
  rw [isSegmentation_iff, segments_of_not_comment h]
  constructor
  · intro hss
    rw [← hss, List.map_map]
    exact (List.map_congr_left fun s _ => String.ofList_toList).trans (List.map_id ss) |>.symm
  · rintro rfl
    rw [List.map_map]
    exact (List.map_congr_left fun s _ => String.toList_ofList).trans (List.map_id _)

theorem isQuotation_of_quotation {cs : List Char} (h : IsSegment .quotation cs) :
    isQuotation cs = true := by
  cases h with
  | quotation =>
    rw [isQuotation, List.getLast?_concat]
    simp

theorem isQuotation_of_openQuotation {cs : List Char} (h : IsSegment .openQuotation cs) :
    isQuotation cs = false := by
  cases h with
  | @openQuotation body hinner =>
    apply Bool.eq_false_iff.mpr
    intro hquotation
    simp only [isQuotation, Bool.and_eq_true, decide_eq_true_eq, beq_iff_eq] at hquotation
    obtain ⟨⟨hlength, -⟩, hlast⟩ := hquotation
    have hne : body ≠ [] := by
      rintro rfl
      simp at hlength
    rw [List.getLast?_cons, List.getLast?_eq_some_getLast hne] at hlast
    exact hinner (Option.some.inj hlast ▸ List.getLast_mem hne)

theorem exists_cons_of_quoted {cs : List Char}
    (h : IsSegment .quotation cs ∨ IsSegment .openQuotation cs) :
    ∃ rest, cs = Text.doubleQuote :: rest := by
  rcases h with h | h
  · cases h with
    | quotation => exact ⟨_, rfl⟩
  · cases h with
    | openQuotation => exact ⟨_, rfl⟩

theorem classify_quoted {s : String}
    (h : IsSegment .quotation s.toList ∨ IsSegment .openQuotation s.toList) :
    classify s = .quotation ↔ IsSegment .quotation s.toList := by
  obtain ⟨rest, hrest⟩ := exists_cons_of_quoted h
  -- a quote is in no address and in no number, whatever stands between the quotes
  rw [classify_of_not_literal (c := Text.doubleQuote) (by simp [hrest]) (by decide)
    (by simp [hrest, not_isBlank_doubleQuote]) (by rw [hrest]; rfl)]
  rcases h with h | h
  · simp [isQuotation_of_quotation h, h]
  · rw [isQuotation_of_openQuotation h, if_neg Bool.false_ne_true]
    refine iff_of_false (keywordCategory_ne_quotation _) fun hclosed => ?_
    cases hclosed.eq_openQuotation h

theorem segments_grammar (line : String) :
    String.join (segments line) = line ∧
      (classifyLine line).map Prod.fst = segments line ∧
      (OpensComment line → segments line = [line] ∧ classifyLine line = [(line, .comment)]) ∧
      (¬OpensComment line →
        (∀ ss, IsSegmentation line.toList (ss.map String.toList) ↔ ss = segments line) ∧
        ∀ s category, (s, category) ∈ classifyLine line →
          IsSegment .quotation s.toList ∨ IsSegment .openQuotation s.toList →
          (category = .quotation ↔ IsSegment .quotation s.toList)) := by
  refine ⟨join_segments line, map_fst_classifyLine line, fun hcomment => ?_, fun hcomment => ?_⟩
  · exact ⟨segments_of_comment hcomment, classifyLine_of_comment hcomment⟩
  · refine ⟨isSegmentation_iff_segments hcomment, fun s category hmem hquoted => ?_⟩
    rw [classifyLine_of_not_comment hcomment] at hmem
    obtain ⟨t, -, ht⟩ := List.mem_map.mp hmem
    obtain ⟨rfl, rfl⟩ := Prod.mk.inj ht
    exact classify_quoted hquoted

theorem segments_grammar_quoted :
    ¬OpensComment " vlan,\"a b\"x \"#" ∧
      segments " vlan,\"a b\"x \"#" = [" ", "vlan", ",", "\"a b\"", "x", " ", "\"#"] ∧
      IsSegmentation " vlan,\"a b\"x \"#".toList
        ((segments " vlan,\"a b\"x \"#").map String.toList) ∧
      ("\"#", Category.plain) ∈ classifyLine " vlan,\"a b\"x \"#" ∧
      (Category.plain = .quotation ↔ IsSegment .quotation "\"#".toList) ∧
      OpensComment "\t! \"" ∧ classifyLine "\t! \"" = [("\t! \"", .comment)] := by
  have hplain : ¬OpensComment " vlan,\"a b\"x \"#" := by
    rw [← isCommentLine_iff]
    decide
  have hcomment : OpensComment "\t! \"" := by
    rw [← isCommentLine_iff]
    rfl
  have hlast : ("\"#", Category.plain) ∈ classifyLine " vlan,\"a b\"x \"#" := by
    decide +kernel
  have hopen : IsSegment .openQuotation "\"#".toList := .openQuotation (by decide)
  obtain ⟨-, -, -, hgrammar⟩ := segments_grammar " vlan,\"a b\"x \"#"
  obtain ⟨-, -, hone, -⟩ := segments_grammar "\t! \""
  exact ⟨hplain, by decide +kernel, ((hgrammar hplain).1 _).mpr rfl, hlast,
    (hgrammar hplain).2 _ _ hlast (Or.inr hopen), hcomment, (hone hcomment).2⟩

end SwitchLexicon
