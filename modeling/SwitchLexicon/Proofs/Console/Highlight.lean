import SwitchLexicon.Console.Highlight
import SwitchLexicon.Proofs.Highlight.Segment
import SwitchLexicon.Proofs.Text.Lowercase

/-!
The colours of a line. Segments are laid out one after the other without their control characters,
and each one that has a category gets a span of its own over its part of the text. Control
characters alone have no category, so no span is empty.
-/
namespace SwitchLexicon

namespace StyledText

theorem withoutControls_append (s t : String) :
    withoutControls (s ++ t) = withoutControls s ++ withoutControls t := by
  simp [withoutControls, String.ofList_append]

theorem length_withoutControls_pos {s : String} {c : Char} (hc : c ∈ s.toList)
    (hcontrol : isControl c = false) : 0 < (withoutControls s).length := by
  rw [withoutControls, String.length_ofList]
  exact List.length_pos_of_mem (List.mem_filter.mpr ⟨hc, by simp [hcontrol]⟩)

theorem isControl_cases {c : Char} (hc : isControl c = true) :
    Text.Settled c ∧ isLiteralChar c = false ∧ c ≠ Text.doubleQuote ∧
      startsComment [c] = false := by
  have hcodes : ∀ n ∈ [7, 8, 11, 12, 13], Text.lowerChar (Char.ofNat n) = [Char.ofNat n] ∧
      (Char.ofNat n).toNat ≠ 0x3A3 ∧ isLiteralChar (Char.ofNat n) = false ∧
      Char.ofNat n ≠ Text.doubleQuote ∧ startsComment [Char.ofNat n] = false := by
    decide
  have hcode := hcodes c.toNat (by simpa [isControl] using hc)
  rw [Char.ofNat_toNat] at hcode
  exact ⟨⟨hcode.1, hcode.2.1⟩, hcode.2.2⟩

def shown (ps : List (String × Category)) : String :=
  withoutControls (String.join (ps.map Prod.fst))

theorem shown_nil : shown [] = "" := rfl

theorem shown_cons (s : String) (category : Category) (ps : List (String × Category)) :
    shown ((s, category) :: ps) = withoutControls s ++ shown ps := by
  rw [shown, List.map_cons, String.join_cons, withoutControls_append, shown]

theorem shown_append (ps qs : List (String × Category)) :
    shown (ps ++ qs) = shown ps ++ shown qs := by
  rw [shown, List.map_append, String.join_append, withoutControls_append, shown, shown]

def spansFrom (start : Nat) : List (String × Category) → List StyleSpan
  | [] => []
  | (s, category) :: ps =>
    let stop := start + (withoutControls s).length
    (if category = .plain then [] else [⟨start, stop, category.style⟩]) ++ spansFrom stop ps

theorem isEmpty_style_iff (category : Category) :
    category.style.isEmpty = true ↔ category = .plain := by
  cases category <;> decide

theorem append_segment (t : StyledText) {s : String} (hs : s ≠ "") (category : Category) :
    t.append s category.style =
      { t with
        plain := t.plain ++ withoutControls s
        spans := t.spans ++ spansFrom t.plain.length [(s, category)] } := by
  have hempty : s.isEmpty = false := by simpa using hs
  rw [append, hempty, if_neg Bool.false_ne_true]
  by_cases hplain : category = .plain
  · simp [spansFrom, hplain, Category.style]
  · have hstyle : ¬category.style.isEmpty = true := fun h => hplain ((isEmpty_style_iff _).mp h)
    simp [spansFrom, hplain, hstyle]

theorem foldl_append_segments (ps : List (String × Category)) (hps : ∀ p ∈ ps, p.1 ≠ "")
    (t : StyledText) :
    ps.foldl (fun t p => t.append p.1 p.2.style) t =
      { t with
        plain := t.plain ++ shown ps
        spans := t.spans ++ spansFrom t.plain.length ps } := by
  induction ps generalizing t with
  | nil => simp [shown_nil, spansFrom]
  | cons p ps ih =>
    obtain ⟨s, category⟩ := p
    rw [List.foldl_cons, append_segment t (hps (s, category) (by simp)),
      ih fun p hp => hps p (List.mem_cons_of_mem _ hp)]
    simp [spansFrom, shown_cons, String.append_assoc]

theorem spansFrom_append (start : Nat) (ps qs : List (String × Category)) :
    spansFrom start (ps ++ qs) =
      spansFrom start ps ++ spansFrom (start + (shown ps).length) qs := by
  induction ps generalizing start with
  | nil => simp [spansFrom, shown_nil]
  | cons p ps ih =>
    obtain ⟨s, category⟩ := p
    simp [spansFrom, ih, shown_cons, Nat.add_assoc]

def coloured (ps : List (String × Category)) : List (String × Category) :=
  ps.filter fun p => p.2 ≠ .plain

theorem length_spansFrom (start : Nat) (ps : List (String × Category)) :
    (spansFrom start ps).length = (coloured ps).length := by
  induction ps generalizing start with
  | nil => rfl
  | cons p ps ih =>
    obtain ⟨s, category⟩ := p
    have hrest := ih (start + (withoutControls s).length)
    by_cases hplain : category = .plain
    · simpa [spansFrom, coloured, hplain] using hrest
    · simpa [spansFrom, coloured, hplain, Nat.add_comm] using hrest

theorem spansFrom_within {start : Nat} {ps : List (String × Category)} {sp : StyleSpan}
    (h : sp ∈ spansFrom start ps) : start ≤ sp.start ∧ sp.stop ≤ start + (shown ps).length := by
  induction ps generalizing start with
  | nil => simp [spansFrom] at h
  | cons p ps ih =>
    obtain ⟨s, category⟩ := p
    rw [shown_cons, String.length_append]
    rcases List.mem_append.mp h with h | h
    · split at h
      · cases h
      · obtain rfl := List.mem_singleton.mp h
        dsimp only
        omega
    · have hrest := ih h
      omega

theorem spansFrom_apart (start : Nat) (ps : List (String × Category)) :
    (spansFrom start ps).Pairwise fun a b => a.stop ≤ b.start := by
  induction ps generalizing start with
  | nil => exact .nil
  | cons p ps ih =>
    obtain ⟨s, category⟩ := p
    refine List.pairwise_append.mpr ⟨?_, ih _, ?_⟩
    · split <;> simp
    · intro a ha b hb
      split at ha
      · cases ha
      · obtain rfl := List.mem_singleton.mp ha
        exact (spansFrom_within hb).1

theorem spansFrom_nonempty {start : Nat} {ps : List (String × Category)}
    (hps : ∀ p ∈ ps, p.2 ≠ .plain → 0 < (withoutControls p.1).length) {sp : StyleSpan}
    (h : sp ∈ spansFrom start ps) : sp.start < sp.stop := by
  induction ps generalizing start with
  | nil => simp [spansFrom] at h
  | cons p ps ih =>
    obtain ⟨s, category⟩ := p
    rcases List.mem_append.mp h with h | h
    · split at h
      · cases h
      next hplain =>
        have hpos := hps (s, category) (by simp) hplain
        obtain rfl := List.mem_singleton.mp h
        dsimp only at hpos ⊢
        omega
    · exact ih (fun p hp => hps p (List.mem_cons_of_mem _ hp)) h

theorem keywords_visible {k : List String × Category} (hk : k ∈ Category.keywords) {w : String}
    (hw : w ∈ k.1) : ∃ c ∈ w.toList, isControl c = false := by
  have hall : (Category.keywords.all fun k => k.1.all fun w =>
      w.toList.any fun c => !isControl c) = true := by
    decide +kernel
  have hword := List.all_eq_true.mp (List.all_eq_true.mp hall k hk) w hw
  simpa using hword

theorem keywordCategory_of_controls {word : String} (h : ∀ c ∈ word.toList, isControl c = true) :
    keywordCategory word = .plain := by
  have hnone : Category.keywords.find? (fun k => k.1.contains word) = none := by
    rw [List.find?_eq_none]
    intro k hk hword
    obtain ⟨c, hc, hcontrol⟩ := keywords_visible hk (List.contains_iff_mem.mp hword)
    rw [h c hc] at hcontrol
    cases hcontrol
  rw [keywordCategory, hnone]

theorem classify_of_controls {s : String} (h : ∀ c ∈ s.toList, isControl c = true) :
    classify s = .plain := by
  by_cases hblank : s.toList.all Text.isBlank = true
  · rw [classify]
    exact if_pos hblank
  · have hlower : Text.lower s = s := by
      rw [Text.lower, Text.lowerFrom_of_settled [] fun c hc => (isControl_cases (h c hc)).1,
        String.ofList_toList]
    cases hs : s.toList with
    | nil => simp [hs] at hblank
    | cons c cs =>
      have hmem : c ∈ s.toList := by simp [hs]
      obtain ⟨-, hliteral, hquote, hcomment⟩ := isControl_cases (h c hmem)
      have hquotation : isQuotation s.toList = false := by simp [isQuotation, hs, hquote]
      rw [classify_of_not_literal hmem hliteral (Bool.eq_false_iff.mpr hblank)
        (by rw [hs]; exact hcomment), hquotation, hlower, keywordCategory_of_controls h]
      rfl

theorem visible_of_mem_classifyLine {line : String} {p : String × Category}
    (hp : p ∈ classifyLine line) (hcategory : p.2 ≠ .plain) :
    0 < (withoutControls p.1).length := by
  by_cases h : OpensComment line
  · rw [classifyLine_of_comment h, List.mem_singleton] at hp
    subst hp
    obtain ⟨blanks, c, rest, hline, -, hc⟩ := h
    refine length_withoutControls_pos (c := c) (by simp [hline]) ?_
    rcases hc with rfl | rfl <;> decide
  · rw [classifyLine_of_not_comment h] at hp
    obtain ⟨s, -, rfl⟩ := List.mem_map.mp hp
    by_contra hnone
    refine hcategory (classify_of_controls fun c hc => ?_)
    by_contra hcontrol
    exact hnone (length_withoutControls_pos hc (Bool.eq_false_iff.mpr hcontrol))

theorem ne_empty_of_mem_classifyLine {line : String} {p : String × Category}
    (hp : p ∈ classifyLine line) : p.1 ≠ "" := by
  have hmem : p.1 ∈ segments line := by
    rw [← map_fst_classifyLine]
    exact List.mem_map_of_mem hp
  by_cases h : OpensComment line
  · rw [segments_of_comment h, List.mem_singleton] at hmem
    rw [hmem]
    simpa using h.ne_empty
  · have hgrammar := (isSegmentation_iff_segments h _).mpr rfl
    obtain ⟨kind, hsegment⟩ := hgrammar.segments p.1.toList (List.mem_map_of_mem hmem)
    rw [Ne, ← String.toList_eq_nil_iff]
    exact hsegment.ne_nil

/-- A text that shows a line in the colours of its segments. The span of a segment has the place of
the segment among those with a category. -/
structure Colours (line : String) (t : StyledText) : Prop where
  plain : t.plain = String.ofList (line.toList.filter fun c => c.toNat ∉ [7, 8, 11, 12, 13])
  style : t.style = ""
  nonempty : ∀ sp ∈ t.spans, sp.start < sp.stop
  within : ∀ sp ∈ t.spans, sp.stop ≤ t.plain.length
  apart : t.spans.Pairwise fun a b => a.stop ≤ b.start
  one_each : t.spans.length = (coloured (classifyLine line)).length
  covered : ∀ front s category back, classifyLine line = front ++ (s, category) :: back →
    category ≠ .plain → ∃ sp, t.spans[(coloured front).length]? = some sp ∧
      sp.style = category.style ∧ sp.start = (shown front).length ∧
      sp.stop = sp.start + (withoutControls s).length ∧
      (t.plain.toList.drop sp.start).take (sp.stop - sp.start) = (withoutControls s).toList
  uncovered : ∀ front s back, classifyLine line = front ++ (s, .plain) :: back →
    ∀ k, (shown front).length ≤ k → k < (shown front).length + (withoutControls s).length →
      ∀ sp ∈ t.spans, k < sp.start ∨ sp.stop ≤ k

theorem shown_classifyLine (line : String) : shown (classifyLine line) = withoutControls line := by
  rw [shown, map_fst_classifyLine, join_segments]

theorem highlight_eq (line : String) :
    highlight line =
      { plain := withoutControls line, spans := spansFrom 0 (classifyLine line) } := by
  rw [highlight, foldl_append_segments _ fun p hp => ne_empty_of_mem_classifyLine hp,
    shown_classifyLine]
  simp

theorem spansFrom_split (front : List (String × Category)) (s : String) (category : Category)
    (back : List (String × Category)) :
    let start := (shown front).length
    let stop := start + (withoutControls s).length
    spansFrom 0 (front ++ (s, category) :: back) = spansFrom 0 front ++
      ((if category = .plain then [] else [⟨start, stop, category.style⟩]) ++
        spansFrom stop back) := by
  rw [spansFrom_append, Nat.zero_add]
  rfl

theorem colours_highlight (line : String) : Colours line (highlight line) := by
  rw [highlight_eq]
  constructor
  case plain =>
    refine congrArg String.ofList (List.filter_congr fun c _ => ?_)
    simp [isControl]
  case style => rfl
  case nonempty =>
    intro sp hsp
    exact spansFrom_nonempty (fun p hp => visible_of_mem_classifyLine hp) hsp
  case within =>
    intro sp hsp
    have hwithin := (spansFrom_within hsp).2
    rwa [shown_classifyLine, Nat.zero_add] at hwithin
  case apart => exact spansFrom_apart 0 _
  case one_each => exact length_spansFrom 0 _
  case covered =>
    intro front s category back hline hcategory
    have hplain : withoutControls line = shown front ++ (withoutControls s ++ shown back) := by
      rw [← shown_classifyLine, hline, shown_append, shown_cons]
    refine ⟨⟨(shown front).length, (shown front).length + (withoutControls s).length,
      category.style⟩, ?_, rfl, rfl, rfl, ?_⟩
    · rw [hline, spansFrom_split, if_neg hcategory, ← length_spansFrom 0 front,
        List.getElem?_append_right (Nat.le_refl _), Nat.sub_self]
      rfl
    · dsimp only
      rw [hplain, String.toList_append, String.toList_append, ← String.length_toList,
        ← String.length_toList, List.drop_left, Nat.add_sub_cancel_left, List.take_left]
  case uncovered =>
    intro front s back hline k hlow hhigh sp hsp
    rw [hline, spansFrom_split, if_pos rfl, List.nil_append] at hsp
    rcases List.mem_append.mp hsp with hsp | hsp
    · have hbefore := (spansFrom_within hsp).2
      omega
    · have hafter := (spansFrom_within hsp).1
      omega

end StyledText

end SwitchLexicon
