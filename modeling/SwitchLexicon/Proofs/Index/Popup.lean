import SwitchLexicon.Proofs.Line.Acceptance
import SwitchLexicon.Proofs.Line.Offer
import SwitchLexicon.Session.Transcript

/-!
The popup of the line editor against the plain suggestions. Popup, list of next words and suggestion
all come from one look-up in the tree, so they show the same words; and what a completion removes
from the end of the line is just the word that the suggestion says is being typed.
-/
namespace SwitchLexicon

def textBefore (text : String) : Option Int → List Char
  | some c => Text.frontSlice text.toList c
  | none => text.toList

structure IsLastLine (cs : List Char) (line : String) : Prop where
  no_feed : '\n' ∉ line.toList
  ends : cs = line.toList ∨ ∃ earlier, cs = earlier ++ '\n' :: line.toList

theorem isLastLine_afterLastLine (cs : List Char) :
    IsLastLine cs (lineBefore.afterLastLine cs) := by
  have hline : (lineBefore.afterLastLine cs).toList = cs.rtakeWhile (· != '\n') := by
    rw [lineBefore.afterLastLine, String.toList_ofList, List.rtakeWhile]
  have hsplit : cs.rdropWhile (· != '\n') ++ cs.rtakeWhile (· != '\n') = cs :=
    List.rdropWhile_append_rtakeWhile
  refine ⟨?_, ?_⟩
  · rw [hline]
    intro hfeed
    have := List.mem_rtakeWhile_imp hfeed
    exact absurd this (by decide)
  · rw [hline]
    by_cases hfront : cs.rdropWhile (· != '\n') = []
    · rw [hfront, List.nil_append] at hsplit
      exact Or.inl hsplit.symm
    · have hlast := List.rdropWhile_last_not (p := (· != '\n')) cs hfront
      have hfeed : (cs.rdropWhile (· != '\n')).getLast hfront = '\n' := by simpa using hlast
      have hearlier := List.dropLast_append_getLast hfront
      rw [hfeed] at hearlier
      refine Or.inr ⟨(cs.rdropWhile (· != '\n')).dropLast, ?_⟩
      rw [← List.singleton_append, ← List.append_assoc, hearlier, hsplit]

theorem lineBefore_ok (text : String) (cursor : Option Int) (h : ∀ c ∈ cursor, c ≤ text.length) :
    ∃ line, lineBefore text cursor = .ok line ∧ IsLastLine (textBefore text cursor) line := by
  cases cursor with
  | none => exact ⟨_, rfl, isLastLine_afterLastLine _⟩
  | some c =>
    have hc : ¬(text.length : Int) < c := by
      have := h c rfl
      omega
    refine ⟨lineBefore.afterLastLine (textBefore text (some c)), ?_, isLastLine_afterLastLine _⟩
    rw [lineBefore, if_neg hc, textBefore]

/-- The front that a limit leaves of a list; a limit of zero is none. -/
def limited {α : Type} (limit : Int) (xs : List α) : List α :=
  if limit = 0 then xs else Text.frontSlice xs limit

theorem map_limited {α β : Type} (f : α → β) (limit : Int) (xs : List α) :
    (limited limit xs).map f = limited limit (xs.map f) := by
  simp only [limited, Text.frontSlice, List.length_map]
  split
  · rfl
  · split
    · rw [List.map_take]
    · rw [List.map_take]

theorem limited_nil {α : Type} (limit : Int) : limited limit ([] : List α) = [] := by
  simp [limited, Text.frontSlice]

theorem limit?_int (descriptions : Value) (limit : Int) :
    PopupSettings.limit? ⟨descriptions, .int limit⟩ =
      .ok (if limit = 0 then none else some limit) := by
  by_cases hlimit : limit = 0
  · simp [PopupSettings.limit?, Value.holds, hlimit]
  · simp [PopupSettings.limit?, Value.holds, hlimit]

structure LooksUp (line : String) (s : Suggestion) (node : Option CommandTree) : Prop where
  words : s.tokens = (node.map (·.candidates s.query)).getD []
  idle : s.triggered = false → node = none
  start_le : s.start ≤ line.length
  query : s.triggered = true → s.query.toList = line.toList.drop s.start

theorem lookup_end (root : Option CommandTree) (line : String) :
    ∃ s node, lookup root line line.length = .ok (s, node) ∧ LooksUp line s node := by
  have hbefore := beforeCursor_length line
  cases hblank : line.toList.all Text.isBlank with
  | true =>
    refine ⟨.idle, none, ?_, rfl, fun _ => rfl, Nat.zero_le _, fun h => ?_⟩
    · simp [lookup, hbefore, hblank, bind, Except.bind, pure, Except.pure]
    · exact absurd h (by decide)
  | false =>
    let split := splitBefore line.toList
    let node := root.bind (CommandTree.resolve split.completed)
    refine ⟨suggestionAt node split line.length, node, ?_, rfl, fun h => ?_, ?_, fun _ => ?_⟩
    · simp [lookup, hbefore, hblank, bind, Except.bind, pure, Except.pure, suggestionAt, split,
        node]
    · exact Bool.noConfusion h
    · rw [← String.length_toList]
      exact start_le_length line.toList
    · exact (congrArg String.toList (splitBefore_query line.toList)).trans String.toList_ofList

theorem LooksUp.start_add_length {line : String} {s : Suggestion} {node : Option CommandTree}
    (h : LooksUp line s node) (htriggered : s.triggered = true) :
    s.start + s.query.length = line.length := by
  have hquery := congrArg List.length (h.query htriggered)
  have hstart := h.start_le
  rw [List.length_drop, String.length_toList, String.length_toList] at hquery
  omega

/-- What is left of a line when a completion has taken its characters off the end, and then what it
puts there. -/
def Completion.applied (c : Completion) (line : String) : String :=
  String.ofList (line.toList.take (line.length - (-c.startPosition).toNat) ++ c.text.toList)

namespace Index

theorem suggest_of_lookup {i : Index} {line : String} {s : Suggestion} {node : Option CommandTree}
    (h : lookup i.tree line line.length = .ok (s, node)) : i.suggest line none = .ok s := by
  simp [Index.suggest, SwitchLexicon.suggest, h, Except.map]

def pairsAt (s : Suggestion) : Option CommandTree → List (String × String)
  | some t => s.tokens.map fun w => (w, t.descriptionOf w)
  | none => []

theorem describe_of_lookup {i : Index} {line : String} {s : Suggestion}
    {node : Option CommandTree} (h : lookup i.tree line line.length = .ok (s, node)) :
    i.describe line none = .ok (pairsAt s node) := by
  cases node with
  | none => simp [Index.describe, SwitchLexicon.describe, h, Except.map, pairsAt]
  | some t => simp [Index.describe, SwitchLexicon.describe, h, Except.map, pairsAt]

theorem map_fst_pairsAt {line : String} {s : Suggestion} {node : Option CommandTree}
    (h : LooksUp line s node) : (pairsAt s node).map Prod.fst = s.tokens := by
  cases node with
  | none => rw [h.words, pairsAt, List.map_nil, Option.map_none, Option.getD_none]
  | some t => simp [pairsAt, Function.comp_def]

def choices (descriptions : Bool) (s : Suggestion) (node : Option CommandTree) :
    List (String × String) :=
  if descriptions then pairsAt s node else s.tokens.map fun w => (w, "")

theorem map_fst_choices {line : String} {s : Suggestion} {node : Option CommandTree}
    (h : LooksUp line s node) (descriptions : Bool) :
    (choices descriptions s node).map Prod.fst = s.tokens := by
  cases descriptions with
  | true => exact map_fst_pairsAt h
  | false => simp [choices, Function.comp_def]

theorem choices_idle {line : String} {s : Suggestion} {node : Option CommandTree}
    (h : LooksUp line s node) (hidle : s.triggered = false) (descriptions : Bool) :
    choices descriptions s node = [] := by
  have hwords := map_fst_choices h descriptions
  rw [h.words, h.idle hidle, Option.map_none, Option.getD_none, ← h.idle hidle] at hwords
  exact List.map_eq_nil_iff.mp hwords

theorem complete_of_lookup {i : Index} {line : String} {s : Suggestion}
    {node : Option CommandTree} (h : lookup i.tree line line.length = .ok (s, node))
    (hlooks : LooksUp line s node) (descriptions : Bool) (limit : Int) :
    i.complete ⟨.bool descriptions, .int limit⟩ line =
      .ok ((limited limit (choices descriptions s node)).map (completionOf s.query)) := by
  have hsuggest := suggest_of_lookup h
  have hdescribe := describe_of_lookup h
  cases htriggered : s.triggered with
  | false =>
    rw [choices_idle hlooks htriggered, limited_nil, complete, hsuggest]
    simp [Except.mapError, bind, Except.bind, htriggered, pure, Except.pure]
  | true =>
    have hpairs : i.completePairs ⟨.bool descriptions, .int limit⟩ line s =
        .ok (choices descriptions s node) := by
      cases descriptions with
      | true => simp [completePairs, choices, Value.holds, hdescribe, Except.mapError]
      | false => simp [completePairs, choices, Value.holds]
    rw [complete, hsuggest, limited]
    simp only [Except.mapError, bind, Except.bind, htriggered, hpairs, limit?_int]
    by_cases hlimit : limit = 0
    · simp [hlimit, pure, Except.pure]
    · simp [hlimit, pure, Except.pure]

/-- A completion replaces the word that is being typed, and nothing else of the line. -/
structure Replaces (c : Completion) (line : String) (s : Suggestion) : Prop where
  backward : c.startPosition ≤ 0
  within : -c.startPosition ≤ line.length
  applied_eq : c.applied line = String.ofList (line.toList.take s.start) ++ c.display ++ " "
  cursor_eq : ((c.applied line).length : Int) = (accept c.display s.start).cursor

theorem replaces_completionOf {line : String} {s : Suggestion} {node : Option CommandTree}
    (h : LooksUp line s node) (htriggered : s.triggered = true) (pair : String × String) :
    Replaces (completionOf s.query pair) line s := by
  have hlength := h.start_add_length htriggered
  have hleft : line.length - s.query.length = s.start := by omega
  have hback : (-(completionOf s.query pair).startPosition).toNat = s.query.length := by
    simp [completionOf]
  have happlied : (completionOf s.query pair).applied line =
      String.ofList (line.toList.take s.start) ++ pair.1 ++ " " := by
    rw [Completion.applied, hback, hleft, ← String.toList_inj]
    simp [completionOf, accept]
  refine ⟨?_, ?_, happlied, ?_⟩
  · simp [completionOf]
  · have hquery : s.query.length ≤ line.length := by omega
    simpa [completionOf] using hquery
  · have hfront : (String.ofList (line.toList.take s.start)).length = s.start := by
      rw [String.length_ofList, List.length_take, String.length_toList]
      omega
    have hspace : " ".length = 1 := rfl
    rw [happlied, String.length_append, String.length_append, hfront, hspace]
    exact (accept_cursor pair.1 s.start).symm

theorem popup_agrees (i : Index) (mode : Mode) (text : String) (cursor : Option Int)
    (hcursor : ∀ c ∈ cursor, c ≤ text.length) :
    ∃ line s pairs, lineBefore text cursor = .ok line ∧
      IsLastLine (textBefore text cursor) line ∧ i.suggest line none = .ok s ∧
      i.describe line none = .ok pairs ∧ pairs.map Prod.fst = s.tokens ∧
      ∀ (descriptions : Bool) (limit : Int), ∃ cs,
        Session.completionsAt ⟨mode, i⟩ ⟨.bool descriptions, .int limit⟩ text cursor = .ok cs ∧
        cs.map Completion.display =
          (if limit = 0 then s.tokens else Text.frontSlice s.tokens limit) ∧
        ∀ c ∈ cs, Replaces c line s := by
  obtain ⟨line, hline, hlast⟩ := lineBefore_ok text cursor hcursor
  obtain ⟨s, node, hlookup, hlooks⟩ := lookup_end i.tree line
  refine ⟨line, s, _, hline, hlast, suggest_of_lookup hlookup, describe_of_lookup hlookup,
    map_fst_pairsAt hlooks, fun descriptions limit => ?_⟩
  refine ⟨(limited limit (choices descriptions s node)).map (completionOf s.query), ?_, ?_, ?_⟩
  · rw [Session.completionsAt, hline]
    exact complete_of_lookup hlookup hlooks descriptions limit
  · rw [← limited, ← map_fst_choices hlooks descriptions, ← map_limited, List.map_map]
    rfl
  · intro c hc
    obtain ⟨pair, hpair, rfl⟩ := List.mem_map.mp hc
    cases htriggered : s.triggered with
    | true => exact replaces_completionOf hlooks htriggered pair
    | false =>
      rw [choices_idle hlooks htriggered, limited_nil] at hpair
      cases hpair

def showIndex : Index := ofBuild (.ofReadings .flat (Reading.ofFlat SwitchLexicon.showEntries))

/-- The cursor stands in the second line of a text, and the last of two words is left out. -/
theorem popup_agrees_second_line :
    ∃ line s pairs cs, lineBefore "vlan 1\nSHOW  tail" (some 12) = .ok line ∧
      showIndex.suggest line none = .ok s ∧ showIndex.describe line none = .ok pairs ∧
      pairs.map Prod.fst = s.tokens ∧
      Session.completionsAt ⟨.human, showIndex⟩ ⟨.bool true, .int (-1)⟩ "vlan 1\nSHOW  tail"
        (some 12) = .ok cs ∧
      cs.map Completion.display = Text.frontSlice s.tokens (-1) ∧
      (∀ c ∈ cs, Replaces c line s) ∧ line = "SHOW " ∧ s.tokens = ["ip", "vlan"] := by
  obtain ⟨line, s, pairs, hline, -, hs, hpairs, hwords, hpopup⟩ :=
    popup_agrees showIndex .human "vlan 1\nSHOW  tail" (some 12) (by decide)
  obtain ⟨cs, hcs, hshown, hreplaces⟩ := hpopup true (-1)
  have hcut : lineBefore "vlan 1\nSHOW  tail" (some 12) = .ok "SHOW " := by rfl
  have hanswer : showIndex.suggest "SHOW " none = .ok ⟨true, ["ip", "vlan"], "", 5, 5⟩ := by
    rfl
  obtain rfl : line = "SHOW " := Except.ok.inj (hline.symm.trans hcut)
  have hs' := Except.ok.inj (hs.symm.trans hanswer)
  exact ⟨_, s, pairs, cs, hline, hs, hpairs, hwords, hcs, hshown, hreplaces, rfl, by rw [hs']⟩

end Index

end SwitchLexicon
