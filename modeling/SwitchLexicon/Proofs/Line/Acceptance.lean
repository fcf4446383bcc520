import Mathlib.Logic.Relation
import SwitchLexicon.Proofs.Line.Suggestion

/-!
Accepting suggestions one after the other. An accepted word is the last of the complete words of the
new line, with nothing typed behind it, so all words that can follow are suggested next. Where every
way leads on to a command, the words can only run out at a command.
-/
namespace SwitchLexicon

structure Typed where
  line : String
  cursor : Int
deriving DecidableEq, Repr

namespace Typed

def before (x : Typed) : String :=
  String.ofList (x.line.toList.take x.cursor.toNat)

def accepted (x : Typed) (g : Suggestion) (token : String) : Typed where
  line := String.ofList (x.line.toList.take g.start ++ (accept token g.start).text.toList ++
    x.line.toList.drop g.stop)
  cursor := (accept token g.start).cursor

inductive Accepts (t : CommandTree) : Typed → Typed → Prop
  | accept {x : Typed} {g : Suggestion} {token : String}
      (suggested : suggest (some t) x.line x.cursor = .ok g) (mem : token ∈ g.tokens) :
      Accepts t x (x.accepted g token)

end Typed

/-- A suggested word starts where the line is cut, and it is an edge after the complete words. -/
theorem suggest_inversion {t : CommandTree} {line : String} {cursor : Int} {g : Suggestion}
    {w : String} (h : suggest (some t) line cursor = .ok g) (hw : w ∈ g.tokens) :
    ∃ before, beforeCursor line cursor = .ok before ∧ g.start = (splitBefore before).start ∧
      (t.get? ((splitBefore before).completed.map Text.lower ++ [w])).isSome = true := by
  cases hbefore : beforeCursor line cursor with
  | error e => simp [suggest, lookup, hbefore, bind, Except.bind, Except.map] at h
  | ok before =>
    cases hblank : before.all Text.isBlank with
    | true =>
      rw [suggest_eq_of_blank t hbefore hblank, Except.ok.injEq] at h
      simp [← h, Suggestion.idle] at hw
    | false =>
      have hsolid : ∃ c ∈ before, Text.isBlank c = false := by simpa using hblank
      rw [suggest_eq_of_not_blank t hbefore hsolid, Except.ok.injEq] at h
      rw [← h] at hw
      exact ⟨before, rfl, by rw [← h]; rfl, ((mem_suggestionAt_iff _ _ _).mp hw).2⟩

theorem accept_text (token : String) (start : Int) :
    (accept token start).text.toList = token.toList ++ [' '] := by
  simp [accept]

theorem accept_cursor (token : String) (start : Nat) :
    (accept token start).cursor = (start + token.length + 1 : Nat) := by
  have hlength : (token ++ " ").length = token.length + 1 := by
    rw [String.length_append]
    rfl
  simp only [accept, hlength]
  omega

theorem Typed.cursor_accepted (x : Typed) (g : Suggestion) (token : String) :
    (x.accepted g token).cursor = (g.start + token.length + 1 : Nat) :=
  accept_cursor token g.start

theorem Typed.beforeCursor_accepted {x : Typed} {before : List Char}
    (hbefore : beforeCursor x.line x.cursor = .ok before) {g : Suggestion}
    (hstart : g.start ≤ before.length) (token : String) :
    beforeCursor (x.accepted g token).line (x.accepted g token).cursor =
      .ok (before.take g.start ++ token.toList ++ [' ']) := by
  obtain ⟨-, -, rfl⟩ := beforeCursor_eq_ok_iff.mp hbefore
  have htake : (x.line.toList.take x.cursor.toNat).take g.start = x.line.toList.take g.start := by
    rw [List.take_take, Nat.min_eq_left (hstart.trans (List.length_take_le _ _))]
  have hfront : (x.line.toList.take g.start ++ (token.toList ++ [' '])).length =
      g.start + token.length + 1 := by
    rw [List.length_append, List.length_take_of_le (hstart.trans (List.length_take_le' _ _)),
      List.length_append, String.length_toList, List.length_singleton, Nat.add_assoc]
  have hline : (x.accepted g token).line.toList =
      x.line.toList.take g.start ++ (token.toList ++ [' ']) ++ x.line.toList.drop g.stop := by
    rw [Typed.accepted, String.toList_ofList, accept_text]
  rw [beforeCursor_eq_ok_iff, cursor_accepted]
  refine ⟨Int.natCast_nonneg _, ?_, ?_⟩
  · have hlength := congrArg List.length hline
    rw [String.length_toList, List.length_append, hfront] at hlength
    omega
  · rw [hline, htake, Int.toNat_natCast, ← hfront, List.take_left, List.append_assoc]

theorem Typed.splitBefore_accepted {before : List Char} {token : String}
    (htoken : Text.IsWord token) :
    splitBefore (before.take (splitBefore before).start ++ token.toList ++ [' ']) =
      { completed := (splitBefore before).completed ++ [token]
        query := ""
        start := (splitBefore before).start + token.length + 1 } := by
  have hlength : (before.take (splitBefore before).start).length = (splitBefore before).start :=
    List.length_take_of_le (start_le_length before)
  rw [splitBefore_concat_space, wordsOf_append_run (isOpen_take_start before) htoken,
    List.length_append, hlength, String.length_toList, List.map_append, List.map_singleton,
    String.ofList_toList, splitBefore_completed, Text.words, String.toList_ofList]

theorem CommandTree.candidates_empty (t : CommandTree) : t.candidates "" = t.tokens := by
  have hempty : Text.lower "" = "" := rfl
  rw [candidates, hempty]
  exact List.filter_eq_self.mpr fun w _ => by simp [Text.startsWith]

theorem words_of_query_empty {line : String} {cursor : Int} {split : LineSplit}
    (h : splitLine line cursor = .ok split) (hquery : split.query = "") :
    Text.words (Typed.before ⟨line, cursor⟩) = split.completed := by
  cases hbefore : beforeCursor line cursor with
  | error e => simp [splitLine, hbefore, Except.map] at h
  | ok before =>
    rw [splitLine_eq hbefore, Except.ok.injEq] at h
    obtain ⟨-, -, hb⟩ := beforeCursor_eq_ok_iff.mp hbefore
    have hdrop : before.drop (splitBefore before).start = [] := by
      rw [← h, splitBefore_query] at hquery
      exact String.ofList_injective hquery
    have htake : before.take (splitBefore before).start = before :=
      List.take_of_length_le (List.drop_eq_nil_iff.mp hdrop)
    rw [← h, splitBefore_completed, htake, hb, Typed.before]

/-- From `x` to `y` one more word is complete, and all words that can follow it are suggested. -/
structure Typed.Advances (t : CommandTree) (x y : Typed) (token : String) (split : LineSplit)
    (node : CommandTree) (next : Suggestion) : Prop where
  split_before : splitLine x.line x.cursor = .ok split
  cursor_nonneg : 0 ≤ y.cursor
  split_after : splitLine y.line y.cursor =
    .ok { completed := split.completed ++ [token], query := "", start := y.cursor.toNat }
  reached : t.resolve (split.completed ++ [token]) = some node
  suggested : suggest (some t) y.line y.cursor = .ok next
  tokens_eq : next.tokens = node.tokens
  sorted : next.tokens.Pairwise (· < ·)

theorem Typed.advances_accepted {t : CommandTree} (ht : t.WellBuilt) {x : Typed} {g : Suggestion}
    {token : String} (hg : suggest (some t) x.line x.cursor = .ok g) (hmem : token ∈ g.tokens) :
    ∃ split node next, Advances t x (x.accepted g token) token split node next := by
  obtain ⟨before, hbefore, hstart, hget⟩ := suggest_inversion hg hmem
  obtain ⟨node, hnode⟩ := Option.isSome_iff_exists.mp hget
  have htoken : IsToken token := ht.tokens _ hget token (by simp)
  have hafter := beforeCursor_accepted hbefore (hstart ▸ start_le_length before) token
  have hsplit : splitBefore (before.take g.start ++ token.toList ++ [' ']) =
      { completed := (splitBefore before).completed ++ [token]
        query := ""
        start := (x.accepted g token).cursor.toNat } := by
    rw [cursor_accepted, Int.toNat_natCast, hstart, splitBefore_accepted htoken.word]
  have hreached : t.resolve ((splitBefore before).completed ++ [token]) = some node := by
    rw [CommandTree.resolve, List.map_append, List.map_singleton, htoken.lowered, hnode]
  have hsolid : ∃ c ∈ before.take g.start ++ token.toList ++ [' '], Text.isBlank c = false := by
    obtain ⟨c, hc⟩ := List.exists_mem_of_ne_nil _ htoken.word.1
    exact ⟨c, by simp [hc], htoken.word.2 c hc⟩
  have hnext := suggest_eq_of_not_blank t hafter hsolid
  rw [hsplit, hreached] at hnext
  exact ⟨splitBefore before, node, _, splitLine_eq hbefore, (beforeCursor_eq_ok_iff.mp hafter).1,
    (splitLine_eq hafter).trans (congrArg _ hsplit), hreached, hnext, node.candidates_empty,
    (ht.ordered.of_get? hnode).candidates_sorted ""⟩

theorem Index.isSome_find?_of_detailAt {b : Build} (hb : b.tree.Ordered) {p : List String}
    {d : Detail} (hp : p ≠ []) (hd : b.tree.detailAt p = some d) {command : String}
    (hcommand : tokenize command = p) : ((Index.ofBuild b).find? command).isSome = true := by
  have hmem : (p, d) ∈ b.tree.commands := (CommandTree.mem_commands hb p d).mpr ⟨hp, hd⟩
  rw [Index.find?, Option.isSome_map, List.find?_isSome]
  refine ⟨(Text.unwords p, d), List.mem_map.mpr ⟨(p, d), hmem, rfl⟩, ?_⟩
  simp [canonical, hcommand]

theorem CommandTree.LeadsOn.detailAt_of_tokens_nil {t node : CommandTree} (ht : t.LeadsOn)
    {p : List String} (hp : p ≠ []) (hnode : t.get? p = some node) (htokens : node.tokens = []) :
    ∃ d, t.detailAt p = some d := by
  obtain ⟨q, d, ⟨rest, rfl⟩, hd⟩ := ht p hp (by simp [hnode])
  cases rest with
  | nil => exact ⟨d, by simpa using hd⟩
  | cons w ws =>
    have hnext : (t.get? (p ++ [w])).isSome = true :=
      isSome_get?_of_prefix ⟨ws, by simp⟩ (isSome_get?_of_detailAt hd)
    rw [← mem_tokens_iff_get? hnode, htokens] at hnext
    simp at hnext

theorem acceptance_progress {raw : Value} {shape : Option Shape} {b : Build}
    (hb : build raw shape = .ok b) :
    (∀ (x : Typed) (g : Suggestion) (token : String),
      suggest (some b.tree) x.line x.cursor = .ok g → token ∈ g.tokens →
      ∃ split node next,
        Typed.Advances b.tree x (x.accepted g token) token split node next) ∧
    ∀ s, Shape.chosen raw shape = .ok s → s ≠ .nested →
      ∀ (x y : Typed) (last : Suggestion), Relation.TransGen (Typed.Accepts b.tree) x y →
        suggest (some b.tree) y.line y.cursor = .ok last → last.tokens = [] →
        ((Index.ofBuild b).find? y.before).isSome = true := by
  have hwell := wellBuilt_of_build hb
  refine ⟨fun x g token hg hmem => Typed.advances_accepted hwell hg hmem, ?_⟩
  intro s hs hne x y last hchain hlast hnone
  -- the last acceptance alone decides where the chain ends
  obtain ⟨z, -, hstep⟩ := Relation.TransGen.tail'_iff.mp hchain
  cases hstep with
  | @accept g token hg hmem =>
    obtain ⟨split, node, next, hadv⟩ := Typed.advances_accepted hwell hg hmem
    have htokens : node.tokens = [] := by
      rw [← hadv.tokens_eq, ← Except.ok.inj (hlast.symm.trans hadv.suggested), hnone]
    have hpath : (split.completed ++ [token]).map Text.lower ≠ [] := by simp
    obtain ⟨d, hd⟩ :=
      (leadsOn_of_build hb hs hne).detailAt_of_tokens_nil hpath hadv.reached htokens
    refine Index.isSome_find?_of_detailAt hwell.ordered hpath hd ?_
    rw [tokenize, words_of_query_empty hadv.split_after rfl]

theorem acceptance_progress_show :
    ∃ b, build (.map showEntries) none = .ok b ∧
      (∃ split node next, Typed.Advances b.tree ⟨"  SHx tail", 4⟩ ⟨"  show x tail", 7⟩ "show"
        split node next) ∧
      ((Index.ofBuild b).find? "  show ip ").isSome = true := by
  let b := Build.ofReadings .flat (Reading.ofFlat showEntries)
  have hb : build (.map showEntries) none = .ok b := rfl
  have hs : Shape.chosen (.map showEntries) none = .ok .flat := rfl
  have hfirst : suggest (some b.tree) "  SHx tail" 4 = .ok ⟨true, ["show"], "SH", 2, 4⟩ := by
    rfl
  have hsecond : suggest (some b.tree) "  show x tail" 7 =
      .ok ⟨true, ["ip", "vlan"], "", 7, 7⟩ := by
    rfl
  have hthird : suggest (some b.tree) "  show ip x tail" 10 = .ok ⟨true, [], "", 10, 10⟩ := by
    decide +kernel
  have hone : Typed.accepted ⟨"  SHx tail", 4⟩ ⟨true, ["show"], "SH", 2, 4⟩ "show" =
      ⟨"  show x tail", 7⟩ := by
    decide +kernel
  have htwo : Typed.accepted ⟨"  show x tail", 7⟩ ⟨true, ["ip", "vlan"], "", 7, 7⟩ "ip" =
      ⟨"  show ip x tail", 10⟩ := by
    decide
  have hend : Typed.before ⟨"  show ip x tail", 10⟩ = "  show ip " := by rfl
  obtain ⟨hstep, hchain⟩ := acceptance_progress hb
  have hadvance := hstep ⟨"  SHx tail", 4⟩ _ "show" hfirst (by simp)
  have hstepOne := Typed.Accepts.accept (t := b.tree) (x := ⟨"  SHx tail", 4⟩) hfirst
    (show "show" ∈ ["show"] by simp)
  have hstepTwo := Typed.Accepts.accept (t := b.tree) (x := ⟨"  show x tail", 7⟩) hsecond
    (show "ip" ∈ ["ip", "vlan"] by simp)
  rw [hone] at hadvance hstepOne
  rw [htwo] at hstepTwo
  have hfound := hchain .flat hs (by decide) _ _ _ (.tail (.single hstepOne) hstepTwo) hthird rfl
  rw [hend] at hfound
  exact ⟨b, hb, hadvance, hfound⟩

end SwitchLexicon
