import SwitchLexicon.Index.Basic
import SwitchLexicon.Proofs.Dictionary.Built
import SwitchLexicon.Proofs.Line.Split

/-!
Suggestions against the commands of an index. A word is suggested exactly when it starts with what
was typed and some command goes on with it after the complete words.
-/
namespace SwitchLexicon

namespace CommandTree

theorem mem_candidates_iff (t : CommandTree) (query w : String) :
    w ∈ t.candidates query ↔ w ∈ t.tokens ∧ Text.startsWith w (Text.lower query) = true := by
  simp [candidates]

theorem Ordered.candidates_sorted {t : CommandTree} (ht : t.Ordered) (query : String) :
    (t.candidates query).Pairwise (· < ·) :=
  ht.sorted_tokens.filter _

end CommandTree

theorem Index.mem_commands_iff {b : Build} (hb : b.tree.Ordered) (d : Detail) :
    d ∈ (Index.ofBuild b).commands ↔ ∃ p, p ≠ [] ∧ b.tree.detailAt p = some d := by
  simp only [Index.commands, Index.entries, Index.ofBuild, List.map_map, List.mem_map,
    Function.comp_apply, Prod.exists]
  constructor
  · rintro ⟨p, e, he, rfl⟩
    exact ⟨p, (CommandTree.mem_commands hb p e).mp he⟩
  · rintro ⟨p, hp⟩
    exact ⟨p, d, (CommandTree.mem_commands hb p d).mpr hp, rfl⟩

def suggestionAt (node : Option CommandTree) (split : LineSplit) (cursor : Int) : Suggestion :=
  ⟨true, (node.map (·.candidates split.query)).getD [], split.query, split.start, cursor.toNat⟩

theorem suggest_eq_of_not_blank (t : CommandTree) {line : String} {cursor : Int}
    {before : List Char} (hbefore : beforeCursor line cursor = .ok before)
    (hblank : ∃ c ∈ before, Text.isBlank c = false) :
    suggest (some t) line cursor = .ok
      (suggestionAt (t.resolve (splitBefore before).completed) (splitBefore before) cursor) := by
  have hall : before.all Text.isBlank = false := by simpa using hblank
  simp [suggest, lookup, hbefore, hall, bind, Except.bind, Except.map, pure, Except.pure,
    suggestionAt]

theorem splitLine_eq {line : String} {cursor : Int} {before : List Char}
    (hbefore : beforeCursor line cursor = .ok before) :
    splitLine line cursor = .ok (splitBefore before) := by
  simp [splitLine, hbefore, Except.map]

theorem suggest_eq_of_blank (t : CommandTree) {line : String} {cursor : Int} {before : List Char}
    (hbefore : beforeCursor line cursor = .ok before) (hblank : before.all Text.isBlank = true) :
    suggest (some t) line cursor = .ok .idle := by
  simp [suggest, lookup, hbefore, hblank, bind, Except.bind, Except.map, pure, Except.pure]

theorem suggest_none {line : String} {cursor : Int} (h0 : 0 ≤ cursor)
    (h1 : cursor ≤ line.length) : ∃ s, suggest none line cursor = .ok s ∧ s.tokens = [] := by
  have hbefore : beforeCursor line cursor = .ok (line.toList.take cursor.toNat) :=
    beforeCursor_eq_ok_iff.mpr ⟨h0, h1, rfl⟩
  by_cases hblank : (line.toList.take cursor.toNat).all Text.isBlank = true
  · refine ⟨.idle, ?_, rfl⟩
    simp [suggest, lookup, hbefore, hblank, bind, Except.bind, Except.map, pure, Except.pure]
  · refine ⟨suggestionAt none (splitBefore (line.toList.take cursor.toNat)) cursor, ?_, rfl⟩
    simp [suggest, lookup, hbefore, hblank, bind, Except.bind, Except.map, pure, Except.pure,
      suggestionAt]

theorem mem_suggestionAt_iff {t : CommandTree} (split : LineSplit) (cursor : Int) (w : String) :
    w ∈ (suggestionAt (t.resolve split.completed) split cursor).tokens ↔
      Text.startsWith w (Text.lower split.query) = true ∧
        (t.get? (split.completed.map Text.lower ++ [w])).isSome = true := by
  cases hnode : t.resolve split.completed with
  | none =>
    have hget : t.get? (split.completed.map Text.lower) = none := hnode
    simp [suggestionAt, CommandTree.get?_append, hget]
  | some node =>
    rw [← CommandTree.mem_tokens_iff_get? hnode, and_comm]
    exact CommandTree.mem_candidates_iff node split.query w

theorem suggestionAt_sorted {t : CommandTree} (ht : t.Ordered) (split : LineSplit) (cursor : Int) :
    (suggestionAt (t.resolve split.completed) split cursor).tokens.Pairwise (· < ·) := by
  cases hnode : t.resolve split.completed with
  | none => simp [suggestionAt]
  | some node => exact (ht.of_get? hnode).candidates_sorted split.query

/-- Without dead ends a way below the root is a beginning of a command. -/
theorem Index.isSome_get?_iff_command {b : Build} (hb : b.tree.WellBuilt) (hon : b.tree.LeadsOn)
    {p : List String} (hp : p ≠ []) :
    (b.tree.get? p).isSome = true ↔
      ∃ d ∈ (Index.ofBuild b).commands, p <+: tokenize d.command := by
  constructor
  · intro hsome
    obtain ⟨q, d, hpq, hd⟩ := hon p hp hsome
    obtain ⟨hq, hname⟩ := hb.named q d hd
    exact ⟨d, (Index.mem_commands_iff hb.ordered d).mpr ⟨q, hq, hd⟩, hname ▸ hpq⟩
  · rintro ⟨d, hd, hpd⟩
    obtain ⟨q, -, hq⟩ := (Index.mem_commands_iff hb.ordered d).mp hd
    rw [(hb.named q d hq).2] at hpd
    exact CommandTree.isSome_get?_of_prefix hpd (CommandTree.isSome_get?_of_detailAt hq)

theorem suggest_iff_command {raw : Value} {shape : Option Shape} {s : Shape} {b : Build}
    (hb : build raw shape = .ok b) (hs : Shape.chosen raw shape = .ok s) (hne : s ≠ .nested)
    {line : String} {cursor : Int} (hlow : 0 ≤ cursor) (hhigh : cursor ≤ line.length)
    (hblank : ∃ c ∈ line.toList.take cursor.toNat, Text.isBlank c = false) :
    ∃ split g, splitLine line cursor = .ok split ∧
      (Index.ofBuild b).suggest line (some cursor) = .ok g ∧
      g.tokens.Pairwise (· < ·) ∧
      ∀ w, w ∈ g.tokens ↔ Text.startsWith w (Text.lower split.query) = true ∧
        ∃ d ∈ (Index.ofBuild b).commands,
          split.completed.map Text.lower ++ [w] <+: tokenize d.command := by
  have hwell := wellBuilt_of_build hb
  have hon := leadsOn_of_build hb hs hne
  have hbefore := beforeCursor_eq_ok_iff.mpr ⟨hlow, hhigh, rfl⟩
  refine ⟨_, _, splitLine_eq hbefore, suggest_eq_of_not_blank b.tree hbefore hblank,
    suggestionAt_sorted hwell.ordered _ _, fun w => ?_⟩
  rw [mem_suggestionAt_iff, Index.isSome_get?_iff_command hwell hon (by simp)]

def showEntries : Entries :=
  [(.text "Show IP", .null), (.text "show  vlan", .text "VLANs"), (.text " ", .null)]

theorem suggest_iff_command_show :
    ∃ b split g, build (.map showEntries) none = .ok b ∧ splitLine "SHOW i" 6 = .ok split ∧
      (Index.ofBuild b).suggest "SHOW i" (some 6) = .ok g ∧ g.tokens = ["ip"] ∧
      ∀ w, w ∈ g.tokens ↔ Text.startsWith w (Text.lower split.query) = true ∧
        ∃ d ∈ (Index.ofBuild b).commands,
          split.completed.map Text.lower ++ [w] <+: tokenize d.command := by
  let b := Build.ofReadings .flat (Reading.ofFlat showEntries)
  have hb : build (.map showEntries) none = .ok b := rfl
  have hs : Shape.chosen (.map showEntries) none = .ok .flat := rfl
  have hhigh : (6 : Int) ≤ "SHOW i".length := by decide
  have hblank : ∃ c ∈ "SHOW i".toList.take (6 : Int).toNat, Text.isBlank c = false :=
    ⟨'S', by decide +kernel, by decide⟩
  have hsuggest : (Index.ofBuild b).suggest "SHOW i" (some 6) = .ok ⟨true, ["ip"], "i", 5, 6⟩ := by
    decide +kernel
  obtain ⟨split, g, hsplit, hg, -, hwords⟩ :=
    suggest_iff_command hb hs (by decide) (by decide) hhigh hblank
  obtain rfl := Except.ok.inj (hsuggest.symm.trans hg)
  exact ⟨b, split, _, hb, hsplit, hg, rfl, hwords⟩

end SwitchLexicon
