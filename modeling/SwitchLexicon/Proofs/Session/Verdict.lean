import SwitchLexicon.Proofs.Index.Lookup
import SwitchLexicon.Proofs.Line.Acceptance
import SwitchLexicon.Proofs.Line.Offer
import SwitchLexicon.Session.Basic

/-!
The verdict of a session on a line. The scan for the longest command and the question for a next
word are two separate walks through the tree. Where every way leads on to a command, they agree with
the commands of the dictionary: the line starts with one, or is the beginning of one, or neither.
-/
namespace SwitchLexicon

theorem exists_concat_prefix_iff {p q : List String} :
    (∃ w, p ++ [w] <+: q) ↔ p <+: q ∧ p ≠ q := by
  constructor
  · rintro ⟨w, rest, rfl⟩
    refine ⟨⟨w :: rest, by simp⟩, fun h => ?_⟩
    have := congrArg List.length h
    simp only [List.length_append, List.length_singleton] at this
    omega
  · rintro ⟨⟨rest, rfl⟩, hne⟩
    cases rest with
    | nil => exact absurd (List.append_nil p).symm hne
    | cons w rest => exact ⟨w, rest, by simp⟩

namespace Index

def Starts (d : Detail) (line : String) : Prop :=
  tokenize d.command ≠ [] ∧ tokenize d.command <+: tokenize line

def StopsIn (line : String) (d : Detail) : Prop :=
  tokenize line <+: tokenize d.command ∧ tokenize line ≠ tokenize d.command

/-- What the commands of an index make of a line. -/
inductive Judges (i : Index) (line : String) : Verdict → Prop
  | command {d : Detail} (mem : d ∈ i.commands) (starts : Starts d line)
      (longest : ∀ e ∈ i.commands, Starts e line →
        (tokenize e.command).length ≤ (tokenize d.command).length) :
      Judges i line (.command d ((Text.words line).drop (tokenize d.command).length))
  | incomplete (none_starts : ∀ d ∈ i.commands, ¬Starts d line)
      (stops : ∃ d ∈ i.commands, StopsIn line d) : Judges i line .incomplete
  | unknown (none_starts : ∀ d ∈ i.commands, ¬Starts d line)
      (none_stops : ∀ d ∈ i.commands, ¬StopsIn line d) : Judges i line .unknown

section Built

variable {b : Build}

theorem detailAt_of_mem_commands (hb : b.tree.WellBuilt) {d : Detail}
    (hd : d ∈ (ofBuild b).commands) : b.tree.detailAt (tokenize d.command) = some d := by
  obtain ⟨p, -, hp⟩ := (mem_commands_iff hb.ordered d).mp hd
  rw [(hb.named p d hp).2, hp]

theorem mem_commands_of_detailAt (hb : b.tree.WellBuilt) {p : List String} {d : Detail}
    (hp : b.tree.detailAt p = some d) : d ∈ (ofBuild b).commands ∧ tokenize d.command = p := by
  obtain ⟨hne, hname⟩ := hb.named p d hp
  exact ⟨(mem_commands_iff hb.ordered d).mpr ⟨p, hne, hp⟩, hname⟩

theorem Judges.unique (hb : b.tree.WellBuilt) {line : String} {u v : Verdict}
    (hu : (ofBuild b).Judges line u) (hv : (ofBuild b).Judges line v) : u = v := by
  cases hu with
  | @command d mem starts longest =>
    cases hv with
    | @command e mem' starts' longest' =>
      have hlength : (tokenize d.command).length = (tokenize e.command).length :=
        Nat.le_antisymm (longest' d mem starts) (longest e mem' starts')
      have hpath : tokenize d.command = tokenize e.command :=
        (List.prefix_of_prefix_length_le starts.2 starts'.2 hlength.le).eq_of_length hlength
      have hd := detailAt_of_mem_commands hb mem
      rw [hpath, detailAt_of_mem_commands hb mem', Option.some.injEq] at hd
      rw [hd]
    | incomplete none_starts stops => exact absurd starts (none_starts d mem)
    | unknown none_starts none_stops => exact absurd starts (none_starts d mem)
  | incomplete none_starts stops =>
    cases hv with
    | @command e mem starts longest => exact absurd starts (none_starts e mem)
    | incomplete _ _ => rfl
    | unknown _ none_stops =>
      obtain ⟨d, mem, hd⟩ := stops
      exact absurd hd (none_stops d mem)
  | unknown none_starts none_stops =>
    cases hv with
    | @command e mem starts longest => exact absurd starts (none_starts e mem)
    | incomplete _ stops =>
      obtain ⟨d, mem, hd⟩ := stops
      exact absurd hd (none_stops d mem)
    | unknown _ _ => rfl

theorem map_lower_take (line : String) (k : Nat) :
    ((Text.words line).take k).map Text.lower = (tokenize line).take k := by
  rw [List.map_take, tokenize]

theorem length_le_of_noneAfter (hb : b.tree.WellBuilt) {line : String} {k : Nat}
    (h : NoneAfter b.tree (Text.words line) k) {e : Detail} (he : e ∈ (ofBuild b).commands)
    (hstarts : Starts e line) : (tokenize e.command).length ≤ k := by
  by_contra hlt
  have hlength : (tokenize e.command).length ≤ (Text.words line).length := by
    have hle := hstarts.2.length_le
    rwa [tokenize, tokenize, List.length_map, List.length_map] at *
  have hnone := h _ (Nat.lt_of_not_le hlt) hlength
  rw [map_lower_take, ← List.prefix_iff_eq_take.mp hstarts.2, detailAt_of_mem_commands hb he]
    at hnone
  exact absurd hnone (Option.some_ne_none e)

/-- The line with a blank behind it asks for everything that can follow its words. -/
theorem canContinue_iff_get? {line : String} (hline : Text.isBlankText line = false) :
    (ofBuild b).canContinue line = true ↔
      ∃ w, (b.tree.get? (tokenize line ++ [w])).isSome = true := by
  have hbefore := beforeCursor_length (line ++ " ")
  have hchars : (line ++ " ").toList = line.toList ++ [' '] := by simp
  have hsolid : ∃ c ∈ (line ++ " ").toList, Text.isBlank c = false := by
    obtain ⟨c, hc, hblank⟩ := (Text.isBlankText_eq_false_iff line).mp hline
    exact ⟨c, by simp [hc], hblank⟩
  have hsuggest := suggest_eq_of_not_blank b.tree hbefore hsolid
  rw [hchars, splitBefore_concat_space] at hsuggest
  have hcontinue : (ofBuild b).canContinue line = !(suggestionAt
      (b.tree.resolve (Text.words line)) ⟨Text.words line, "", line.toList.length + 1⟩
      (line ++ " ").length).tokens.isEmpty := by
    have hindex : (ofBuild b).suggest (line ++ " ") none = _ := hsuggest
    rw [canContinue, hindex]
    rfl
  have hmem := mem_suggestionAt_iff (t := b.tree) ⟨Text.words line, "", line.toList.length + 1⟩
    (line ++ " ").length
  rw [hcontinue, Bool.not_eq_true', List.isEmpty_eq_false_iff_exists_mem]
  refine exists_congr fun w => (hmem w).trans ?_
  have hempty : Text.startsWith w (Text.lower "") = true := by
    rw [show Text.lower "" = "" from rfl]
    simp [Text.startsWith]
  exact and_iff_right hempty

theorem canContinue_iff (hb : b.tree.WellBuilt) (hon : b.tree.LeadsOn) {line : String}
    (hline : Text.isBlankText line = false) :
    (ofBuild b).canContinue line = true ↔ ∃ d ∈ (ofBuild b).commands, StopsIn line d := by
  have hnext : ∀ w, (b.tree.get? (tokenize line ++ [w])).isSome = true ↔
      ∃ d ∈ (ofBuild b).commands, tokenize line ++ [w] <+: tokenize d.command := fun w =>
    isSome_get?_iff_command hb hon (by simp)
  rw [canContinue_iff_get? hline]
  constructor
  · rintro ⟨w, hw⟩
    obtain ⟨d, hd, hprefix⟩ := (hnext w).mp hw
    exact ⟨d, hd, exists_concat_prefix_iff.mp ⟨w, hprefix⟩⟩
  · rintro ⟨d, hd, hstops⟩
    obtain ⟨w, hprefix⟩ := exists_concat_prefix_iff.mpr hstops
    exact ⟨w, (hnext w).mpr ⟨d, hd, hprefix⟩⟩

theorem judges_verdict (hb : b.tree.WellBuilt) (hon : b.tree.LeadsOn) {line : String}
    (hline : Text.isBlankText line = false) :
    (ofBuild b).Judges line ((ofBuild b).verdict line) := by
  have hscan : (ofBuild b).longestCommand line =
      longestFrom b.tree ⟨none, Text.words line⟩ (Text.words line) := rfl
  rcases longestFrom_cases b.tree ⟨none, Text.words line⟩ (Text.words line) with
    ⟨k, d, hk, hle, hd, hlongest, heq⟩ | ⟨hnone, heq⟩
  · rw [map_lower_take] at hd
    obtain ⟨hmem, hname⟩ := mem_commands_of_detailAt hb hd
    have hlength : (tokenize d.command).length = k := by
      rw [hname, List.length_take, tokenize, List.length_map]
      omega
    have hstarts : Starts d line := by
      refine ⟨List.length_pos_iff.mp (by omega), ?_⟩
      rw [hname]
      exact List.take_prefix k _
    have hverdict : (ofBuild b).verdict line =
        .command d ((Text.words line).drop (tokenize d.command).length) := by
      rw [verdict, hscan, heq, hlength]
    rw [hverdict]
    refine .command hmem hstarts fun e he hstarts' => ?_
    rw [hlength]
    exact length_le_of_noneAfter hb hlongest he hstarts'
  · have hnone_starts : ∀ d ∈ (ofBuild b).commands, ¬Starts d line := by
      intro d hd hstarts
      have hzero := length_le_of_noneAfter hb hnone hd hstarts
      exact hstarts.1 (List.length_eq_zero_iff.mp (Nat.le_zero.mp hzero))
    have hverdict : (ofBuild b).verdict line =
        if (ofBuild b).canContinue line then .incomplete else .unknown := by
      rw [verdict, hscan, heq]
    have hcontinue := canContinue_iff hb hon hline
    rw [hverdict]
    split
    next hc => exact .incomplete hnone_starts (hcontinue.mp hc)
    next hc => exact .unknown hnone_starts fun d hd hstops => hc (hcontinue.mpr ⟨d, hd, hstops⟩)

end Built

end Index

namespace Session

/-- The verdict is the one that the commands give, and its message is drawn after the line. Scripts
are told only that there is no command. -/
theorem checkLine_reports {raw : Value} {shape : Option Shape} {s : Shape} {b : Build}
    (hb : build raw shape = .ok b) (hs : Shape.chosen raw shape = .ok s) (hne : s ≠ .nested)
    {line : String} (hline : Text.isBlankText line = false) :
    let human := checkLine ⟨.human, Index.ofBuild b⟩ line
    let script := checkLine ⟨.script, Index.ofBuild b⟩ line
    ∃ v, (∀ u, (Index.ofBuild b).Judges line u ↔ u = v) ∧
      (∀ d arguments, v = .command d arguments →
        human = [.draw (.text (highlight line)),
          .draw (.markup ("[dim]ℹ[/dim] [bold]" ++ Markup.escape d.command ++ "[/bold] — " ++
            Markup.escape d.description ++
            if arguments = [] then ""
            else " (arguments: " ++ Markup.escape (Text.unwords arguments) ++ ")"))] ∧
        script = []) ∧
      (v = .incomplete →
        human = [.draw (.text (highlight line)),
          .draw (.markup ("[yellow]![/yellow] Incomplete command. " ++
            "Type '?' after the line to see what can follow."))] ∧
        script = [.drawError (.markup ("[yellow]![/yellow] Incomplete command. " ++
          "Type '?' after the line to see what can follow."))]) ∧
      (v = .unknown →
        human = [.draw (.text (highlight line)),
          .draw (.markup "[yellow]![/yellow] Unknown command.")] ∧
        script = [.drawError (.markup "[yellow]![/yellow] Unknown command.")]) := by
  intro human script
  have hwell := wellBuilt_of_build hb
  have hjudges := Index.judges_verdict hwell (leadsOn_of_build hb hs hne) hline
  have hhuman : human = .draw (.text (highlight line)) ::
    verdictReport .human ((Index.ofBuild b).verdict line) := rfl
  have hscript : script = verdictReport .script ((Index.ofBuild b).verdict line) := rfl
  refine ⟨(Index.ofBuild b).verdict line, fun u => ⟨fun hu => hu.unique hwell hjudges, ?_⟩, ?_, ?_,
    ?_⟩
  · rintro rfl
    exact hjudges
  · intro d arguments hverdict
    rw [hhuman, hscript, hverdict]
    refine ⟨?_, rfl⟩
    simp only [verdictReport, Report.info, argumentsNote, List.isEmpty_iff, String.append_assoc]
    rfl
  · intro hverdict
    rw [hhuman, hscript, hverdict]
    exact ⟨rfl, rfl⟩
  · intro hverdict
    rw [hhuman, hscript, hverdict]
    exact ⟨rfl, rfl⟩

theorem checkLine_reports_show :
    ∃ b, build (.map showEntries) none = .ok b ∧
      (∀ u, (Index.ofBuild b).Judges "show IP 10 x" u ↔
        u = .command { command := "Show IP" } ["10", "x"]) ∧
      checkLine ⟨.human, Index.ofBuild b⟩ "show IP 10 x" =
        [.draw (.text (highlight "show IP 10 x")),
          .draw (.markup "[dim]ℹ[/dim] [bold]Show IP[/bold] —  (arguments: 10 x)")] := by
  let b := Build.ofReadings .flat (Reading.ofFlat showEntries)
  have hb : build (.map showEntries) none = .ok b := rfl
  have hs : Shape.chosen (.map showEntries) none = .ok .flat := rfl
  have hline : Text.isBlankText "show IP 10 x" = false := by rfl
  have hverdict : (Index.ofBuild b).verdict "show IP 10 x" =
      .command { command := "Show IP" } ["10", "x"] := by
    rfl
  have htext : "[dim]ℹ[/dim] [bold]" ++ Markup.escape "Show IP" ++ "[/bold] — " ++
      Markup.escape "" ++
      (if ["10", "x"] = [] then ""
        else " (arguments: " ++ Markup.escape (Text.unwords ["10", "x"]) ++ ")") =
      "[dim]ℹ[/dim] [bold]Show IP[/bold] —  (arguments: 10 x)" := by
    rfl
  obtain ⟨v, hjudges, hcommand, -⟩ := checkLine_reports hb hs (by decide) hline
  have hright := Index.judges_verdict (wellBuilt_of_build hb)
    (leadsOn_of_build hb hs (by decide)) hline
  obtain rfl := (hjudges _).mp hright
  refine ⟨b, hb, hverdict ▸ hjudges, (hcommand _ _ hverdict).1.trans ?_⟩
  exact congrArg
    (fun text => [OutputEvent.draw (.text (highlight "show IP 10 x")), .draw (.markup text)]) htext

end Session

end SwitchLexicon
