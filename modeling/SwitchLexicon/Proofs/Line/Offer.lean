import SwitchLexicon.Proofs.Line.Cut
import SwitchLexicon.Proofs.Line.Suggestion
import SwitchLexicon.Proofs.Text.Beginning

/-!
Typing a command the way its dictionary spells it. While a word of the command is being typed its
token is among the suggestions, unless the typed part ends in a capital sigma that is final only
because the word is not typed to its end.
-/
namespace SwitchLexicon

theorem suffix_unwords (ws : List String) (q : String) :
    q.toList <:+ (Text.unwords (ws ++ [q])).toList := by
  rw [Text.unwords, String.toList_intercalate, List.map_append, List.map_singleton]
  induction ws with
  | nil => simp
  | cons w ws ih =>
    obtain ⟨v, vs, hrest⟩ : ∃ v vs, ws.map String.toList ++ [q.toList] = v :: vs :=
      List.exists_cons_of_ne_nil (by simp)
    rw [hrest] at ih
    rw [List.map_cons, List.cons_append, hrest, List.intercalate_cons_cons]
    exact ih.trans (List.suffix_append _ _)

theorem splitBefore_unwords {ws : List String} {q : String} (hws : ∀ w ∈ ws, Text.IsWord w)
    (hq : Text.IsWord q) :
    (splitBefore (Text.unwords (ws ++ [q])).toList).completed = ws ∧
      (splitBefore (Text.unwords (ws ++ [q])).toList).query = q := by
  have hwords : Text.words (Text.unwords (ws ++ [q])) = ws ++ [q] := by
    refine Text.words_unwords fun w hw => ?_
    rcases List.mem_append.mp hw with hw | hw
    · exact hws w hw
    · exact List.mem_singleton.mp hw ▸ hq
  obtain ⟨init, c, hqc⟩ := (List.eq_nil_or_concat' q.toList).resolve_left hq.1
  have hc : Text.isBlank c = false := hq.2 c (by simp [hqc])
  obtain ⟨front, hfront⟩ := suffix_unwords ws q
  rw [hqc, ← List.append_assoc] at hfront
  have hno : ¬EndsInFeed (Text.unwords (ws ++ [q])).toList := by
    rintro ⟨other, d, hother, -⟩
    rw [← hfront, List.append_cons other d ['\n']] at hother
    obtain rfl : c = '\n' := by simpa using List.append_inj_right' hother rfl
    exact absurd hc (by decide)
  have hcuts := (cutsAtRun_of_no_feed hno).words
  have hquery : (splitBefore (Text.unwords (ws ++ [q])).toList).query ≠ "" := by
    rw [splitBefore_query_of_no_feed hno, ← hfront, List.rtakeWhile_concat_pos _ _ _ (by simp [hc])]
    simp
  rw [String.ofList_toList, hwords, if_neg hquery] at hcuts
  have hparts := List.append_inj' hcuts (by simp only [List.length_singleton])
  exact ⟨hparts.1.symm, (List.singleton_inj.mp hparts.2).symm⟩

theorem beforeCursor_length (line : String) : beforeCursor line line.length = .ok line.toList := by
  refine beforeCursor_eq_ok_iff.mpr ⟨Int.natCast_nonneg _, le_rfl, ?_⟩
  rw [Int.toNat_natCast, ← String.length_toList, List.take_length]

theorem shows_of_build_flat {es : Entries} {shape : Option Shape} {b : Build}
    (hb : build (.map es) shape = .ok b) (hs : Shape.chosen (.map es) shape = .ok .flat) :
    b.tree.Shows (Source.ofEntries es) := by
  obtain ⟨s, rs, hchosen, hrs, rfl⟩ := build_eq_ok_iff.mp hb
  obtain rfl : s = .flat := Except.ok.inj (hchosen.symm.trans hs)
  obtain rfl : Reading.ofFlat es = rs := Except.ok.inj hrs
  exact CommandTree.shows_ofReadings (Reading.commands_ofFlat es) (Reading.opened_ofFlat es)

theorem typed_beginning_offered_iff {es : Entries} {shape : Option Shape} {b : Build}
    (hb : build (.map es) shape = .ok b) (hs : Shape.chosen (.map es) shape = .ok .flat)
    {source : Source} {name : String} {d : Detail} (hsource : source ∈ Source.ofEntries es)
    (haccepts : source.Accepts name d) {i : Nat} {typed rest : String}
    (hword : (Text.words name)[i]? = some (typed ++ rest)) (htyped : typed ≠ "") :
    let line := Text.unwords ((Text.words name).take i ++ [typed])
    ∃ g, suggest (some b.tree) line line.length = .ok g ∧
      (Text.lower (typed ++ rest) ∈ g.tokens ↔
        ¬Text.PartsSigma typed.toList rest.toList) := by
  intro line
  have hwhole : Text.IsWord (typed ++ rest) :=
    Text.isWord_of_mem_words (List.mem_of_getElem? hword)
  have hpiece : Text.IsWord typed :=
    ⟨by simpa using htyped, fun c hc => hwhole.2 c (by simp [hc])⟩
  obtain ⟨hcompleted, hquery⟩ := splitBefore_unwords
    (fun w hw => Text.isWord_of_mem_words (List.mem_of_mem_take hw) :
      ∀ w ∈ (Text.words name).take i, Text.IsWord w) hpiece
  have hsolid : ∃ c ∈ line.toList, Text.isBlank c = false := by
    obtain ⟨c, hc⟩ := List.exists_mem_of_ne_nil _ hpiece.1
    exact ⟨c, (suffix_unwords _ typed).subset hc, hpiece.2 c hc⟩
  refine ⟨_, suggest_eq_of_not_blank b.tree (beforeCursor_length line) hsolid, ?_⟩
  rw [mem_suggestionAt_iff, hcompleted, hquery, Text.startsWith_lower_iff]
  refine and_iff_left ?_
  have hpath : ((Text.words name).take i).map Text.lower ++ [Text.lower (typed ++ rest)] <+:
      tokenize name := by
    have htake := List.take_add_one (l := Text.words name) (i := i)
    rw [hword] at htake
    have hprefix := (List.take_prefix (i + 1) (Text.words name)).map Text.lower
    rwa [htake, List.map_append] at hprefix
  exact ((shows_of_build_flat hb hs).place_iff _).mpr
    (Or.inr ⟨source, hsource, name, d, haccepts, hpath⟩)

/-- A word with a dotted capital I and two sigmas, typed up to the last of them. -/
theorem typed_beginning_offered_dotted :
    ∃ b g, build (.map [(.text "Show İΣΑΣ", .null)]) none = .ok b ∧
      suggest (some b.tree) "Show İΣΑ" 8 = .ok g ∧ Text.lower "İΣΑΣ" ∈ g.tokens := by
  have hb : build (.map [(.text "Show İΣΑΣ", .null)]) none =
      .ok (.ofReadings .flat (Reading.ofFlat [(.text "Show İΣΑΣ", .null)])) := rfl
  have hsource : (⟨.text "Show İΣΑΣ", .null⟩ : Source) ∈
      Source.ofEntries [(.text "Show İΣΑΣ", .null)] := List.mem_singleton.mpr rfl
  have haccepts :
      Source.Accepts ⟨.text "Show İΣΑΣ", .null⟩ "Show İΣΑΣ" { command := "Show İΣΑΣ" } :=
    ⟨rfl, ⟨'S', by decide, by decide⟩, rfl⟩
  have hkept : ¬Text.PartsSigma "İΣΑ".toList "Σ".toList :=
    (Text.startsWith_lower_iff "İΣΑ" "Σ").mp (by decide +kernel)
  have hline : Text.unwords ((Text.words "Show İΣΑΣ").take 1 ++ ["İΣΑ"]) = "Show İΣΑ" := by
    rfl
  have hword : (Text.words "Show İΣΑΣ")[1]? = some ("İΣΑ" ++ "Σ") := by rfl
  obtain ⟨g, hg, hiff⟩ :=
    typed_beginning_offered_iff hb rfl hsource haccepts hword (by decide)
  rw [hline] at hg
  exact ⟨_, g, hb, hg, hiff.mpr hkept⟩

/-- The sigma is final in what is typed and not in the command, so the command is not offered. -/
theorem final_sigma_not_offered :
    ∃ b g, build (.map [(.text "ΑΣΑ", .text "x")]) (some .flat) = .ok b ∧
      Source.Accepts ⟨.text "ΑΣΑ", .text "x"⟩ "ΑΣΑ" { command := "ΑΣΑ", description := "x" } ∧
      suggest (some b.tree) "ΑΣ" 2 = .ok g ∧ Text.lower "ΑΣΑ" ∉ g.tokens := by
  refine ⟨_, ⟨true, [], "ΑΣ", 0, 2⟩, rfl, ⟨rfl, ⟨'Σ', by decide, by decide⟩, rfl⟩, ?_,
    List.not_mem_nil⟩
  decide +kernel

end SwitchLexicon
