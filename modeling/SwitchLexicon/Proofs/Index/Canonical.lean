import SwitchLexicon.Proofs.Index.Lookup
import SwitchLexicon.Proofs.Text.Strip

/-!
Spellings of a command. A blank cuts a text into two parts that are lowered each for itself, so it
makes no difference whether a command is lowered before it is cut into words or after. The canonical
form of a command is a form of its path alone, and all that an index knows of a command it knows by
that form; only the failure to find one repeats the command as it was written.
-/
namespace SwitchLexicon

namespace Text

theorem IsRun.lowerFrom {w : List Char} (hw : IsRun w) : IsRun (lowerFrom [] w) := by
  have hword : IsWord (String.ofList w) := by rwa [IsWord, String.toList_ofList]
  simpa [IsWord, lower] using hword.lower

/-- Every text is empty, a run, or two texts with a blank between them. -/
theorem blankInduction {P : List Char → Prop} (nil : P []) (run : ∀ w, IsRun w → P w)
    (cut : ∀ cs b ds, isBlank b = true → P cs → P ds → P (cs ++ b :: ds)) (cs : List Char) :
    P cs := by
  by_cases hblank : ∃ b ∈ cs, isBlank b = true
  · obtain ⟨b, hmem, hb⟩ := hblank
    obtain ⟨before, after, rfl⟩ := List.append_of_mem hmem
    exact cut before b after hb (blankInduction nil run cut before)
      (blankInduction nil run cut after)
  · have hsolid : ∀ c ∈ cs, isBlank c = false := by
      intro c hc
      exact Bool.eq_false_iff.mpr fun h => hblank ⟨c, hc, h⟩
    cases cs with
    | nil => exact nil
    | cons c cs => exact run (c :: cs) ⟨by simp, hsolid⟩
termination_by cs.length
decreasing_by
  · subst_vars
    simp only [List.length_append, List.length_cons]
    omega
  · subst_vars
    simp only [List.length_append, List.length_cons]
    omega

theorem wordsOf_lowerFrom (cs : List Char) :
    wordsOf (lowerFrom [] cs) = (wordsOf cs).map (lowerFrom []) := by
  induction cs using blankInduction with
  | nil => rfl
  | run w hw => rw [wordsOf_run hw.lowerFrom, wordsOf_run hw, List.map_singleton]
  | cut cs b ds hb ihcs ihds =>
    rw [lowerFrom_append_blank hb, wordsOf_append_blank hb, wordsOf_append_blank hb, ihcs, ihds,
      List.map_append]

theorem words_lower (s : String) : words (lower s) = (words s).map lower := by
  rw [words, lower, String.toList_ofList, wordsOf_lowerFrom, words, List.map_map, List.map_map]
  refine List.map_congr_left fun w _ => ?_
  simp only [Function.comp_apply, lower, String.toList_ofList]

end Text

theorem tokenize_canonical (command : String) : tokenize (canonical command) = tokenize command :=
  tokenize_unwords fun _ hw => isToken_of_mem_tokenize hw

theorem canonical_eq_iff (a b : String) : canonical a = canonical b ↔ tokenize a = tokenize b := by
  constructor
  · intro h
    rw [← tokenize_canonical a, h, tokenize_canonical b]
  · intro h
    rw [canonical, canonical, h]

namespace Index

/-- What an index tells of two spellings. Where it finds nothing, the failure repeats the spelling.
-/
structure FindsAlike (i : Index) (a b : String) : Prop where
  find? : i.find? a = i.find? b
  contains : i.contains (.text a) = i.contains (.text b)
  get : (∃ detail, i.get a = .ok detail ∧ i.get b = .ok detail) ∨
    i.get a = .error (.notFound a) ∧ i.get b = .error (.notFound b)

theorem findsAlike_of_canonical_eq (i : Index) {a b : String} (h : canonical a = canonical b) :
    i.FindsAlike a b := by
  have hfind : i.find? a = i.find? b := by rw [find?, find?, h]
  refine ⟨hfind, by rw [contains, contains, hfind], ?_⟩
  rw [get, get, hfind]
  cases i.find? b with
  | none => exact Or.inr ⟨rfl, rfl⟩
  | some detail => exact Or.inl ⟨detail, rfl, rfl⟩

end Index

theorem canonical_spelling (command : String) :
    tokenize (Text.unwords (tokenize command)) = tokenize command ∧
    tokenize command = Text.words (Text.lower command) ∧
    (∀ token ∈ tokenize command, token ≠ "" ∧ ∀ c ∈ token.toList, Text.isBlank c = false) ∧
    canonical (canonical command) = canonical command ∧
    (∀ other, canonical other = canonical command ↔
      (Text.words other).map Text.lower = (Text.words command).map Text.lower) ∧
    ∀ other, (Text.words other).map Text.lower = (Text.words command).map Text.lower →
      ∀ i : Index, i.FindsAlike other command := by
  refine ⟨tokenize_canonical command, (Text.words_lower command).symm, fun token htoken => ?_,
    (canonical_eq_iff _ _).mpr (tokenize_canonical command),
    fun other => canonical_eq_iff other command, fun other hother i => ?_⟩
  · obtain ⟨hne, hsolid⟩ := (isToken_of_mem_tokenize htoken).word
    exact ⟨fun hempty => hne (by rw [hempty]; rfl), hsolid⟩
  · exact i.findsAlike_of_canonical_eq ((canonical_eq_iff other command).mpr hother)

/-- The sigma is final at the end of its word, with a blank after it or not. -/
theorem canonical_spelling_sigma :
    (Text.words "SHOW\tΑΣ Ip").map Text.lower = (Text.words " show ας IP").map Text.lower ∧
      canonical "SHOW\tΑΣ Ip" = canonical " show ας IP" ∧
      ∃ i detail, (Index.ofValue (.ofEntries [("Show ΑΣ ip", .text "Sigma")]) none).result = .ok i ∧
        i.find? " show ας IP" = some detail ∧ i.find? "SHOW\tΑΣ Ip" = some detail := by
  have hwords : (Text.words "SHOW\tΑΣ Ip").map Text.lower =
      (Text.words " show ας IP").map Text.lower := by decide +kernel
  have hindex : (Index.ofValue (.ofEntries [("Show ΑΣ ip", .text "Sigma")]) none).result =
      .ok (.ofBuild (.ofReadings .flat (Reading.ofFlat [(.text "Show ΑΣ ip", .text "Sigma")]))) :=
    result_ofValue_of_isOk rfl (by decide +kernel)
  obtain ⟨-, -, -, -, hcanonical, halike⟩ := canonical_spelling " show ας IP"
  refine ⟨hwords, (hcanonical _).mpr hwords, _, { command := "Show ΑΣ ip", description := "Sigma" },
    hindex, by decide +kernel, ?_⟩
  rw [(halike _ hwords _).find?]
  decide +kernel

/-- A command that is not there is not found under any spelling, but the failures differ. -/
theorem get_repeats_spelling :
    ∃ i, (Index.ofValue (.map []) none).result = .ok i ∧
      (Text.words "IP").map Text.lower = (Text.words "ip").map Text.lower ∧
      i.get "IP" ≠ i.get "ip" := by
  have hindex : (Index.ofValue (.map []) none).result =
      .ok (.ofBuild (.ofReadings .flat [])) := result_ofValue_of_isOk rfl (by rfl)
  refine ⟨_, hindex, by decide, fun h => ?_⟩
  have hcommand : "IP" = "ip" := Failure.notFound.inj (Except.error.inj h)
  exact absurd hcommand (by decide)

end SwitchLexicon
