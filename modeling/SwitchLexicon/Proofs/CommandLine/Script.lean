import SwitchLexicon.Proofs.CommandLine.Course
import SwitchLexicon.Proofs.Console.Markup
import SwitchLexicon.Proofs.Highlight.Segment
import SwitchLexicon.Proofs.Json.RoundTrip
import SwitchLexicon.Proofs.Json.Written
import SwitchLexicon.Proofs.Text.Lines
import SwitchLexicon.Proofs.Text.Utf8

/-!
Output for scripts. Every answer is one document, whose status says the same as the exit code, and
the document is read back from what is printed. The message of a refusal is a text for people, so
what was escaped for the console stays escaped in it.
-/
namespace SwitchLexicon

/-! ## Documents -/

inductive Envelope where
  | success (data : Value)
  | failure (message : String)

namespace Envelope

def status : Envelope → String
  | .success _ => "success"
  | .failure _ => "error"

def exit : Envelope → Nat
  | .success _ => 0
  | .failure _ => 1

def content : Envelope → String × Value
  | .success data => ("data", data)
  | .failure message => ("error", .ofEntries [("message", .text message), ("code", .int 1)])

def document (e : Envelope) : Value :=
  .ofEntries [("status", .text e.status), e.content]

def event (e : Envelope) : OutputEvent :=
  .print (Json.pretty e.document ++ "\n")

def answer (e : Envelope) : CommandLine.Answer :=
  { events := [e.event], exit := e.exit }

theorem event_eq (e : Envelope) : e.event =
    .print (Json.beforeFirst 0 "status" ++ (Json.textLiteral e.status ++
      (Json.afterFirst 0 e.content.1 e.content.2 ++ "\n"))) := by
  rw [event, document, Json.pretty, Json.write_pair, String.append_assoc, String.append_assoc,
    Json.write]

theorem second_of_textLiteral (e : Envelope) (rest : String) :
    (Json.textLiteral e.status ++ rest).toList[1]? = e.status.toList[0]? := by
  cases e with
  | success data =>
    rw [status, String.toList_append, List.getElem?_append_left (by decide)]
    decide
  | failure message =>
    rw [status, String.toList_append, List.getElem?_append_left (by decide)]
    decide

theorem status_eq_of_event_eq {e f : Envelope} (h : e.event = f.event) : e.status = f.status := by
  rw [event_eq, event_eq, OutputEvent.print.injEq, String.append_right_inj] at h
  have hfirst : e.status.toList[0]? = f.status.toList[0]? := by
    rw [← second_of_textLiteral, h, second_of_textLiteral]
  -- The first letter tells one status from the other.
  have hne : "success".toList[0]? ≠ "error".toList[0]? := by decide
  cases e with
  | success data =>
    cases f with
    | success data' => rfl
    | failure message => exact absurd hfirst hne
  | failure message =>
    cases f with
    | success data => exact absurd hfirst hne.symm
    | failure message' => rfl

theorem status_iff_exit {e f : Envelope} (h : e.answer.events = [f.event]) :
    (f.status = "error" ↔ e.answer.exit = 1) ∧ (f.status = "success" ↔ e.answer.exit = 0) := by
  rw [← status_eq_of_event_eq (List.singleton_inj.mp h)]
  cases e with
  | success data => exact ⟨by simp [status, answer, exit], by simp [status, answer, exit]⟩
  | failure message => exact ⟨by simp [status, answer, exit], by simp [status, answer, exit]⟩

/-- What goes into the document from outside can be read back. -/
structure IsRestored (e : Envelope) : Prop where
  data : ∀ data, e = .success data → Json.Layered Json.Restored (Json.depthLimit - 1) data
  message : ∀ message, e = .failure message → Text.isEncodable message = true

theorem IsRestored.layered_document {e : Envelope} (h : e.IsRestored) :
    Json.Layered Json.Restored Json.depthLimit e.document := by
  cases e with
  | success data =>
    have hstatus : Json.Restored (.text "success") := .text (by decide)
    exact Json.layered_pair (by decide) (by decide) (by decide) (.leaf hstatus) (h.data data rfl)
  | failure message =>
    have hstatus : Json.Restored (.text "error") := .text (by decide)
    have hcode : Json.Restored (.int 1) := .int Json.one_lt_numberLimit
    have herror : Json.Layered Json.Restored (Json.depthLimit - 1)
        (.ofEntries [("message", .text message), ("code", .int 1)]) :=
      Json.layered_pair (by decide) (by decide) (by decide) (.leaf (.text (h.message message rfl)))
        (.leaf hcode)
    exact Json.layered_pair (by decide) (by decide) (by decide) (.leaf hstatus) herror

theorem IsRestored.read_of_event {e : Envelope} (h : e.IsRestored) {text : String}
    (htext : e.event = .print text) : Json.read text = .ok e.document := by
  obtain rfl := OutputEvent.print.inj htext
  exact Json.read_write h.layered_document (some 0) (List.all_eq_true.mp (by decide))

/-- The message is what stands between two texts that are always the same. -/
theorem textLiteral_of_event_eq {m n : String} (h : (failure m).event = (failure n).event) :
    Json.textLiteral m = Json.textLiteral n := by
  rw [event_eq, event_eq, OutputEvent.print.injEq, String.append_right_inj] at h
  simp only [status, String.append_right_inj, String.append_left_inj, content] at h
  rw [Json.afterFirst, Json.afterFirst, String.append_left_inj, String.append_left_inj,
    String.append_right_inj, Json.write_pair, Json.write_pair, String.append_right_inj,
    String.append_left_inj] at h
  exact h

theorem answer_escape_eq_iff (text : String) :
    (failure (Markup.escape text)).answer = (failure text).answer ↔
      Markup.isPlain text = true := by
  rw [← Markup.escape_eq_self_iff]
  refine ⟨fun h => ?_, fun h => by rw [h]⟩
  have hevents := congrArg CommandLine.Answer.events h
  have hliteral := textLiteral_of_event_eq (List.singleton_inj.mp hevents)
  rw [Json.textLiteral, Json.textLiteral, String.append_left_inj, String.append_right_inj,
    String.ofList_inj] at hliteral
  exact (String.toList_inj.mp
    (Json.eq_of_flatMap_escapedChar (Markup.sublist_escape text) hliteral.symm)).symm

end Envelope

namespace CommandLine

variable {i : Index}

/-! ## Answers for scripts -/

theorem withEnabled_script (e : Envelope) :
    ∃ f : Envelope, withEnabled .script i e.answer = f.answer := by
  rw [withEnabled]
  split
  · exact ⟨e, rfl⟩
  · exact ⟨.failure ("Command dictionary unavailable: " ++ i.error), rfl⟩

theorem showEntry_script (words : List String) :
    ∃ e : Envelope, showEntry .script i words = e.answer := by
  rw [showEntry]
  cases i.get (Text.unwords words) with
  | ok d => exact withEnabled_script (.success d.toValue)
  | error e => exact withEnabled_script (.failure (Markup.escape (notFoundMessage e words)))

/-- Words and their descriptions come from one look-up, so both are there or neither. -/
theorem complete_script (line : String) (cursor : Option Int) :
    ∃ e : Envelope, complete .script i line cursor = e.answer ∧
      ∀ data, e = .success data ↔
        ∃ s, i.suggest line cursor = .ok s ∧ data = suggestionValue s := by
  rw [complete, Index.suggest, Index.describe, suggest, describe]
  cases lookup i.tree line (cursor.getD line.length) with
  | error e =>
    refine ⟨.failure ("--cursor must be between 0 and " ++ toString line.length ++ "."), rfl, ?_⟩
    simp [Except.map]
  | ok found =>
    refine ⟨.success (suggestionValue found.1), rfl, ?_⟩
    simp [Except.map, eq_comm]

def textField? (v : Value) : Option String :=
  (v.get? "text").bind Value.text?

def joinedText? : Value → Option String
  | .list vs => (vs.mapM textField?).map String.join
  | _ => none

theorem joinedText?_classifyLine (line : String) :
    joinedText? (.list ((classifyLine line).map segmentValue)) = some line := by
  have htexts (segments : List (String × Category)) :
      (segments.map segmentValue).mapM textField? = some (segments.map Prod.fst) := by
    induction segments with
    | nil => rfl
    | cons s ss ih =>
      rw [List.map_cons, List.mapM_cons, ih]
      rfl
  rw [joinedText?, htexts, map_fst_classifyLine, Option.map_some, join_segments]

theorem highlight_script (text : String) :
    ∃ lines : List Value,
      highlight .script (Text.encodeUtf8 text) = .ok (Envelope.success (.list lines)).answer ∧
        lines.map joinedText? = (Text.lines text).map some := by
  have hlines : sourceLines (Text.encodeUtf8 text) = .ok (Text.lines text) := by
    rw [sourceLines, (Text.decodeUtf8_eq_ok_iff _ text).mpr rfl]
    dsimp only
    rw [Text.lines, String.toList_ofList, Text.linesOf_unifyLineEnds, Text.lines]
  refine ⟨(Text.lines text).map fun l => .list ((classifyLine l).map segmentValue), ?_, ?_⟩
  · rw [highlight, hlines]
    rfl
  · rw [List.map_map]
    exact List.map_congr_left fun line _ => joinedText?_classifyLine line

theorem run_of_answer {scene : Scene} {s : Started} {r : Request} {a : Answer}
    (hcourse : scene.course = .request s r) (hi : (s.opened r).2 = .ok i)
    (ha : r.answer s.mode i = .ok a) :
    (run scene).events = a.events ∧ (run scene).session = [] ∧ (run scene).exit = a.exit ∧
      (run scene).failure = none := by
  rw [run_of_request hcourse, respond_of_answer hi ha]
  exact ⟨rfl, rfl, rfl, rfl⟩

theorem exists_answer_script (r : Request) (hbrowse : ∀ query, r ≠ .browse query)
    (hsource : ∀ content, r = .highlight content → ∃ text, content = Text.encodeUtf8 text) :
    ∃ e : Envelope, r.answer .script i = .ok e.answer ∧
      (∀ line cursor, r = .complete line cursor → ∀ data, e = .success data ↔
        ∃ s, i.suggest line cursor = .ok s ∧ data = suggestionValue s) ∧
      ∀ text, r = .highlight (Text.encodeUtf8 text) → ∃ lines, e = .success (.list lines) ∧
        lines.map joinedText? = (Text.lines text).map some := by
  cases r with
  | browse query => exact absurd rfl (hbrowse query)
  | search query limit =>
    obtain ⟨e, he⟩ := withEnabled_script (i := i) (.success (i.searchRecords query limit))
    exact ⟨e, congrArg _ he, nofun, nofun⟩
  | «show» words =>
    obtain ⟨e, he⟩ := showEntry_script (i := i) words
    exact ⟨e, congrArg _ he, nofun, nofun⟩
  | stats => exact ⟨.success i.stats.toValue, rfl, nofun, nofun⟩
  | complete line cursor =>
    obtain ⟨e, he, hdata⟩ := complete_script (i := i) line cursor
    refine ⟨e, congrArg _ he, ?_, nofun⟩
    rintro _ _ ⟨⟩
    exact hdata
  | highlight content =>
    obtain ⟨text, rfl⟩ := hsource content rfl
    obtain ⟨lines, hanswer, hlines⟩ := highlight_script text
    refine ⟨.success (.list lines), hanswer, nofun, fun text' htext => ⟨lines, rfl, ?_⟩⟩
    rw [← Text.encodeUtf8_injective (Request.highlight.inj htext)]
    exact hlines

/-- A script gets one document for each request but that for the browser, and its status says what
the exit code says. A reader gets the document from what is printed, unless its numbers are too
long, its texts cannot be encoded or it lies too deep. -/
theorem script_answer_is_envelope (i : Index) (r : Request) (hbrowse : ∀ query, r ≠ .browse query)
    (hsource : ∀ content, r = .highlight content → ∃ text, content = Text.encodeUtf8 text) :
    ∃ e : Envelope, r.answer .script i = .ok e.answer ∧
      (∀ f : Envelope, e.answer.events = [f.event] →
        (f.status = "error" ↔ e.answer.exit = 1) ∧ (f.status = "success" ↔ e.answer.exit = 0)) ∧
      (e.IsRestored → ∀ text, e.event = .print text → Json.read text = .ok e.document) ∧
      (∀ line cursor, r = .complete line cursor → ∀ data, e = .success data ↔
        ∃ s, i.suggest line cursor = .ok s ∧ data = suggestionValue s ∧
          data.get? "tokens" = some (.list (s.tokens.map .text))) ∧
      (∀ text, r = .highlight (Text.encodeUtf8 text) → ∃ lines, e = .success (.list lines) ∧
        lines.map joinedText? = (Text.lines text).map some) ∧
      ∀ scene s, scene.course = .request s r → s.mode = .script → (s.opened r).2 = .ok i →
        (run scene).events = [e.event] ∧ (run scene).session = [] ∧
          (run scene).exit = e.answer.exit ∧ (run scene).failure = none := by
  obtain ⟨e, hanswer, hcomplete, hhighlight⟩ := exists_answer_script (i := i) r hbrowse hsource
  refine ⟨e, hanswer, fun f hf => Envelope.status_iff_exit hf,
    fun h text htext => h.read_of_event htext, ?_, hhighlight, ?_⟩
  · intro line cursor hr data
    rw [hcomplete line cursor hr]
    refine exists_congr fun s => and_congr_right fun _ => ?_
    exact ⟨fun h => ⟨h, by rw [h]; rfl⟩, And.left⟩
  · intro scene s hcourse hmode hi
    exact run_of_answer hcourse hi (hmode ▸ hanswer)

def sourceScene : Scene :=
  { args := ["--json", "highlight"]
    standardInput := Text.encodeUtf8 "show\r\nno [b]"
    surroundings := ⟨none, "home", []⟩ }

theorem script_answer_is_envelope_highlight :
    ∃ e : Envelope, (∃ lines, e = .success (.list lines) ∧
        lines.map joinedText? = [some "show", some "no [b]"]) ∧
      (run sourceScene).events = [e.event] ∧ (run sourceScene).exit = 0 := by
  obtain ⟨e, -, -, -, -, hhighlight, hrun⟩ := script_answer_is_envelope (.disabled "")
    (.highlight (Text.encodeUtf8 "show\r\nno [b]")) nofun fun content h =>
      ⟨_, (Request.highlight.inj h).symm⟩
  obtain ⟨lines, rfl, hlines⟩ := hhighlight _ rfl
  obtain ⟨hevents, -, hexit, -⟩ := hrun sourceScene _ rfl rfl rfl
  exact ⟨_, ⟨lines, rfl, hlines⟩, hevents, hexit⟩

/-! ## Commands that are not found -/

def notFoundSentence (words : List String) (last : String) : String :=
  "Command not found: " ++ Text.unwords words ++ ". Try 'aoshelper search " ++ last ++ "'."

theorem showEntry_of_not_found {words : List String} (hi : i.isEnabled = true)
    (hwords : words ≠ []) (hnone : i.find? (Text.unwords words) = none) :
    showEntry .script i words = (Envelope.failure
      (Markup.escape (notFoundSentence words (words.getLast hwords)))).answer := by
  have hget : i.get (Text.unwords words) = .error (.notFound (Text.unwords words)) := by
    rw [Index.get, hnone]
  have hlast : words.getLast hwords = words.getLastD "" := by
    rw [List.getLastD_eq_getLast?, List.getLast?_eq_some_getLast hwords, Option.getD_some]
  have hsentence : notFoundMessage (.notFound (Text.unwords words)) words =
      notFoundSentence words (words.getLastD "") := rfl
  rw [hlast, ← hsentence, showEntry, withEnabled, if_pos hi, hget]
  rfl

/-- The sentence ends in a full stop, so only a tag can make it need an escape. -/
theorem isPlain_notFoundSentence (words : List String) (last : String) :
    Markup.isPlain (notFoundSentence words last) =
      !Markup.hasTag (notFoundSentence words last).toList := by
  have hends (front : String) : Markup.endsInSingleSlash (front ++ "'.").toList = false := by
    rw [String.toList_append, Markup.endsInSingleSlash, List.reverse_append]
    rfl
  have hsentence : Markup.endsInSingleSlash (notFoundSentence words last).toList = false := hends _
  rw [Markup.isPlain, hsentence, Bool.not_false, Bool.and_true]

/-- The message for a script is the escaped sentence, and so the sentence itself exactly if nothing
in it looks like a tag. -/
theorem show_script_message_literal_iff (i : Index) (hi : i.isEnabled = true) (words : List String)
    (hwords : words ≠ []) (hnone : i.find? (Text.unwords words) = none) :
    (Request.show words).answer .script i =
        .ok (Envelope.failure
          (Markup.escape (notFoundSentence words (words.getLast hwords)))).answer ∧
      ((Request.show words).answer .script i =
          .ok (Envelope.failure (notFoundSentence words (words.getLast hwords))).answer ↔
        Markup.hasTag (notFoundSentence words (words.getLast hwords)).toList = false) := by
  have hanswer : (Request.show words).answer .script i = .ok _ :=
    congrArg _ (showEntry_of_not_found hi hwords hnone)
  refine ⟨hanswer, ?_⟩
  rw [hanswer, Except.ok.injEq, Envelope.answer_escape_eq_iff, isPlain_notFoundSentence,
    Bool.not_eq_true']

def showIndex : Index :=
  .ofBuild (.ofReadings .nested (Reading.ofLevel [] [(.text "show", .null)]))

theorem show_script_message_literal_iff_open_bracket :
    showIndex.isEnabled = true ∧ showIndex.find? "show [all" = none ∧
      (Request.show ["show", "[all"]).answer .script showIndex =
        .ok (Envelope.failure (notFoundSentence ["show", "[all"] "[all")).answer := by
  have hnone : showIndex.find? (Text.unwords ["show", "[all"]) = none := by decide +kernel
  have hmessage := show_script_message_literal_iff showIndex rfl ["show", "[all"]
    (List.cons_ne_nil _ _) hnone
  exact ⟨rfl, hnone, hmessage.2.mpr (by rfl)⟩

/-- The backslash that the console would take away is in the message. -/
theorem show_script_message_tagged :
    showIndex.isEnabled = true ∧ showIndex.find? "[b]" = none ∧
      (Request.show ["[b]"]).answer .script showIndex ≠
        .ok (Envelope.failure (notFoundSentence ["[b]"] "[b]")).answer := by
  have hnone : showIndex.find? (Text.unwords ["[b]"]) = none := by rfl
  refine ⟨rfl, hnone, fun h => ?_⟩
  have hanswer := showEntry_of_not_found rfl (List.cons_ne_nil _ _) hnone
  have hplain := (Envelope.answer_escape_eq_iff _).mp (hanswer.symm.trans (Except.ok.inj h))
  exact absurd hplain (by decide)

end CommandLine

end SwitchLexicon
