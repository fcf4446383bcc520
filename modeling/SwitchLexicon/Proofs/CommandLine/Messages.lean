import SwitchLexicon.Proofs.CommandLine.Course
import SwitchLexicon.Proofs.Console.Markup

/-!
What a run tells people in single lines. Each line is a template that is fixed for its topic, with a
gap for each text from outside. Such a text is escaped before it goes into its gap; that a command
is not found is escaped as a whole sentence. There is one exception: the error of a dictionary that
could not be loaded is put in as it is.
-/
namespace SwitchLexicon

inductive Mark where
  | error
  | warning
  | info
  | bare
deriving DecidableEq, Repr

def Mark.sign : Mark → String
  | .error => "[red]✗[/red] "
  | .warning => "[yellow]![/yellow] "
  | .info => "[dim]ℹ[/dim] "
  | .bare => ""

/-- For scripts only warnings are drawn, and what the session says by itself. -/
def Mark.isDrawn : Mode → Mark → Bool
  | .human, _ => true
  | .script, .warning => true
  | .script, .bare => true
  | .script, _ => false

inductive Piece where
  | fixed (s : String)
  | gap
deriving DecidableEq, Repr

def Piece.fill : List Piece → List String → String
  | [], _ => ""
  | .fixed s :: ps, xs => s ++ fill ps xs
  | .gap :: ps, x :: xs => x ++ fill ps xs
  | .gap :: ps, [] => fill ps []

inductive Topic where
  | unavailable
  | completionOff
  | cursorOutside
  | nothingTyped
  | noCompletions
  | noMatch
  | notFound
  | notFoundTry
  | nothingNext
  | unknownSlash
  | command
  | commandAndArguments
  | incomplete
  | unknown
  | farewell
deriving DecidableEq, Repr

namespace Topic

def mark : Topic → Mark
  | .unavailable | .cursorOutside | .notFound | .notFoundTry | .unknownSlash => .error
  | .completionOff | .noCompletions | .nothingNext | .incomplete | .unknown => .warning
  | .nothingTyped | .noMatch | .command | .commandAndArguments => .info
  | .farewell => .bare

def template : Topic → List Piece
  | .unavailable => [.fixed "Command dictionary unavailable: ", .gap]
  | .completionOff => [.fixed "Command dictionary unavailable, completion is off: ", .gap]
  | .cursorOutside => [.fixed "--cursor must be between 0 and ", .gap, .fixed "."]
  | .nothingTyped => [.fixed "Type a command to see completions."]
  | .noCompletions => [.fixed "No completions for \"", .gap, .fixed "\"."]
  | .noMatch => [.fixed "No commands match \"", .gap, .fixed "\"."]
  | .notFound => [.fixed "Command not found: ", .gap]
  | .notFoundTry =>
    [.fixed "Command not found: ", .gap, .fixed ". Try 'aoshelper search ", .gap, .fixed "'."]
  | .nothingNext => [.fixed "No completions here."]
  | .unknownSlash =>
    [.fixed "Unknown session command: /", .gap, .fixed ". Type /help for help."]
  | .command => [.fixed "[bold]", .gap, .fixed "[/bold] — ", .gap]
  | .commandAndArguments =>
    [.fixed "[bold]", .gap, .fixed "[/bold] — ", .gap, .fixed " (arguments: ", .gap, .fixed ")"]
  | .incomplete =>
    [.fixed "Incomplete command. Type '?' after the line to see what can follow."]
  | .unknown => [.fixed "Unknown command."]
  | .farewell => [.fixed "\n[dim]Goodbye![/dim]"]

def gaps (t : Topic) : Nat :=
  t.template.count .gap

def tellsError : Topic → Bool
  | .unavailable | .completionOff => true
  | _ => false

def quote (t : Topic) : String → String :=
  if t.tellsError then id else Markup.escape

/-- The sentence is put together first and then quoted as one text. -/
def isQuotedWhole : Topic → Bool
  | .notFound | .notFoundTry => true
  | _ => false

def sentence (t : Topic) (quote : String → String) (texts : List String) : String :=
  if t.isQuotedWhole then quote (Piece.fill t.template texts)
  else Piece.fill t.template (texts.map quote)

theorem sentence_escaped {t : Topic} (hwhole : t.isQuotedWhole = false)
    (herror : t.tellsError = false) (texts : List String) :
    t.sentence t.quote texts = Piece.fill t.template (texts.map Markup.escape) := by
  simp only [sentence, quote, hwhole, herror, Bool.false_eq_true, if_false]

theorem sentence_whole {t : Topic} (hwhole : t.isQuotedWhole = true)
    (herror : t.tellsError = false) (texts : List String) :
    t.sentence t.quote texts = Markup.escape (Piece.fill t.template texts) := by
  simp only [sentence, quote, hwhole, herror, Bool.false_eq_true, if_true, if_false]

theorem sentence_fixed {t : Topic} {s : String} (htemplate : t.template = [.fixed s])
    (hwhole : t.isQuotedWhole = false) (herror : t.tellsError = false) :
    s = t.sentence t.quote [] := by
  rw [sentence_escaped hwhole herror, htemplate, Piece.fill, List.map_nil, Piece.fill,
    String.append_empty]

theorem sentence_raw {t : Topic} (hwhole : t.isQuotedWhole = false)
    (herror : t.tellsError = true) (texts : List String) :
    t.sentence t.quote texts = Piece.fill t.template texts := by
  simp only [sentence, quote, hwhole, herror, Bool.false_eq_true, if_true, if_false, List.map_id]

end Topic

/-- A topic with a text for each gap of its template. -/
structure Message where
  topic : Topic
  texts : List String
  fits : texts.length = topic.gaps

namespace Message

def on (topic : Topic) (texts : List String)
    (fits : texts.length = topic.gaps := by simp [Topic.gaps, Topic.template]) : Message :=
  ⟨topic, texts, fits⟩

def write (quote : String → String) (m : Message) : String :=
  m.topic.mark.sign ++ m.topic.sentence quote m.texts

def drawn (m : Message) : String :=
  m.write m.topic.quote

/-- One raw text at the end of a template stands out unless it is its own escape. -/
theorem drawn_eq_write_escape_iff (m : Message) : m.drawn = m.write Markup.escape ↔
    (m.topic.tellsError = true → ∀ x ∈ m.texts, Markup.isPlain x = true) := by
  cases htopic : m.topic.tellsError with
  | false =>
    rw [drawn, Topic.quote, htopic]
    simp
  | true =>
    rw [drawn, Topic.quote, if_pos htopic]
    obtain ⟨topic, texts, fits⟩ := m
    -- Both topics that tell of an error have one gap, at the end of the line.
    have hone : texts.length = 1 ∧ topic.isQuotedWhole = false ∧
        ∃ s, topic.template = [.fixed s, .gap] := by
      cases topic with
      | unavailable => exact ⟨fits, rfl, _, rfl⟩
      | completionOff => exact ⟨fits, rfl, _, rfl⟩
      | _ => cases htopic
    obtain ⟨hlength, hwhole, s, htemplate⟩ := hone
    obtain ⟨x, rfl⟩ := List.length_eq_one_iff.mp hlength
    have hwrite (quote : String → String) :
        write quote ⟨topic, [x], fits⟩ = topic.mark.sign ++ (s ++ quote x) := by
      simp only [write, Topic.sentence, hwhole, htemplate, Piece.fill, List.map_cons, List.map_nil,
        String.append_empty, Bool.false_eq_true, if_false]
    rw [hwrite, hwrite, String.append_right_inj, String.append_right_inj, id, eq_comm,
      Markup.escape_eq_self_iff]
    simp

end Message

/-! ## What is drawn as markup -/

def OutputEvent.markup? : OutputEvent → Option String
  | .draw (.markup s) => some s
  | .drawError (.markup s) => some s
  | _ => none

def markups (events : List OutputEvent) : List String :=
  events.filterMap OutputEvent.markup?

theorem markups_append (es fs : List OutputEvent) :
    markups (es ++ fs) = markups es ++ markups fs :=
  List.filterMap_append

def Message.lines (mode : Mode) (ms : List Message) : List String :=
  (ms.filter fun m => m.topic.mark.isDrawn mode).map Message.drawn

theorem Message.lines_append (mode : Mode) (ms ns : List Message) :
    Message.lines mode (ms ++ ns) = Message.lines mode ms ++ Message.lines mode ns := by
  rw [Message.lines, List.filter_append, List.map_append]
  rfl

theorem Message.lines_human (ms : List Message) :
    Message.lines .human ms = ms.map Message.drawn :=
  congrArg (List.map Message.drawn) (List.filter_eq_self.mpr fun _ _ => rfl)

namespace Report

def marked (mode : Mode) : Mark → String → List OutputEvent
  | .error => Report.error mode
  | .warning => Report.warning mode
  | .info => Report.info mode
  | .bare => fun text => [.draw (.markup text)]

theorem markups_marked (mode : Mode) (mark : Mark) (text : String) :
    markups (marked mode mark text) = if mark.isDrawn mode then [mark.sign ++ text] else [] := by
  cases mark with
  | bare => cases mode <;> simp [marked, markups, OutputEvent.markup?, Mark.isDrawn, Mark.sign]
  | _ => cases mode <;> rfl

theorem markups_on (mode : Mode) (topic : Topic) {texts : List String}
    (fits : texts.length = topic.gaps) {text : String}
    (htext : text = topic.sentence topic.quote texts) :
    markups (marked mode topic.mark text) = Message.lines mode [.on topic texts fits] := by
  rw [markups_marked, htext, Message.lines, List.filter_cons, List.filter_nil]
  change _ = List.map Message.drawn (if topic.mark.isDrawn mode then [_] else [])
  split <;> rfl

theorem markups_table (mode : Mode) (title : String) (columns : List Column)
    (rows : List (List String)) : markups (table mode title columns rows) = [] := by
  cases mode <;> rfl

theorem markups_detail (mode : Mode) (d : Detail) : markups (detail mode d) = [] := by
  cases mode <;> rfl

theorem markups_highlighted (mode : Mode) (line : String) :
    markups (highlighted mode line) = [] := by
  cases mode <;> rfl

end Report

theorem Index.eq_notFound_of_get {i : Index} {command : String} {e : Failure}
    (h : i.get command = .error e) : e = .notFound command := by
  rw [Index.get] at h
  split at h
  · cases h
  · exact (Except.error.inj h).symm

/-! ## Messages of a session -/

namespace Session

def nextMessages (i : Index) (line : String) : List Message :=
  if (nextWords i line).isEmpty then [.on .nothingNext []] else []

def searchMessages (i : Index) (text : String) : List Message :=
  if (i.search text searchLimit).isEmpty then [.on .noMatch [text]] else []

def showMessages (i : Index) (command : String) : List Message :=
  match i.get command with
  | .ok _ => []
  | .error _ => [.on .notFound [command]]

def slashMessages (i : Index) (text : String) : List Message :=
  let (name, rest) := (Text.firstWord text).getD ("", "")
  let name := Text.lower name
  if name == "help" then []
  else if name == "search" then searchMessages i rest
  else if name == "show" then showMessages i rest
  else [.on .unknownSlash [name]]

def verdictMessage : Verdict → Message
  | .command d [] => .on .command [d.command, d.description]
  | .command d (w :: ws) =>
    .on .commandAndArguments [d.command, d.description, Text.unwords (w :: ws)]
  | .incomplete => .on .incomplete []
  | .unknown => .on .unknown []

def replyMessages (i : Index) (entered : String) : List Message :=
  let text := Text.strip entered
  if text.toList.getLast? == some '?' then nextMessages i (withoutLast text)
  else if text.toList.head? == some '/' then slashMessages i (withoutSlashes text)
  else [verdictMessage (i.verdict text)]

def goodbye : Message :=
  .on .farewell []

def waitMessages (s : Setup) : List Input → List Message
  | [] => [goodbye]
  | .complete _ _ :: inputs => waitMessages s inputs
  | .interrupt :: inputs => waitMessages s inputs
  | .line text :: inputs =>
    match reply s text with
    | .none => waitMessages s inputs
    | .output _ => replyMessages s.index text ++ waitMessages s inputs
    | .leave => [goodbye]

def openingMessages (i : Index) : List Message :=
  if i.isEnabled then [] else [.on .completionOff [i.error]]

/-- From the banner on; a session that cannot be set up says no more than its opening. -/
def messages (s : Setup) (config : Value) (history : Except Failure Path) (inputs : List Input) :
    List Message :=
  openingMessages s.index ++
    match popupSettings config, history with
    | .ok _, .ok _ => waitMessages s inputs
    | _, _ => []

theorem sentence_noMatch (text : String) :
    noMatch text = Topic.noMatch.sentence Topic.noMatch.quote [text] := by
  have hfill (x : String) : "No commands match \"" ++ x ++ "\"." =
      Piece.fill Topic.noMatch.template [x] := by
    simp [Topic.template, Piece.fill, String.append_assoc]
  exact (hfill (Markup.escape text)).trans (Topic.sentence_escaped rfl rfl [text]).symm

theorem sentence_notFound (command : String) :
    Markup.escape (Failure.notFound command).message =
      Topic.notFound.sentence Topic.notFound.quote [command] := by
  have hfill : "Command not found: " ++ command = Piece.fill Topic.notFound.template [command] := by
    simp [Topic.template, Piece.fill]
  exact (congrArg Markup.escape hfill).trans (Topic.sentence_whole rfl rfl [command]).symm

variable (s : Setup)

theorem markups_listNext (line : String) :
    markups (listNext s line) = Message.lines s.mode (nextMessages s.index line) := by
  rw [listNext, nextMessages]
  split
  · exact Report.markups_on s.mode .nothingNext _ (Topic.sentence_fixed rfl rfl rfl)
  · exact Report.markups_table s.mode _ _ _

theorem markups_search (text : String) :
    markups (search s text) = Message.lines s.mode (searchMessages s.index text) := by
  rw [search, searchMessages]
  split
  · exact Report.markups_on s.mode .noMatch _ (sentence_noMatch text)
  · exact Report.markups_table s.mode _ _ _

theorem markups_showCommand (command : String) :
    markups (showCommand s command) = Message.lines s.mode (showMessages s.index command) := by
  rw [showCommand, showMessages]
  cases hget : s.index.get command with
  | ok d => exact Report.markups_detail s.mode d
  | error e =>
    rw [Index.eq_notFound_of_get hget]
    exact Report.markups_on s.mode .notFound _ (sentence_notFound command)

theorem markups_slashCommand (text : String) :
    markups (slashCommand s text) = Message.lines s.mode (slashMessages s.index text) := by
  rw [slashCommand, slashMessages]
  rcases (Text.firstWord text).getD ("", "") with ⟨name, rest⟩
  dsimp only
  split_ifs
  · rfl
  · exact markups_search s rest
  · exact markups_showCommand s rest
  · refine Report.markups_on s.mode .unknownSlash _ ?_
    rw [Topic.sentence_escaped rfl rfl]
    simp [Topic.template, Piece.fill, String.append_assoc]

theorem markups_verdictReport (v : Verdict) :
    markups (verdictReport s.mode v) = Message.lines s.mode [verdictMessage v] := by
  cases v with
  | incomplete =>
    exact Report.markups_on s.mode .incomplete _ (Topic.sentence_fixed rfl rfl rfl)
  | unknown => exact Report.markups_on s.mode .unknown _ (Topic.sentence_fixed rfl rfl rfl)
  | command d arguments =>
    cases arguments with
    | nil =>
      refine Report.markups_on s.mode .command _ ?_
      rw [Topic.sentence_escaped rfl rfl]
      simp [argumentsNote, Topic.template, Piece.fill, String.append_assoc]
    | cons w ws =>
      refine Report.markups_on s.mode .commandAndArguments _ ?_
      rw [Topic.sentence_escaped rfl rfl]
      simp [argumentsNote, Topic.template, Piece.fill, String.append_assoc]

theorem markups_checkLine (line : String) :
    markups (checkLine s line) = Message.lines s.mode [verdictMessage (s.index.verdict line)] := by
  rw [checkLine, markups_append, Report.markups_highlighted, markups_verdictReport]
  rfl

theorem markups_of_reply {entered : String} {events : List OutputEvent}
    (h : reply s entered = .output events) :
    markups events = Message.lines s.mode (replyMessages s.index entered) := by
  rw [reply] at h
  rw [replyMessages]
  have hblank (es : List OutputEvent) : markups (es ++ [.blankLine]) = markups es := by
    rw [markups_append]
    exact List.append_nil _
  split_ifs at h with hempty hleave hask hslash
  · obtain rfl := Reply.output.inj h
    rw [if_pos hask, hblank, markups_listNext]
  · obtain rfl := Reply.output.inj h
    rw [if_neg hask, if_pos hslash, hblank, markups_slashCommand]
  · obtain rfl := Reply.output.inj h
    rw [if_neg hask, if_neg hslash, hblank, markups_checkLine]

def Step.events : Step → List OutputEvent
  | .prompt before => before
  | .completions _ => []

def Transcript.markups (t : Transcript) : List String :=
  SwitchLexicon.markups (t.steps.flatMap Step.events ++ t.closing)

theorem Transcript.markups_after (step : Step) (t : Transcript) :
    (t.after step).markups = SwitchLexicon.markups step.events ++ t.markups := by
  rw [Transcript.markups, Transcript.after, List.flatMap_cons, List.append_assoc, markups_append]
  rfl

theorem markups_farewell (mode : Mode) :
    (⟨[], farewell, none⟩ : Transcript).markups = Message.lines mode [goodbye] :=
  Report.markups_on mode .farewell _ (Topic.sentence_fixed rfl rfl rfl)

theorem markups_wait (popup : PopupSettings) (inputs : List Input) :
    (wait s popup inputs).markups = Message.lines s.mode (waitMessages s inputs) := by
  induction inputs with
  | nil => exact markups_farewell s.mode
  | cons input inputs ih =>
    cases input with
    | complete text cursor => exact (Transcript.markups_after _ _).trans ih
    | interrupt => exact (Transcript.markups_after _ _).trans ih
    | line text =>
      rw [wait, waitMessages]
      cases hreply : reply s text with
      | none => exact (Transcript.markups_after _ _).trans ih
      | leave => exact markups_farewell s.mode
      | output events =>
        dsimp only
        rw [Transcript.markups_after, ih, Message.lines_append]
        exact congrArg (· ++ _) (markups_of_reply s hreply)

theorem markups_opening :
    markups (banner ++ unavailable s) = Message.lines s.mode (openingMessages s.index) := by
  rw [markups_append, unavailable, openingMessages]
  split
  · rfl
  · refine (List.nil_append _).trans (Report.markups_on s.mode .completionOff _ ?_)
    rw [Topic.sentence_raw rfl rfl]
    simp [Topic.template, Piece.fill]

theorem markups_start (config : Value) (history : Except Failure Path) (inputs : List Input) :
    (start s config history inputs).markups =
      Message.lines s.mode (messages s config history inputs) := by
  cases hpopup : popupSettings config with
  | error e =>
    simp only [start, messages, hpopup, List.append_nil, ← markups_opening]
    rfl
  | ok popup =>
    cases history with
    | error e =>
      simp only [start, messages, hpopup, List.append_nil, ← markups_opening]
      rfl
    | ok path =>
      simp only [start, messages, hpopup, Transcript.markups_after, markups_wait,
        Message.lines_append, ← markups_opening]
      rfl

end Session

/-! ## Messages of a request -/

namespace CommandLine

def enabledOr (i : Index) (ms : List Message) : List Message :=
  if i.isEnabled then ms else [.on .unavailable [i.error]]

def completionMessages (line : String) (s : Suggestion) (pairs : List (String × String)) :
    List Message :=
  if !s.triggered then [.on .nothingTyped []]
  else if pairs.isEmpty then [.on .noCompletions [line]]
  else []

def outsideMessage (line : String) : Message :=
  .on .cursorOutside [toString line.length]

def completeMessages (i : Index) (line : String) (cursor : Option Int) : List Message :=
  match i.suggest line cursor, i.describe line cursor with
  | .ok s, .ok pairs => completionMessages line s pairs
  | _, _ => [outsideMessage line]

def Request.messages (i : Index) : Request → List Message
  | .complete line cursor => completeMessages i line cursor
  | .search query limit =>
    enabledOr i (if (i.search query limit).isEmpty then [.on .noMatch [query]] else [])
  | .show words =>
    enabledOr i
      (match i.get (Text.unwords words) with
      | .ok _ => []
      | .error _ => [.on .notFoundTry [Text.unwords words, words.getLastD ""]])
  | .stats | .browse _ => enabledOr i []
  | .highlight _ => []

variable {i : Index}

theorem markups_withEnabled (mode : Mode) {a : Answer} {ms : List Message}
    (h : markups a.events = Message.lines mode ms) :
    markups (withEnabled mode i a).events = Message.lines mode (enabledOr i ms) := by
  rw [withEnabled, enabledOr]
  split
  · exact h
  · refine Report.markups_on mode .unavailable _ ?_
    rw [Topic.sentence_raw rfl rfl]
    simp [Topic.template, Piece.fill]

theorem markups_completionReport (line : String) (s : Suggestion)
    (pairs : List (String × String)) : markups (completionReport .human line s pairs) =
      Message.lines .human (completionMessages line s pairs) := by
  rw [completionReport, completionMessages]
  split_ifs
  · exact Report.markups_on .human .nothingTyped _ (Topic.sentence_fixed rfl rfl rfl)
  · refine Report.markups_on .human .noCompletions _ ?_
    rw [Topic.sentence_escaped rfl rfl]
    simp [Topic.template, Piece.fill, String.append_assoc]
  · rfl

theorem markups_outside (line : String) :
    markups
        (refusal .human ("--cursor must be between 0 and " ++ toString line.length ++ ".")).events =
      Message.lines .human [outsideMessage line] := by
  have hplain := (Markup.escape_eq_self_iff _).mpr (Markup.isPlain_toString line.length)
  refine Report.markups_on .human .cursorOutside _ ?_
  refine Eq.trans ?_ (Topic.sentence_escaped rfl rfl _).symm
  simp only [List.map_singleton, hplain, Topic.template, Piece.fill, String.append_assoc,
    String.append_empty]

theorem markups_complete (line : String) (cursor : Option Int) :
    markups (complete .human i line cursor).events =
      Message.lines .human (completeMessages i line cursor) := by
  rw [complete, completeMessages]
  cases i.suggest line cursor with
  | error e => exact markups_outside line
  | ok s =>
    cases i.describe line cursor with
    | error e => exact markups_outside line
    | ok pairs => exact markups_completionReport line s pairs

theorem sentence_notFoundTry (words : List String) :
    Markup.escape (notFoundMessage (.notFound (Text.unwords words)) words) =
      Topic.notFoundTry.sentence Topic.notFoundTry.quote
        [Text.unwords words, words.getLastD ""] := by
  have hfill (named last : String) :
      "Command not found: " ++ named ++ ". Try 'aoshelper search " ++ last ++ "'." =
        Piece.fill Topic.notFoundTry.template [named, last] := by
    simp [Topic.template, Piece.fill, String.append_assoc]
  exact (congrArg Markup.escape (hfill _ _)).trans (Topic.sentence_whole rfl rfl _).symm

theorem markups_showEntry (words : List String) : markups (showEntry .human i words).events =
    Message.lines .human ((Request.show words).messages i) := by
  refine markups_withEnabled .human ?_
  cases hget : i.get (Text.unwords words) with
  | ok d => exact Report.markups_detail .human d
  | error e =>
    rw [Index.eq_notFound_of_get hget]
    exact Report.markups_on .human .notFoundTry _ (sentence_notFoundTry words)

theorem markups_highlightReport (mode : Mode) (lines : List String) :
    markups (highlightReport mode lines) = [] := by
  cases mode with
  | script => rfl
  | human =>
    rw [highlightReport, markups, List.filterMap_eq_nil_iff]
    intro e he
    obtain ⟨line, -, hline⟩ := List.mem_flatMap.mp he
    obtain rfl := List.mem_singleton.mp hline
    rfl

theorem markups_highlight {mode : Mode} {content : List UInt8} {a : Answer}
    (h : highlight mode content = .ok a) : markups a.events = [] := by
  cases hlines : sourceLines content with
  | error e =>
    rw [highlight, hlines] at h
    cases h
  | ok lines =>
    rw [highlight, hlines] at h
    obtain rfl := Except.ok.inj h
    exact markups_highlightReport mode lines

theorem markups_answer {r : Request} {a : Answer} (h : r.answer .human i = .ok a) :
    markups a.events = Message.lines .human (r.messages i) := by
  cases r with
  | highlight content => exact markups_highlight h
  | complete line cursor =>
    obtain rfl := Except.ok.inj h
    exact markups_complete line cursor
  | «show» words =>
    obtain rfl := Except.ok.inj h
    exact markups_showEntry words
  | stats =>
    obtain rfl := Except.ok.inj h
    exact markups_withEnabled .human rfl
  | browse query =>
    obtain rfl := Except.ok.inj h
    exact markups_withEnabled .human rfl
  | search query limit =>
    obtain rfl := Except.ok.inj h
    refine markups_withEnabled .human ?_
    rw [searchReport]
    dsimp only
    split
    · exact Report.markups_on .human .noMatch _ (Session.sentence_noMatch query)
    · rfl

theorem messages_of_answer_error {mode : Mode} {r : Request} {e : Failure}
    (h : r.answer mode i = .error e) : r.messages i = [] := by
  cases r with
  | highlight content => rfl
  | _ => cases h

theorem markups_answer_script {r : Request} {a : Answer} (h : r.answer .script i = .ok a) :
    markups a.events = [] := by
  have henabled {b : Answer} (hb : markups b.events = []) :
      markups (withEnabled .script i b).events = [] := by
    rw [withEnabled]
    split
    · exact hb
    · rfl
  cases r with
  | highlight content => exact markups_highlight h
  | complete line cursor =>
    obtain rfl := Except.ok.inj h
    rw [complete]
    split <;> rfl
  | «show» words =>
    obtain rfl := Except.ok.inj h
    refine henabled ?_
    split <;> rfl
  | stats =>
    obtain rfl := Except.ok.inj h
    rfl
  | browse query =>
    obtain rfl := Except.ok.inj h
    exact henabled rfl
  | search query limit =>
    obtain rfl := Except.ok.inj h
    exact henabled rfl

/-! ## Messages of a run -/

def Outcome.markups (o : Outcome) : List String :=
  SwitchLexicon.markups (o.session.flatMap Session.Step.events ++ o.events)

def Started.requestMessages (s : Started) (r : Request) : List Message :=
  match s.mode, (s.opened r).2 with
  | .human, .ok i => r.messages i
  | _, _ => []

def Started.sessionMessages (s : Started) (inputs : List Session.Input) : List Message :=
  match s.openIndex with
  | (_, .error _) => []
  | (t, .ok i) =>
    let history := ((Settings.historyPath t.surroundings).run.run t.files).1
    (Session.messages ⟨t.mode, i⟩ t.config history inputs).filter
      fun m => m.topic.mark.isDrawn t.mode

def Scene.messages (scene : Scene) : List Message :=
  match scene.course with
  | .stopped => []
  | .request s r => s.requestMessages r
  | .session s => s.sessionMessages scene.session

theorem markups_of_isBare {o : Outcome} (h : o.IsBare) : o.markups = [] := by
  rw [Outcome.markups, h.session, SwitchLexicon.markups, List.filterMap_eq_nil_iff]
  intro e he
  obtain ⟨text, rfl⟩ := h.printed e he
  rfl

theorem markups_respond (s : Started) (r : Request) :
    (s.respond r).markups = (s.requestMessages r).map Message.drawn := by
  have hfail (e : Failure) : ((s.opened r).1.fail e).markups = [] := rfl
  have hanswered (a : Answer) : ((s.opened r).1.answered a).markups =
      SwitchLexicon.markups a.events := rfl
  rw [respond_eq, Started.requestMessages]
  cases (s.opened r).2 with
  | error e => cases s.mode <;> exact hfail e
  | ok i =>
    simp only [Except.bind]
    cases s.mode with
    | script =>
      cases ha : r.answer .script i with
      | error e => exact hfail e
      | ok a => exact (hanswered a).trans (markups_answer_script ha)
    | human =>
      cases ha : r.answer .human i with
      | error e =>
        simp only [messages_of_answer_error ha]
        exact hfail e
      | ok a => exact (hanswered a).trans ((markups_answer ha).trans (Message.lines_human _))

theorem markups_converse (s : Started) (inputs : List Session.Input) :
    (s.converse inputs).markups = (s.sessionMessages inputs).map Message.drawn := by
  rw [Started.converse, Started.sessionMessages]
  rcases s.openIndex with ⟨t, e | i⟩
  · rfl
  · exact Session.markups_start ⟨t.mode, i⟩ t.config _ inputs

/-- The lines that a run draws are its messages. -/
theorem markups_run (scene : Scene) :
    (run scene).markups = scene.messages.map Message.drawn := by
  have hruns := runs scene
  rw [Scene.messages]
  generalize scene.course = course, run scene = o at hruns ⊢
  cases hruns with
  | stopped bare => exact markups_of_isBare bare
  | request s r => exact markups_respond s r
  | session s => exact markups_converse s scene.session

/-- In the lines of a run every text from outside stands escaped, and so is not read as markup,
exactly if the errors of dictionaries that it tells of need no escape: these are put in raw. -/
theorem markups_run_eq_write_escape_iff (scene : Scene) :
    ((run scene).markups = scene.messages.map (Message.write Markup.escape) ↔
        ∀ m ∈ scene.messages, m.topic.tellsError = true →
          ∀ x ∈ m.texts, Markup.isPlain x = true) ∧
      ∀ x, Markup.isGuarded (Markup.escape x) = true := by
  refine ⟨?_, Markup.isGuarded_escape⟩
  rw [markups_run, List.map_inj_left]
  exact forall₂_congr fun m _ => m.drawn_eq_write_escape_iff

def taggedScene : Scene :=
  { args := ["--dictionary", "[b]x.json", "stats"], surroundings := ⟨none, "home", []⟩ }

/-- The tag in the name of the file is drawn as a tag. -/
theorem markups_run_taggedScene :
    (run taggedScene).markups ≠ taggedScene.messages.map (Message.write Markup.escape) := by
  decide +kernel

end CommandLine

end SwitchLexicon
