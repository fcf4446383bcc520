import SwitchLexicon.CommandLine.Request
import SwitchLexicon.Session.Basic
import SwitchLexicon.Text.Lines

/-!
Answers to requests: what goes to the console or to standard output, and the exit code.
-/
namespace SwitchLexicon.CommandLine

structure Answer where
  events : List OutputEvent := []
  exit : Nat := 0
  browse : Option String := none

def refusal (mode : Mode) (message : String) : Answer :=
  { events := Report.error mode message, exit := 1 }

def unavailable (mode : Mode) (i : Index) : Answer :=
  refusal mode ("Command dictionary unavailable: " ++ i.error)

def withEnabled (mode : Mode) (i : Index) (a : Answer) : Answer :=
  if i.isEnabled then a else unavailable mode i

def suggestionValue (s : Suggestion) : Value :=
  .ofEntries
    [("triggered", .bool s.triggered), ("query", .text s.query),
      ("span", .list [.int s.start, .int s.stop]), ("tokens", .list (s.tokens.map .text))]

def completionReport (mode : Mode) (line : String) (s : Suggestion)
    (pairs : List (String × String)) : List OutputEvent :=
  match mode with
  | .script => [Report.success (suggestionValue s)]
  | .human =>
    if !s.triggered then Report.info mode "Type a command to see completions."
    else if pairs.isEmpty then
      Report.warning mode ("No completions for \"" ++ Markup.escape line ++ "\".")
    else Report.table mode "Completions" Session.tokenColumns (Session.pairRows pairs)

def complete (mode : Mode) (i : Index) (line : String) (cursor : Option Int) : Answer :=
  match i.suggest line cursor, i.describe line cursor with
  | .ok s, .ok pairs => { events := completionReport mode line s pairs }
  | _, _ => refusal mode ("--cursor must be between 0 and " ++ toString line.length ++ ".")

def searchTitle (query : String) : String :=
  if query.isEmpty then "Commands" else "Commands matching “" ++ Markup.escape query ++ "”"

def searchReport (mode : Mode) (i : Index) (query : String) (limit : Int) : List OutputEvent :=
  match mode with
  | .script => [Report.success (i.searchRecords query limit)]
  | .human =>
    let results := i.search query limit
    if results.isEmpty then Report.info mode (Session.noMatch query)
    else
      Report.table mode (searchTitle query) Session.commandColumns (Session.detailRows results)

def search (mode : Mode) (i : Index) (query : String) (limit : Int) : Answer :=
  withEnabled mode i { events := searchReport mode i query limit }

def notFoundMessage (e : Failure) (words : List String) : String :=
  e.message ++ ". Try 'aoshelper search " ++ words.getLastD "" ++ "'."

def showEntry (mode : Mode) (i : Index) (words : List String) : Answer :=
  withEnabled mode i
    (match i.get (Text.unwords words) with
    | .ok d => { events := Report.detail mode d }
    | .error e => refusal mode (Markup.escape (notFoundMessage e words)))

def statsRows (s : Stats) : List (List String) :=
  [["Commands", toString s.commands], ["Tree nodes", toString s.nodes],
    ["Skipped entries", toString s.skipped]]

/-- For scripts the numbers of a disabled index are numbers too. -/
def stats (mode : Mode) (i : Index) : Answer :=
  match mode with
  | .script => { events := [Report.success i.stats.toValue] }
  | .human =>
    withEnabled mode i
      { events := Report.table mode "Command Dictionary" [⟨"Metric", "bold"⟩, ⟨"Value", "cyan"⟩]
          (statsRows i.stats) }

def browse (mode : Mode) (i : Index) (query : String) : Answer :=
  withEnabled mode i { browse := some query }

def segmentValue (s : String × Category) : Value :=
  .ofEntries [("text", .text s.1), ("category", .text s.2.name)]

def highlightReport (mode : Mode) (lines : List String) : List OutputEvent :=
  match mode with
  | .script =>
    [Report.success (.list (lines.map fun l => .list ((classifyLine l).map segmentValue)))]
  | .human => lines.flatMap (Report.highlighted mode)

def sourceLines (content : List UInt8) : Except Failure (List String) :=
  match Text.decodeUtf8 content with
  | .error e => .error (.undecodable e)
  | .ok text => .ok (Text.lines (String.ofList (Text.unifyLineEnds text.toList)))

def highlight (mode : Mode) (content : List UInt8) : Except Failure Answer :=
  (sourceLines content).map fun lines => { events := highlightReport mode lines }

def Request.answer (mode : Mode) (i : Index) : Request → Except Failure Answer
  | .complete line cursor => .ok (CommandLine.complete mode i line cursor)
  | .search query limit => .ok (CommandLine.search mode i query limit)
  | .show words => .ok (showEntry mode i words)
  | .stats => .ok (CommandLine.stats mode i)
  | .browse query => .ok (CommandLine.browse mode i query)
  | .highlight content => CommandLine.highlight mode content

def Request.needsIndex : Request → Bool
  | .highlight _ => false
  | _ => true

end SwitchLexicon.CommandLine
