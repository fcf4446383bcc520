import SwitchLexicon.Console.Markup
import SwitchLexicon.Console.Report
import SwitchLexicon.Index.Search
import SwitchLexicon.Session.Verdict

/-!
The reply of an interactive session to one entered line. A line that ends in a question mark asks
what can follow, a line that starts with a slash is for the session itself, and any other line is
checked against the dictionary.
-/
namespace SwitchLexicon.Session

structure Setup where
  mode : Mode
  index : Index

inductive Reply where
  | none
  | output (events : List OutputEvent)
  | leave
deriving Repr

def exitWords : List String := ["/quit", "/exit", "exit", "quit", "logout"]

def helpText : String :=
  "[bold cyan]TYPING[/bold cyan]\n" ++
  "  Tab / typing   — Complete the current word from the AOS R8 command tree\n" ++
  "  <line> ?       — List the valid next words with descriptions\n" ++
  "  Enter          — Check the line and show the matching command\n" ++
  "\n" ++
  "[bold cyan]SESSION COMMANDS[/bold cyan]\n" ++
  "  /search <text> — Search command names and descriptions\n" ++
  "  /show <cmd>    — Show the full reference for a command\n" ++
  "  /help          — This help message\n" ++
  "  /quit          — Exit"

def help : List OutputEvent :=
  [.draw (.panel (.markup helpText) (some "aoshelper Help") "cyan")]

def tokenColumns : List Column := [⟨"Token", "bold cyan"⟩, ⟨"Description", ""⟩]

def commandColumns : List Column := [⟨"Command", "bold cyan"⟩, ⟨"Description", ""⟩]

def pairRows (pairs : List (String × String)) : List (List String) :=
  pairs.map fun p => [p.1, p.2]

def detailRows (details : List Detail) : List (List String) :=
  details.map fun d => [d.command, d.description]

/-- The words that can follow a line; on a blank line, the words that start a command. -/
def nextWords (i : Index) (line : String) : List (String × String) :=
  if Text.isBlankText line then i.topLevel
  else
    match i.describe line none with
    | .ok pairs => pairs
    | .error _ => []

def listNext (s : Setup) (line : String) : List OutputEvent :=
  let pairs := nextWords s.index line
  if pairs.isEmpty then Report.warning s.mode "No completions here."
  else Report.table s.mode "" tokenColumns (pairRows pairs)

def noMatch (text : String) : String :=
  "No commands match \"" ++ Markup.escape text ++ "\"."

def searchLimit : Int := 20

def search (s : Setup) (text : String) : List OutputEvent :=
  let results := s.index.search text searchLimit
  if results.isEmpty then Report.info s.mode (noMatch text)
  else Report.table s.mode "" commandColumns (detailRows results)

def showCommand (s : Setup) (command : String) : List OutputEvent :=
  match s.index.get command with
  | .ok d => Report.detail s.mode d
  | .error e => Report.error s.mode (Markup.escape e.message)

def slashCommand (s : Setup) (text : String) : List OutputEvent :=
  let (name, rest) := (Text.firstWord text).getD ("", "")
  let name := Text.lower name
  if name == "help" then help
  else if name == "search" then search s rest
  else if name == "show" then showCommand s rest
  else
    Report.error s.mode
      ("Unknown session command: /" ++ Markup.escape name ++ ". Type /help for help.")

def argumentsNote (arguments : List String) : String :=
  if arguments.isEmpty then ""
  else " (arguments: " ++ Markup.escape (Text.unwords arguments) ++ ")"

def verdictReport (mode : Mode) : Verdict → List OutputEvent
  | .command d arguments =>
    Report.info mode
      ("[bold]" ++ Markup.escape d.command ++ "[/bold] — " ++ Markup.escape d.description ++
        argumentsNote arguments)
  | .incomplete =>
    Report.warning mode "Incomplete command. Type '?' after the line to see what can follow."
  | .unknown => Report.warning mode "Unknown command."

def checkLine (s : Setup) (line : String) : List OutputEvent :=
  Report.highlighted s.mode line ++ verdictReport s.mode (s.index.verdict line)

def withoutLast (s : String) : String :=
  String.ofList s.toList.dropLast

def withoutSlashes (s : String) : String :=
  String.ofList (s.toList.dropWhile (· == '/'))

def reply (s : Setup) (entered : String) : Reply :=
  let text := Text.strip entered
  if text.isEmpty then .none
  else if exitWords.contains (Text.lower text) then .leave
  else if text.toList.getLast? == some '?' then
    .output (listNext s (withoutLast text) ++ [.blankLine])
  else if text.toList.head? == some '/' then
    .output (slashCommand s (withoutSlashes text) ++ [.blankLine])
  else .output (checkLine s text ++ [.blankLine])

def bannerText : String :=
  "[bold cyan]aoshelper[/bold cyan] — OmniSwitch AOS R8 command assistant\n" ++
  "Type commands with completion, end a line with [bold]?[/bold] for help on the next word, " ++
  "or type [bold]/help[/bold]."

def banner : List OutputEvent :=
  [.blankLine, .draw (.panel (.markup bannerText) none "cyan"), .blankLine]

def unavailable (s : Setup) : List OutputEvent :=
  if s.index.isEnabled then []
  else
    Report.warning s.mode
      ("Command dictionary unavailable, completion is off: " ++ s.index.error)

def farewell : List OutputEvent :=
  [.draw (.markup "\n[dim]Goodbye![/dim]")]

end SwitchLexicon.Session
