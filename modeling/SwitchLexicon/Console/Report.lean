import SwitchLexicon.Console.DetailView
import SwitchLexicon.Json.Writer

/-!
Output for people or for scripts. In script mode everything on standard output is a JSON envelope,
warnings go to the error console, and what only people want to see is left out.
-/
namespace SwitchLexicon

inductive Mode where
  | human
  | script
deriving DecidableEq, Repr

namespace Report

def envelope (data : Value) (status : String) : OutputEvent :=
  .print (Json.pretty (.ofEntries [("status", .text status), ("data", data)]) ++ "\n")

def success (data : Value) : OutputEvent :=
  envelope data "success"

def failure (message : String) (code : Int) : OutputEvent :=
  .print
    (Json.pretty
      (.ofEntries
        [("status", .text "error"),
          ("error", .ofEntries [("message", .text message), ("code", .int code)])]) ++ "\n")

def warning (mode : Mode) (message : String) : List OutputEvent :=
  let line := Renderable.markup ("[yellow]![/yellow] " ++ message)
  match mode with
  | .human => [.draw line]
  | .script => [.drawError line]

def error (mode : Mode) (message : String) : List OutputEvent :=
  match mode with
  | .human => [.draw (.markup ("[red]✗[/red] " ++ message))]
  | .script => [failure message 1]

def info (mode : Mode) (message : String) : List OutputEvent :=
  match mode with
  | .human => [.draw (.markup ("[dim]ℹ[/dim] " ++ message))]
  | .script => []

/-- A row as a record of its cells under the headers; cells without a header are dropped. -/
def rowRecord (columns : List Column) (row : List String) : Value :=
  .map (Entries.ofPairs ((columns.zip row).map fun (c, cell) => (.text c.header, .text cell)))

def table (mode : Mode) (title : String) (columns : List Column) (rows : List (List String)) :
    List OutputEvent :=
  match mode with
  | .human => [.draw (.table { title := title, columns := columns, rows := rows })]
  | .script => [success (.list (rows.map (rowRecord columns)))]

def detail (mode : Mode) (d : Detail) : List OutputEvent :=
  match mode with
  | .human => [.draw (.panel d.view (some d.command) "cyan")]
  | .script => [success d.toValue]

def highlighted (mode : Mode) (line : String) : List OutputEvent :=
  match mode with
  | .human => [.draw (.text (highlight line))]
  | .script => []

end Report

end SwitchLexicon
