/-!
What is handed to the console to be drawn: markup, styled text, tables, panels and groups of these.
-/
namespace SwitchLexicon

structure StyleSpan where
  start : Nat
  stop : Nat
  style : String
deriving DecidableEq, Repr

structure StyledText where
  plain : String := ""
  style : String := ""
  spans : List StyleSpan := []
deriving DecidableEq, Repr

namespace StyledText

/-- Bell, backspace, vertical tab, form feed and carriage return would move the cursor. -/
def isControl (c : Char) : Bool :=
  [7, 8, 11, 12, 13].contains c.toNat

def withoutControls (s : String) : String :=
  String.ofList (s.toList.filter fun c => !isControl c)

def ofText (s : String) (style : String) : StyledText :=
  { plain := withoutControls s, style := style }

/-- Appends a piece; it has a span of its own if it has a style, and an empty piece is nothing. -/
def append (t : StyledText) (piece style : String) : StyledText :=
  if piece.isEmpty then t
  else
    let text := withoutControls piece
    let start := t.plain.length
    { t with
      plain := t.plain ++ text
      spans := if style.isEmpty then t.spans else t.spans ++ [⟨start, start + text.length, style⟩] }

/-- Appends a text with its spans; a style of the whole becomes a span. -/
def appendText (t u : StyledText) : StyledText :=
  let start := t.plain.length
  let whole := if u.style.isEmpty then [] else [⟨start, start + u.plain.length, u.style⟩]
  { t with
    plain := t.plain ++ u.plain
    spans := t.spans ++ whole ++ u.spans.map fun s => ⟨s.start + start, s.stop + start, s.style⟩ }

end StyledText

inductive Justify where
  | left
  | center
deriving DecidableEq, Repr

structure Column where
  header : String
  style : String
deriving DecidableEq, Repr

structure Table where
  title : String
  columns : List Column
  rows : List (List String)
  titleJustify : Justify := .center
deriving DecidableEq, Repr

namespace Table

def headerStyle : String := "bold cyan"

def width (t : Table) : Nat :=
  t.rows.foldl (fun n row => max n row.length) t.columns.length

def squared (t : Table) : Table :=
  { t with
    columns := t.columns ++ List.replicate (t.width - t.columns.length) ⟨"", ""⟩
    rows := t.rows.map fun row => row ++ List.replicate (t.width - row.length) "" }

end Table

inductive Renderable where
  | markup (text : String)
  | text (text : StyledText)
  | table (table : Table)
  | panel (content : Renderable) (title : Option String) (borderStyle : String)
  | group (parts : List Renderable)
deriving Repr

inductive OutputEvent where
  | draw (r : Renderable)
  | drawError (r : Renderable)
  | blankLine
  | print (text : String)
deriving Repr

end SwitchLexicon
