import SwitchLexicon.Console.Markup
import SwitchLexicon.Console.Screen

/-!
Drawing without styles, for a terminal that only takes text.
-/
namespace SwitchLexicon.Plain

/-- Markup without its tags. `literal` tells that a backslash stood just before, and `skip` counts
the characters of a tag still to be dropped. -/
def withoutTags (literal : Bool) (skip : Nat) : List Char → List Char
  | [] => []
  | c :: cs =>
    match skip with
    | n + 1 => withoutTags false n cs
    | 0 =>
      if literal then c :: withoutTags false 0 cs
      else if c = '\\' && (Markup.tag? cs).isSome then withoutTags true 0 cs
      else
        match Markup.tag? (c :: cs) with
        | some (tag, _) => withoutTags false (tag.length - 1) cs
        | none => c :: withoutTags false 0 cs

def markup (s : String) : String :=
  String.ofList (withoutTags false 0 s.toList)

def padTo (width : Nat) (s : String) : String :=
  s ++ String.ofList (List.replicate (width - s.length) ' ')

def columnWidth (rows : List (List String)) (column : Nat) : Nat :=
  rows.foldl (fun n row => max n ((row[column]?.getD "").length)) 0

def tableLines (t : Table) : List String :=
  let t := t.squared
  let rows := t.columns.map Column.header :: t.rows
  let widths := (List.range t.columns.length).map (columnWidth rows)
  (if t.title.isEmpty then [] else [markup t.title]) ++
    rows.map fun row => "  ".intercalate ((widths.zip row).map fun c => padTo c.1 c.2)

mutual

def lines : Renderable → List String
  | .markup s => [markup s]
  | .text t => [t.plain]
  | .table t => tableLines t
  | .panel content title _ => (title.map fun s => "== " ++ s ++ " ==").toList ++ lines content
  | .group parts => allLines parts

def allLines : List Renderable → List String
  | [] => []
  | r :: rs => lines r ++ allLines rs

end

def text (r : Renderable) : String :=
  String.join ((lines r).map (· ++ "\n"))

/-- Styles are not drawn, but they must be closed as they were opened. -/
def screen : Screen :=
  ⟨fun e => e.markups.findSome? Markup.fault?⟩

end SwitchLexicon.Plain
