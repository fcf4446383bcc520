import SwitchLexicon.Failure
import SwitchLexicon.Journal.Row
import SwitchLexicon.Text.Uppercase

/-!
The journal: which rows are kept and where. Setting it up replaces all sinks of an earlier set-up:
one for the console and, if a file is named, one for that file.
-/
namespace SwitchLexicon

inductive Sink where
  | console (grade : Int)
  | file (grade : Int) (place : Place)
deriving DecidableEq, Repr

def Sink.grade : Sink → Int
  | .console grade => grade
  | .file grade _ => grade

structure Journal where
  grade : Int := Journal.debug
  sinks : List Sink := []
  kept : List (Place × Journal.Row) := []
deriving DecidableEq, Repr

namespace Journal

def grades : List (String × Int) :=
  [("CRITICAL", critical), ("FATAL", critical), ("ERROR", error), ("WARN", warning),
    ("WARNING", warning), ("INFO", info), ("DEBUG", debug), ("NOTSET", 0)]

def gradeOf? (name : String) : Option Int :=
  (grades.find? fun g => g.1 == name).map Prod.snd

def threshold (j : Journal) : Int :=
  if j.grade = 0 then warning else j.grade

def isOwn (source : String) : Bool :=
  source == root || Text.startsWith source (root ++ ".")

def passes (j : Journal) (row : Row) : Bool :=
  isOwn row.source && decide (0 < row.grade) && decide (j.threshold ≤ row.grade)

def keptBy (row : Row) : Sink → Option (Place × Row)
  | .file grade place => if grade ≤ row.grade then some (place, row) else none
  | .console _ => none

def write (j : Journal) (row : Row) : Journal :=
  if j.passes row then { j with kept := j.kept ++ j.sinks.filterMap (keptBy row) } else j

def writeAll (j : Journal) (rows : List Row) : Journal :=
  rows.foldl write j

def rowsAt (j : Journal) (place : Place) : List Row :=
  (j.kept.filter fun k => k.1 == place).map Prod.snd

/-- Names with every step up taken back. Above the root there is nothing, and a step up at the front
of a path that does not start there stays. -/
def straightened (rooted : Bool) : List String → List String → List String
  | done, [] => done.reverse
  | done, name :: rest =>
    if name = ".." then
      match done with
      | [] => straightened rooted (if rooted then [] else [".."]) rest
      | last :: others =>
        if last = ".." then straightened rooted (".." :: done) rest
        else straightened rooted others rest
    else straightened rooted (name :: done) rest

def straightPath (path : String) : String :=
  let p := Path.ofText path
  Path.text { p with names := straightened (!p.root.isEmpty) [] p.names }

def openFile (files : Files) (path : String) : Except FileError (Files × Place) :=
  match files.locateForWriting (straightPath path) with
  | .error e => .error e
  | .ok place =>
    match files.node? place with
    | some _ => .ok (files, place)
    | none => .ok (files.put place (.file []), place)

structure SetUp where
  files : Files
  journal : Journal
  failure : Option Failure

def setUp (level file : Value) (files : Files) (j : Journal) : SetUp :=
  match level with
  | .text name =>
    match gradeOf? (Text.upper name) with
    | none => ⟨files, { j with sinks := [] }, some (.unknownGrade (Text.upper name))⟩
    | some grade =>
      let console := Sink.console grade
      match file with
      | .text path =>
        if path.isEmpty then ⟨files, { j with grade := grade, sinks := [console] }, none⟩
        else
          match openFile files path with
          | .ok (files, place) =>
            ⟨files, { j with grade := grade, sinks := [console, .file grade place] }, none⟩
          | .error e => ⟨files, { j with sinks := [console] }, some (.file e)⟩
      | v =>
        if v.holds then ⟨files, { j with sinks := [console] }, some (.notPath v.bareKindName)⟩
        else ⟨files, { j with grade := grade, sinks := [console] }, none⟩
  | v => ⟨files, j, some (.noAttribute v.kindName "upper")⟩

end Journal

end SwitchLexicon
