import SwitchLexicon.Browser
import SwitchLexicon.CommandLine.Run
import SwitchLexicon.Console.Plain

/-!
The program. It takes a picture of the files that a run can ask for, lets the run be computed, and
puts out what came of it. An interactive session is computed anew for each further line, and only
what is new is put out.
-/
namespace SwitchLexicon.Program

open CommandLine

def readNode (path : String) : IO (Option FileNode) := do
  try
    let bytes ← IO.FS.readBinFile path
    return some (.file bytes.toList)
  catch e =>
    match e with
    | .inappropriateType .. => return some .directory
    | _ => return none

def placeOf (path : String) : Place :=
  let p := Path.ofText path
  if p.root.isEmpty then p.names else "/" :: p.names

def snapshot (files : Files) (path : String) : IO Files := do
  match ← readNode path with
  | some node => return files.plant (placeOf path) node
  | none => return files

def pathsInSettings (s : Surroundings) (files : Files) : List String :=
  let config := ((Settings.load s).run.run files).1
  match config with
  | .ok es =>
    let path := match Settings.dictionaryPath s (.map es) with
      | .ok (some p) => [p.text]
      | _ => []
    let file := match Settings.lookup (.map es) "logging" "file" (.text "") with
      | .ok (.text file) => [file]
      | _ => []
    path ++ file
  | .error _ => []

def userHome? (line : String) : Option (String × String) :=
  match line.splitOn ":" with
  | [name, _, _, _, _, home, _] => some (name, home)
  | _ => none

def userHomes : IO (List (String × String)) := do
  try
    let lines ← IO.FS.lines "/etc/passwd"
    return lines.toList.filterMap userHome?
  catch _ => return []

def surroundings : IO Surroundings := do
  return ⟨← IO.getEnv "AOSHELPER_CONFIG_DIR", (← IO.getEnv "HOME").getD "~", ← userHomes⟩

def settingsFile (s : Surroundings) : Option String :=
  match ((Settings.filePath s).run.run {}).1 with
  | .ok p => some p.text
  | .error _ => none

def takePicture (s : Surroundings) (args : List String) : IO Files := do
  let files ← (args ++ (settingsFile s).toList).foldlM snapshot {}
  (pathsInSettings s files).foldlM snapshot files

def putEvent (out err : IO.FS.Stream) : OutputEvent → IO Unit
  | .draw r => out.putStr (Plain.text r)
  | .drawError r => err.putStr (Plain.text r)
  | .blankLine => out.putStr "\n"
  | .print s => out.putStr s

def putEvents (es : List OutputEvent) : IO Unit := do
  let out ← IO.getStdout
  es.forM (putEvent out (← IO.getStderr))
  out.flush

def textOf (place : Place) : String :=
  match place with
  | "/" :: names => "/" ++ "/".intercalate names
  | names => "/".intercalate names

def appendRow (place : Place) (row : Journal.Row) : IO Unit := do
  let h ← IO.FS.Handle.mk (textOf place) .append
  h.putStrLn row.text

def finish (o : Outcome) : IO UInt32 := do
  putEvents o.events
  let err ← IO.getStderr
  for notice in o.notices do err.putStrLn notice
  for e in o.usage do err.putStrLn ("Error: " ++ e.message)
  for e in o.failure do err.putStrLn e.message
  for (place, row) in o.journal.kept do appendRow place row
  return o.exit.toUInt32

def promptEvents : Session.Step → List OutputEvent
  | .prompt before => before
  | .completions _ => []

/-- Goes on with a session of which `lines` were entered. -/
partial def converse (scene : Scene) (lines : List String) : IO UInt32 := do
  let o := runOn Plain.screen { scene with session := lines.map .line }
  match o.session[lines.length]? with
  | none => finish o
  | some step =>
    putEvents (promptEvents step)
    let out ← IO.getStdout
    out.putStr "-> "
    out.flush
    let line ← (← IO.getStdin).getLine
    if line.isEmpty then finish o else converse scene (lines ++ [line])

def showBrowser (s : Started) (query : String) : IO Unit := do
  match s.openIndex.2 with
  | .ok index =>
    let b := ({ index := index, initialQuery := query } : Browser).after .mount
    putEvents (b.shown.map fun d => .draw (.markup (Browser.optionPrompt d)))
  | .error _ => return ()

partial def readAll (input : IO.FS.Stream) (before : ByteArray) : IO ByteArray := do
  let more ← input.read 65536
  if more.isEmpty then return before else readAll input (before ++ more)

/-- Standard input is read to its end only if it is asked for. -/
def standardInputFor (g : General) : IO (List UInt8) := do
  if asksForInput g.rest then return (← readAll (← IO.getStdin) .empty).toList
  else return []

def keepDirectory (s : Surroundings) : IO Unit := do
  match ((Settings.directory s).run.run {}).1 with
  | .ok path => try IO.FS.createDirAll path.text catch _ => return ()
  | .error _ => return ()

def execute (args : List String) : IO UInt32 := do
  let s ← surroundings
  let scene : Scene := { args := args, files := ← takePicture s args, surroundings := s }
  match readGeneral scene.files args with
  | .done g =>
    keepDirectory s
    if g.rest.isEmpty then converse scene []
    else
      let o := runOn Plain.screen { scene with standardInput := ← standardInputFor g }
      match o.browse, start scene g with
      | some query, .ok started =>
        showBrowser started query
        finish o
      | _, _ => finish o
  | _ => finish (runOn Plain.screen scene)

end SwitchLexicon.Program

def main (args : List String) : IO UInt32 :=
  SwitchLexicon.Program.execute args
