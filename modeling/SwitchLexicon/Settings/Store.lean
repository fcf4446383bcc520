import SwitchLexicon.Failure
import SwitchLexicon.Settings.Merge
import SwitchLexicon.Toml.Reader
import SwitchLexicon.Toml.Writer

/-!
The settings file. It lies in a directory that is made when it is first asked for, a missing file
stands for the defaults, and an update reads the file, changes some sections and writes it again.
-/
namespace SwitchLexicon

structure Surroundings where
  settingsDirectory : Option String
  home : String
  homes : List (String × String) := []
deriving DecidableEq, Repr

/-- Work on files that can fail. What was done to the files before a failure stays done. -/
abbrev FileWork := ExceptT Failure (StateM Files)

namespace Settings

def usualDirectory : String := "~/.config/aoshelper"

def expand (s : Surroundings) (path : String) : Except Failure Path :=
  match (Path.ofText path).expandHome s.home s.homes with
  | some p => .ok p
  | none => .error .noHome

def directory (s : Surroundings) : FileWork Path := do
  let path ← expand s (s.settingsDirectory.getD usualDirectory)
  let (files, e) := (← get).makeDirectories path
  set files
  match e with
  | none => return path
  | some e => throw (.file e)

def filePath (s : Surroundings) : FileWork Path :=
  return (← directory s).join "config.toml"

def historyPath (s : Surroundings) : FileWork Path :=
  return (← directory s).join "history"

def ofBytes (bytes : List UInt8) : Option Entries :=
  match Text.decodeUtf8 bytes with
  | .ok s => Toml.read s
  | .error _ => none

def ofFile (files : Files) (path : String) : Option Entries :=
  match files.read path with
  | .ok bytes => ofBytes bytes
  | .error _ => none

def load (s : Surroundings) : FileWork Entries := do
  let path ← filePath s
  let files ← get
  if files.pathExists path.text then
    match ofFile files path.text with
    | some user => return merge defaults user
    | none => throw .settingsUnreadable
  else return defaults

/-- The file is emptied first, and holds as much as could be written when writing fails. -/
def save (s : Surroundings) (config : Value) : FileWork Unit := do
  let path ← filePath s
  let written := Toml.write config
  match (← get).write path.text (Text.encodeUtf8 written.text) with
  | .error _ => throw .settingsUnwritable
  | .ok files =>
    set files
    if written.complete then return () else throw .settingsUnwritable

/-- One section with its update: the keys of a mapping are set one by one, any other value replaces
the section. -/
def updateSection (config : Entries) (name : Key) (update : Value) : Except Failure Entries :=
  match update with
  | .map us =>
    match (find? name config).getD (.map []) with
    | .map es =>
      .ok (Entries.insert name (.map (us.foldl (fun es u => Entries.insert u.1 u.2 es) es)) config)
    | v => .error (.noAttribute v.kindName "update")
  | v => .ok (Entries.insert name v config)

def updateSections (config : Entries) : List (Key × Value) → Except Failure Entries
  | [] => .ok config
  | (name, u) :: us => do updateSections (← updateSection config name u) us

def update (s : Surroundings) (updates : Entries) : FileWork Entries := do
  let config ← updateSections (← load s) updates
  save s (.map config)
  return config

def lookup (config : Value) (name field : String) (fallback : Value) : Except Failure Value :=
  match config with
  | .map sections =>
    match (Entries.get? name sections).getD (.map []) with
    | .map es => .ok ((Entries.get? field es).getD fallback)
    | v => .error (.noAttribute v.kindName "get")
  | v => .error (.noAttribute v.kindName "get")

def dictionaryPath (s : Surroundings) (config : Value) : Except Failure (Option Path) := do
  let v ← lookup config "general" "dictionary_path" (.text "")
  if !v.holds then return none
  match v with
  | .text path => return some (← expand s path)
  | v => throw (.notPath v.bareKindName)

end Settings

end SwitchLexicon
