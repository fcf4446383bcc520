import SwitchLexicon.Files.Path
import SwitchLexicon.Text.Quoted
import SwitchLexicon.Text.Utf8

/-!
A store of files and directories, with the failures of a file system. Places in the store are lists
of names: the empty list is the working directory, names lead down from it, steps up at the front
lead to the directories above it, and a slash as first name is the root.
-/
namespace SwitchLexicon

inductive FileFault where
  | noEntry
  | alreadyExists
  | notDirectory
  | isDirectory
  | nameTooLong
deriving DecidableEq, Repr

def FileFault.number : FileFault → Nat
  | .noEntry => 2
  | .alreadyExists => 17
  | .notDirectory => 20
  | .isDirectory => 21
  | .nameTooLong => 36

def FileFault.reason : FileFault → String
  | .noEntry => "No such file or directory"
  | .alreadyExists => "File exists"
  | .notDirectory => "Not a directory"
  | .isDirectory => "Is a directory"
  | .nameTooLong => "File name too long"

/-- Beside the faults of the store: a path with a null in it, and one with halves of surrogate
pairs, `count` of them from `position` on, that no bytes stand for. -/
inductive FileError where
  | fault (fault : FileFault) (path : String)
  | nullInPath
  | unencodable (position count code : Nat)
deriving DecidableEq, Repr

def FileError.message : FileError → String
  | .fault f path =>
    "[Errno " ++ toString f.number ++ "] " ++ f.reason ++ ": " ++ Text.quoted path
  | .nullInPath => "embedded null byte"
  | .unencodable position count code =>
    let place :=
      if count = 1 then
        "character '" ++ String.ofList (Text.numericEscape code) ++ "' in position " ++
          toString position
      else "characters in position " ++ toString position ++ "-" ++ toString (position + count - 1)
    "'utf-8' codec can't encode " ++ place ++ ": surrogates not allowed"

inductive FileNode where
  | file (bytes : List UInt8)
  | directory
deriving DecidableEq, Repr

abbrev Place := List String

structure Files where
  nodes : List (Place × FileNode) := []
deriving Repr

namespace Files

/-- The working directory, those above it and the root are always there. -/
def isGiven (place : Place) : Bool :=
  place.all (· == "..") || place == ["/"]

def node? (files : Files) (place : Place) : Option FileNode :=
  if isGiven place then some .directory
  else (files.nodes.find? fun n => n.1 == place).map Prod.snd

def put (files : Files) (place : Place) (node : FileNode) : Files :=
  { nodes := (place, node) :: files.nodes.filter fun n => n.1 != place }

def longestName : Nat := 255

def isTooLong (name : String) : Bool :=
  decide (longestName < (Text.encodeUtf8 name).length)

def above (place : Place) : Place :=
  if place.all (· == "..") then ".." :: place
  else if place == ["/"] then place
  else place.dropLast

/-- Follows names from a directory. The last name need not exist, all before it are directories. -/
def walk (files : Files) (here : Place) : List String → Except FileFault Place
  | [] => .ok here
  | name :: rest =>
    match files.node? here with
    | none => .error .noEntry
    | some (.file _) => .error .notDirectory
    | some .directory =>
      if name == "" || name == "." then walk files here rest
      else if name == ".." then walk files (above here) rest
      else if isTooLong name then .error .nameTooLong
      else walk files (here ++ [name]) rest

/-- The halves of surrogate pairs that stand for bytes above the last of ASCII. -/
def isByteSurrogate (code : Nat) : Bool :=
  decide (0xDC80 ≤ code) && decide (code ≤ 0xDCFF)

def isEncodable (c : Char) : Bool :=
  (Text.surrogate? c).all isByteSurrogate

def unencodable? (cs : List Char) : Option FileError :=
  match cs.dropWhile isEncodable with
  | [] => none
  | c :: more =>
    let halves := more.takeWhile fun d => (Text.surrogate? d).isSome
    some (.unencodable (cs.length - more.length - 1) (halves.length + 1)
      ((Text.surrogate? c).getD 0))

def pathError? (path : String) : Option FileError :=
  (unencodable? path.toList).or
    (if path.toList.contains (Char.ofNat 0) then some .nullInPath else none)

def locate (files : Files) (path : String) : Except FileError Place :=
  let cs := path.toList
  let start := if cs.head? == some '/' then ["/"] else []
  match pathError? path with
  | some e => .error e
  | none =>
    if cs.isEmpty then .error (.fault .noEntry path)
    else
      match walk files start (Path.namesBetween [] cs) with
      | .ok place => .ok place
      | .error fault => .error (.fault fault path)

/-- The node at a path. A slash at the end asks for a directory. -/
def stat (files : Files) (path : String) : Except FileError FileNode :=
  match files.locate path with
  | .error e => .error e
  | .ok place =>
    match files.node? place with
    | some node => .ok node
    | none => .error (.fault .noEntry path)

def isDirectory (files : Files) (path : String) : Bool :=
  match files.stat path with
  | .ok .directory => true
  | _ => false

def pathExists (files : Files) (path : String) : Bool :=
  match files.stat path with
  | .ok _ => true
  | .error _ => false

def read (files : Files) (path : String) : Except FileError (List UInt8) :=
  match files.stat path with
  | .error e => .error e
  | .ok .directory => .error (.fault .isDirectory path)
  | .ok (.file bytes) => .ok bytes

def locateForWriting (files : Files) (path : String) : Except FileError Place :=
  match files.locate path with
  | .error e => .error e
  | .ok place =>
    match files.node? place with
    | some .directory => .error (.fault .isDirectory path)
    | _ => .ok place

def write (files : Files) (path : String) (bytes : List UInt8) : Except FileError Files :=
  match files.locateForWriting path with
  | .error e => .error e
  | .ok place => .ok (files.put place (.file bytes))

def makeDirectory (files : Files) (path : String) : Except FileError Files :=
  match files.locate path with
  | .error e => .error e
  | .ok place =>
    match files.node? place with
    | some _ => .error (.fault .alreadyExists path)
    | none => .ok (files.put place .directory)

def ensureDirectory (files : Files) (path : Path) : Except FileError Files :=
  match files.makeDirectory path.text with
  | .ok files => .ok files
  | .error e => if files.isDirectory path.text then .ok files else .error e

/-- A directory with all its missing parents; `fuel` bounds how many parents are tried. -/
def ensureDirectories : Nat → Files → Path → Files × Option FileError
  | fuel, files, path =>
    match files.makeDirectory path.text with
    | .ok files => (files, none)
    | .error e =>
      match e, fuel with
      | .fault .noEntry _, fuel + 1 =>
        if path.parent = path then (files, some e)
        else
          match ensureDirectories fuel files path.parent with
          | (files, some e) => (files, some e)
          | (files, none) =>
            match files.ensureDirectory path with
            | .ok files => (files, none)
            | .error e => (files, some e)
      | _, _ => if files.isDirectory path.text then (files, none) else (files, some e)

def makeDirectories (files : Files) (path : Path) : Files × Option FileError :=
  ensureDirectories path.names.length files path

def plant (files : Files) (place : Place) (node : FileNode) : Files :=
  let parents := (List.range place.length).drop 1
  let files := parents.foldl
    (fun files n =>
      match files.node? (place.take n) with
      | some .directory => files
      | _ => files.put (place.take n) .directory) files
  files.put place node

end Files

end SwitchLexicon
