/-!
Paths of files. A path has a root, which is empty for relative paths, and names between slashes;
empty names and single points are dropped when it is read. A tilde at the front stands for a home
directory.
-/
namespace SwitchLexicon

structure Path where
  root : String
  names : List String
deriving DecidableEq, Repr

namespace Path

def slashRun (cs : List Char) : Nat :=
  (cs.takeWhile (· == '/')).length

/-- Exactly two slashes at the front are a root of their own. -/
def rootOf (cs : List Char) : String :=
  match slashRun cs with
  | 0 => ""
  | 2 => "//"
  | _ => "/"

def namesBetween : List Char → List Char → List String
  | acc, [] => [String.ofList acc.reverse]
  | acc, c :: cs =>
    if c = '/' then String.ofList acc.reverse :: namesBetween [] cs else namesBetween (c :: acc) cs

def ofText (s : String) : Path :=
  { root := rootOf s.toList
    names := (namesBetween [] s.toList).filter fun n => n != "" && n != "." }

def text (p : Path) : String :=
  let s := p.root ++ "/".intercalate p.names
  if s.isEmpty then "." else s

def join (p : Path) (name : String) : Path :=
  { p with names := p.names ++ [name] }

def parent (p : Path) : Path :=
  { p with names := p.names.dropLast }

/-- A home directory without the slashes at its end; one that is nothing else is the root. -/
def homeText (home : String) : String :=
  let cs := (home.toList.reverse.dropWhile (· == '/')).reverse
  if cs.isEmpty then "/" else String.ofList cs

def homeOf? (home : String) (homes : List (String × String)) (name : List Char) : Option String :=
  if name.isEmpty then some home else homes.lookup (String.ofList name)

/-- The path with a leading tilde replaced by a home directory, which does not start with a tilde
itself. -/
def expandHome (home : String) (homes : List (String × String)) (p : Path) : Option Path :=
  match p.root, p.names with
  | "", first :: rest =>
    match first.toList with
    | '~' :: name =>
      (homeOf? home homes name).bind fun found =>
        if (homeText found).toList.head? == some '~' then none
        else
          let h := ofText (homeText found)
          some { h with names := h.names ++ rest }
    | _ => some p
  | _, _ => some p

end Path

end SwitchLexicon
