import SwitchLexicon.Detail.Basic

/-!
The tree of commands. An edge carries one word, a node stands for the words on the way to it, and it
has a reference entry when these words are a complete command. Children are kept in the order of
their words, so two trees that hold the same commands are equal.
-/
namespace SwitchLexicon

inductive CommandTree where
  | node (detail : Option Detail) (children : List (String × CommandTree))
deriving Repr

namespace CommandTree

abbrev Children := List (String × CommandTree)

def empty : CommandTree := .node none []

instance : Inhabited CommandTree := ⟨empty⟩

def detail : CommandTree → Option Detail
  | .node d _ => d

def children : CommandTree → Children
  | .node _ cs => cs

def isComplete (t : CommandTree) : Bool :=
  t.detail.isSome

def tokens (t : CommandTree) : List String :=
  t.children.map Prod.fst

def child? (token : String) (t : CommandTree) : Option CommandTree :=
  t.children.lookup token

def get? : List String → CommandTree → Option CommandTree
  | [], t => some t
  | w :: ws, t => (t.child? w).bind (get? ws)

def resolve (ws : List String) (t : CommandTree) : Option CommandTree :=
  t.get? (ws.map Text.lower)

def alterIn (token : String) (f : CommandTree → CommandTree) : Children → Children
  | [] => [(token, f empty)]
  | (w, t) :: rest =>
    if w = token then (w, f t) :: rest
    else if token < w then (token, f empty) :: (w, t) :: rest
    else (w, t) :: alterIn token f rest

/-- Changes the node at a path; the nodes on the way are created as needed. -/
def alter (f : CommandTree → CommandTree) : List String → CommandTree → CommandTree
  | [], t => f t
  | w :: ws, .node d cs => .node d (alterIn w (alter f ws) cs)

def withDetail (d : Detail) : CommandTree → CommandTree
  | .node _ cs => .node (some d) cs

def attach (path : List String) (d : Detail) (t : CommandTree) : CommandTree :=
  t.alter (withDetail d) path

def grow (path : List String) (t : CommandTree) : CommandTree :=
  t.alter id path

mutual

def count : CommandTree → Nat
  | .node _ cs => 1 + countAll cs

def countAll : Children → Nat
  | [] => 0
  | (_, t) :: rest => t.count + countAll rest

end

mutual

def depth : CommandTree → Nat
  | .node _ cs => depthAll cs

def depthAll : Children → Nat
  | [] => 0
  | (_, t) :: rest => max (t.depth + 1) (depthAll rest)

end

/-- The entry of a node under its path; the empty path is no command. -/
def entryAt (path : List String) (d : Option Detail) : List (List String × Detail) :=
  match d with
  | some d => if path.isEmpty then [] else [(path, d)]
  | none => []

mutual

/-- All complete commands below a node that stands at `path`, a command before its extensions and
siblings in the order of their words. -/
def commandsFrom (path : List String) : CommandTree → List (List String × Detail)
  | .node d cs => entryAt path d ++ commandsFromAll path cs

def commandsFromAll (path : List String) : Children → List (List String × Detail)
  | [] => []
  | (w, t) :: rest => t.commandsFrom (path ++ [w]) ++ commandsFromAll path rest

end

def commands (t : CommandTree) : List (List String × Detail) :=
  t.commandsFrom []

def sameTokens (cs ds : Children) : Bool :=
  cs.all (fun c => (ds.lookup c.1).isSome) && ds.all fun c => (cs.lookup c.1).isSome

mutual

/-- The same ways, complete at the same places. Each child is compared with the child of the other
node under its word. -/
def sameShape : CommandTree → CommandTree → Bool
  | .node d cs, t =>
    d.isSome == t.isComplete && sameTokens cs t.children && sameShapes cs t.children

def sameShapes : Children → Children → Bool
  | [], _ => true
  | (w, s) :: cs, ds =>
    (match ds.lookup w with
      | some t => s.sameShape t
      | none => false) && sameShapes cs ds

end

end CommandTree

end SwitchLexicon
