import SwitchLexicon.Line.Suggestion
import SwitchLexicon.Text.Quoted

/-!
Command trees under construction. Nodes are numbered in the order of their creation and refer to
their children by number, so a node may hang below several others. A frozen node takes no more
edits, nor does any node below it.
-/
namespace SwitchLexicon

structure DraftNode where
  detail : Option Detail := none
  children : List (String × Nat) := []
  frozen : Bool := false
deriving DecidableEq, Repr

structure Draft where
  nodes : List DraftNode
deriving DecidableEq, Repr

inductive DraftError where
  | noNode (number : Nat)
  | frozenAgainst (token : String)
  | frozenDetail
  | frozenChildren
  | endless
deriving DecidableEq, Repr

def DraftError.message : DraftError → String
  | .noNode n => "no node " ++ toString n
  | .frozenAgainst token => "Cannot add " ++ Text.quoted token ++ " to a frozen command tree"
  | .frozenDetail => "Cannot set 'metadata' on a frozen command tree"
  | .frozenChildren => "'mappingproxy' object does not support item assignment"
  | .endless => "maximum recursion depth exceeded"

namespace DraftNode

def child? (token : String) (node : DraftNode) : Option Nat :=
  node.children.lookup token

def linkIn (token : String) (number : Nat) : List (String × Nat) → List (String × Nat)
  | [] => [(token, number)]
  | (w, n) :: rest => if w = token then (w, number) :: rest else (w, n) :: linkIn token number rest

def link (token : String) (number : Nat) (node : DraftNode) : DraftNode :=
  { node with children := linkIn token number node.children }

def tokens (node : DraftNode) : List String :=
  (node.children.map Prod.fst).mergeSort fun a b => decide (a ≤ b)

def summary (node : DraftNode) : String :=
  "PrefixNode(children=" ++ toString node.children.length ++ ", complete=" ++
    (if node.detail.isSome then "True" else "False") ++ ")"

end DraftNode

namespace Draft

def start : Draft := ⟨[{}]⟩

def node? (d : Draft) (n : Nat) : Option DraftNode := d.nodes[n]?

def get (d : Draft) (n : Nat) : Except DraftError DraftNode :=
  match d.node? n with
  | some node => .ok node
  | none => .error (.noNode n)

def set (d : Draft) (n : Nat) (node : DraftNode) : Draft := ⟨d.nodes.set n node⟩

def add (d : Draft) (node : DraftNode) : Draft × Nat :=
  (⟨d.nodes ++ [node]⟩, d.nodes.length)

def follow (d : Draft) : List String → Nat → Option Nat
  | [], n => some n
  | w :: ws, n => ((d.node? n).bind (·.child? w)).bind (d.follow ws)

def resolve (d : Draft) (ws : List String) (n : Nat) : Option Nat :=
  d.follow (ws.map Text.lower) n

def freezeAll (one : Nat → Draft → Draft × Bool) : List Nat → Draft → Draft × Bool
  | [], d => (d, true)
  | n :: ns, d =>
    match one n d with
    | (e, true) => freezeAll one ns e
    | (e, false) => (e, false)

/-- Freezes what is below a node and then the node. More than `depth` edges in a row fail. -/
def freezeFrom : Nat → Nat → Draft → Draft × Bool
  | 0, _, d => (d, false)
  | depth + 1, n, d =>
    match d.node? n with
    | none => (d, true)
    | some node =>
      if node.frozen then (d, true)
      else
        match freezeAll (freezeFrom depth) (node.children.map Prod.snd) d with
        | (e, true) => (e.set n { node with frozen := true }, true)
        | (e, false) => (e, false)

/-- A way without a repeated node is no longer than the number of nodes, so this depth is enough
unless a node hangs below itself. -/
def freeze (d : Draft) (n : Nat) : Draft × Bool :=
  d.freezeFrom d.nodes.length n

def inOrder (cs : CommandTree.Children) : CommandTree.Children :=
  cs.mergeSort fun a b => decide (a.1 ≤ b.1)

def treesFrom (one : Nat → Option CommandTree) :
    List (String × Nat) → Option CommandTree.Children
  | [] => some []
  | (w, n) :: rest => do
    let t ← one n
    let ts ← treesFrom one rest
    return (w, t) :: ts

def treeFrom (d : Draft) : Nat → Nat → Option CommandTree
  | 0, _ => none
  | depth + 1, n => do
    let node ← d.node? n
    let cs ← treesFrom (d.treeFrom depth) node.children
    return .node node.detail (inOrder cs)

def treeAt? (d : Draft) (n : Nat) : Option CommandTree :=
  d.treeFrom d.nodes.length n

def treeAt (d : Draft) (n : Nat) : Except DraftError CommandTree :=
  match d.treeAt? n with
  | some t => .ok t
  | none => .error .endless

def outline (d : Draft) : Nat → Nat → CommandTree
  | 0, n => .node ((d.node? n).bind DraftNode.detail) []
  | depth + 1, n =>
    match d.node? n with
    | none => .empty
    | some node =>
      .node node.detail (inOrder (node.children.map fun c => (c.1, d.outline depth c.2)))

def count (d : Draft) (n : Nat) : Except DraftError Nat :=
  (d.treeAt n).map CommandTree.count

def commands (d : Draft) (n : Nat) (path : List String) :
    Except DraftError (List (List String × Detail)) :=
  (d.treeAt n).map (CommandTree.commandsFrom path)

/-- A finite tree and an endless one differ at some finite depth. -/
def sameShape (d : Draft) (m n : Nat) : Except DraftError Bool :=
  match d.treeAt? m, d.treeAt? n with
  | some s, some t => .ok (s.sameShape t)
  | none, none => .error .endless
  | _, _ => .ok false

def scope (d : Draft) (n : Nat) (line : String) : CommandTree :=
  d.outline ((Text.words line).length + 1) n

def suggest (d : Draft) (n : Nat) (line : String) (cursor : Int) :
    Except CursorError Suggestion :=
  SwitchLexicon.suggest (some (d.scope n line)) line cursor

def describe (d : Draft) (n : Nat) (line : String) (cursor : Int) :
    Except CursorError (List (String × String)) :=
  SwitchLexicon.describe (some (d.scope n line)) line cursor

def candidates (d : Draft) (n : Nat) (query : String) : List String :=
  (d.outline 1 n).candidates query

end Draft

inductive Edit where
  | new (detail : Option Detail)
  | child (on : Nat) (token : String)
  | setDetail (on : Nat) (detail : Option Detail)
  | setChild (on : Nat) (token : String) (below : Nat)
  | freeze (on : Nat)
deriving DecidableEq, Repr

namespace Edit

/-- The draft after an edit, with the number of the node that the edit made or changed. A refused
edit leaves the draft as it was; freezing keeps what was frozen before it failed. -/
def apply (d : Draft) : Edit → Draft × Except DraftError Nat
  | .new detail =>
    let (e, n) := d.add { detail := detail }
    (e, .ok n)
  | .child on token =>
    match d.node? on with
    | none => (d, .error (.noNode on))
    | some node =>
      if node.frozen then (d, .error (.frozenAgainst token))
      else
        match node.child? token with
        | some n => (d, .ok n)
        | none =>
          let (e, n) := d.add {}
          (e.set on (node.link token n), .ok n)
  | .setDetail on detail =>
    match d.node? on with
    | none => (d, .error (.noNode on))
    | some node =>
      if node.frozen then (d, .error .frozenDetail)
      else (d.set on { node with detail := detail }, .ok on)
  | .setChild on token below =>
    match d.node? on, d.node? below with
    | some node, some _ =>
      if node.frozen then (d, .error .frozenChildren)
      else (d.set on (node.link token below), .ok on)
    | some _, none => (d, .error (.noNode below))
    | none, _ => (d, .error (.noNode on))
  | .freeze on =>
    match d.node? on with
    | none => (d, .error (.noNode on))
    | some _ =>
      match d.freeze on with
      | (e, true) => (e, .ok on)
      | (e, false) => (e, .error .endless)

def run (d : Draft) : List Edit → Draft
  | [] => d
  | e :: es => run (e.apply d).1 es

end Edit

end SwitchLexicon
