import SwitchLexicon.Dictionary.Reading
import SwitchLexicon.Tree.Basic

/-!
The command tree of a dictionary: the readings applied one after the other to the empty tree.
-/
namespace SwitchLexicon

def Reading.apply (t : CommandTree) : Reading → CommandTree
  | .command path d => t.attach path d
  | .opened path => t.grow path
  | .skipped _ _ => t
  | .ignored _ _ => t

def CommandTree.ofReadings (rs : List Reading) : CommandTree :=
  rs.foldl Reading.apply .empty

structure Build where
  tree : CommandTree
  skipped : List String
  log : List Journal.Row
deriving Repr

def skippedRow (count : Nat) : Journal.Row :=
  ⟨Journal.warning, Journal.builder,
    "Skipped " ++ toString count ++ " malformed command dictionary entries"⟩

def builtRow (shape : Shape) (nodes : Nat) : Journal.Row :=
  ⟨Journal.debug, Journal.builder,
    "Built " ++ shape.name ++ " command tree with " ++ toString nodes ++ " nodes"⟩

def Build.ofReadings (shape : Shape) (rs : List Reading) : Build :=
  let tree := CommandTree.ofReadings rs
  let skipped := rs.filterMap Reading.skip?
  { tree := tree
    skipped := skipped
    log := rs.filterMap Reading.row? ++
      (if skipped.isEmpty then [] else [skippedRow skipped.length]) ++
      [builtRow shape tree.count] }

def build (raw : Value) (shape : Option Shape) : Except BuildError Build := do
  let shape ← match shape with
    | some s => pure s
    | none => Shape.detect raw
  return .ofReadings shape (← Reading.ofDictionary shape raw)

end SwitchLexicon
