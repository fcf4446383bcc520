import SwitchLexicon.Dictionary.Build
import SwitchLexicon.Failure

/-!
Building as it is carried out, entry by entry. To tell of an entry that is skipped its name or its
value may have to be shown, each nested level opens two calls, and so does each level of the tree
when the nodes are counted at the end. A build that runs into a bound is given up.
-/
namespace SwitchLexicon

/-- A reading, and the bound that is met before it is told of. -/
structure Telling where
  reading : Reading
  limit : Option Limit := none

/-- Calls that a nested level opens, and a level of the tree when it is counted. -/
def levelCalls : Nat := 2

/-- The bound that showing a name or an option meets, `levels` deep in a dictionary. Texts can
always be shown. -/
def Value.tellLimit? (levels : Nat) : Value → Option Limit
  | .text _ => none
  | v => v.showLimit? (Stack.room - levelCalls * levels)

namespace Telling

def unbounded (rs : List Reading) : List Telling :=
  rs.map fun r => ⟨r, none⟩

def ofCommand (command record : Value) : Telling :=
  ⟨.ofCommand command record, command.tellLimit? 0⟩

def ofFlat (es : Entries) : List Telling :=
  es.map fun e => ofCommand e.1.toValue e.2

def ofRecord (position : Nat) (record : Value) : Telling :=
  match record with
  | .map es => ofCommand ((Entries.get? "command" es).getD .null) record
  | v => ⟨.ofRecord position v, none⟩

def ofRecords (position : Nat) : List Value → List Telling
  | [] => []
  | record :: rest => ofRecord position record :: ofRecords (position + 1) rest

def ofOptions (levels : Nat) (path : List String) : Value → List Telling
  | .list options => options.map fun v => ⟨.ofOption path v, v.tellLimit? levels⟩
  | v => unbounded (Reading.ofOptions path v)

def openLimit? (levels : Nat) : Option Limit :=
  if Stack.levels levelCalls ≤ levels then some .calls else none

mutual

def ofLevel (levels : Nat) (path : List String) : List (Key × Value) → List Telling
  | [] => []
  | (k, v) :: rest => ofEntry levels path k v ++ ofLevel levels path rest

def ofEntry (levels : Nat) (path : List String) (k : Key) (v : Value) : List Telling :=
  match k with
  | .text key =>
    if key = optionsKey then ofOptions levels path v
    else if isReserved key || (tokenize key).isEmpty then unbounded (Reading.ofEntry path k v)
    else
      match v with
      | .map es =>
        ⟨.opened (path ++ tokenize key), openLimit? levels⟩ ::
          ofLevel (levels + 1) (path ++ tokenize key) es
      | v => unbounded (Reading.ofEntry path k v)
  | k => [⟨.skipped k.quoted .keyNotText, k.toValue.tellLimit? levels⟩]

end

def ofDictionary (shape : Shape) (raw : Value) : Except BuildError (List Telling) :=
  match shape, raw with
  | .records, .list rs => .ok (ofRecords 0 rs)
  | .records, _ => .error .recordsNotList
  | .flat, .map es => .ok (ofFlat es)
  | .flat, _ => .error .flatNotMapping
  | .nested, .map es => .ok (ofLevel 0 [] es)
  | .nested, _ => .error .nestedNotMapping

end Telling

structure Construction where
  tree : Except Failure CommandTree
  skipped : List String := []
  log : List Journal.Row := []

def Construction.ofTellings (shape : Shape) (ts : List Telling) : Construction :=
  match ts.findSome? Telling.limit with
  | some l =>
    let told := (ts.takeWhile fun t => t.limit.isNone).map Telling.reading
    ⟨.error (.limit l), told.filterMap Reading.skip?, told.filterMap Reading.row?⟩
  | none =>
    let b := Build.ofReadings shape (ts.map Telling.reading)
    if Stack.levels levelCalls < b.tree.depth then
      ⟨.error (.limit .calls), b.skipped, b.log.dropLast⟩
    else ⟨.ok b.tree, b.skipped, b.log⟩

def construct (raw : Value) (shape : Option Shape) : Construction :=
  let told : Except BuildError Construction := do
    let shape ← match shape with
      | some s => pure s
      | none => Shape.detect raw
    return .ofTellings shape (← Telling.ofDictionary shape raw)
  match told with
  | .ok c => c
  | .error e => ⟨.error (.shape e), [], []⟩

end SwitchLexicon
