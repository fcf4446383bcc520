import SwitchLexicon.Dictionary.Construct
import SwitchLexicon.Index.Basic
import SwitchLexicon.Text.Lines

/-!
Loading of a dictionary from a file, or of the bundled one. A file that is missing or is no JSON,
and data of the wrong kind, give a disabled index; a path that cannot be one, bytes that are no text
and data that runs into a bound are failures of their own.
-/
namespace SwitchLexicon

structure Logged (α : Type) where
  result : Except Failure α
  log : List Journal.Row

namespace Dictionary

def loadedRow (source : String) (count : Nat) : Journal.Row :=
  ⟨Journal.debug, Journal.reader,
    "Loaded command dictionary from " ++ source ++ " (" ++ toString count ++ " top-level entries)"⟩

def loadedRows (source : String) : Value → List Journal.Row
  | .list vs => [loadedRow source vs.length]
  | .map es => [loadedRow source es.length]
  | _ => []

def parse (source : String) (bytes : List UInt8) : Except Failure Value :=
  match Text.decodeUtf8 bytes with
  | .error e => .error (.undecodable e)
  | .ok text =>
    match Json.read (String.ofList (Text.unifyLineEnds text.toList)) with
    | .ok v => .ok v
    | .error (.malformed fault position) => .error (.malformed source (.malformed fault position))
    | .error e => .error (.data e)

def readFile (files : Files) (path : String) : Except Failure Value :=
  match files.read path with
  | .error (.fault fault p) => .error (.unreadable (.fault fault p))
  | .error e => .error (.file e)
  | .ok bytes => parse path bytes

def load (files : Files) (path : String) : Logged Value :=
  match readFile files path with
  | .ok v => ⟨.ok v, loadedRows path v⟩
  | .error e => ⟨.error e, []⟩

/-- Failures that leave a disabled index behind. -/
def isTolerated : Failure → Bool
  | .unreadable _ => true
  | .malformed _ _ => true
  | .shape _ => true
  | _ => false

end Dictionary

namespace Index

def ofValue (raw : Value) (shape : Option Shape) : Logged Index :=
  let c := construct raw shape
  ⟨c.tree.map fun t => { tree := some t, skipped := c.skipped }, c.log⟩

def readyRow (count : Nat) : Journal.Row :=
  ⟨Journal.info, Journal.index, "Command index ready: " ++ toString count ++ " commands"⟩

def disabledRow (e : Failure) : Journal.Row :=
  ⟨Journal.error, Journal.index, "Command completion disabled: " ++ e.message⟩

def ofLoaded (loaded : Logged Value) : Logged Index :=
  let built : Logged Index :=
    match loaded.result with
    | .error e => ⟨.error e, loaded.log⟩
    | .ok v =>
      let i := ofValue v none
      ⟨i.result, loaded.log ++ i.log⟩
  match built.result with
  | .ok i => ⟨.ok i, built.log ++ [readyRow i.size]⟩
  | .error e =>
    if Dictionary.isTolerated e then ⟨.ok (.disabled e.message), built.log ++ [disabledRow e]⟩
    else built

def load (files : Files) (path : String) : Logged Index :=
  ofLoaded (Dictionary.load files path)

end Index

end SwitchLexicon
