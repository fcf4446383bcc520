import SwitchLexicon.Detail.Basic

/-!
Reference entries from dictionary records. A record is a bare description, nothing at all, or a
mapping of sections; unknown sections are passed over. Every section that does not fit is reported,
in the order of the sections and of their items.
-/
namespace SwitchLexicon

inductive PathStep where
  | field (name : String)
  | item (position : Nat)
  | key (key : Key)
  | keyItself
deriving DecidableEq, Repr

inductive Misfit where
  | notText
  | notList
  | notMapping
  | notRecord
  | missing
deriving DecidableEq, Repr

structure Finding where
  path : List PathStep
  misfit : Misfit
deriving DecidableEq, Repr

def Finding.under (step : PathStep) (f : Finding) : Finding :=
  { f with path := step :: f.path }

inductive Checked (α : Type) where
  | fits (value : α)
  | misfits (findings : List Finding)

namespace Checked

def apply {α β : Type} : Checked (α → β) → Checked α → Checked β
  | .fits f, .fits a => .fits (f a)
  | .fits _, .misfits fs => .misfits fs
  | .misfits fs, .fits _ => .misfits fs
  | .misfits fs, .misfits gs => .misfits (fs ++ gs)

def under {α : Type} (step : PathStep) : Checked α → Checked α
  | .fits a => .fits a
  | .misfits fs => .misfits (fs.map (.under step))

def cons {α : Type} (head : Checked α) (tail : Checked (List α)) : Checked (List α) :=
  apply (apply (.fits List.cons) head) tail

def items {α : Type} (check : Value → Checked α) (position : Nat) : List Value → Checked (List α)
  | [] => .fits []
  | v :: vs => cons ((check v).under (.item position)) (items check (position + 1) vs)

end Checked

namespace Detail

def misfit {α : Type} (m : Misfit) : Checked α :=
  .misfits [⟨[], m⟩]

def checkText : Value → Checked String
  | .text s => .fits s
  | _ => misfit .notText

def checkList {α : Type} (check : Value → Checked α) : Value → Checked (List α)
  | .list vs => Checked.items check 0 vs
  | _ => misfit .notList

def checkKey : Key → Checked String
  | .text s => .fits s
  | _ => .misfits [⟨[.keyItself], .notText⟩]

def checkPairs : Entries → Checked (List (String × String))
  | [] => .fits []
  | (k, v) :: es =>
    let pair := Checked.apply (Checked.apply (.fits Prod.mk) (checkKey k)) (checkText v)
    Checked.cons (pair.under (.key k)) (checkPairs es)

def checkMapping : Value → Checked (List (String × String))
  | .map es => checkPairs es
  | _ => misfit .notMapping

def optional {α : Type} (default : α) (check : Value → Checked α) (name : String) (es : Entries) :
    Checked α :=
  match es.get? name with
  | some v => (check v).under (.field name)
  | none => .fits default

def required {α : Type} (check : Value → Checked α) (name : String) (es : Entries) : Checked α :=
  match es.get? name with
  | some v => (check v).under (.field name)
  | none => .misfits [⟨[.field name], .missing⟩]

def checkGloss (termName : String) : Value → Checked Gloss
  | .map es =>
    Checked.apply (Checked.apply (.fits Gloss.mk) (required checkText termName es))
      (optional "" checkText "description" es)
  | _ => misfit .notRecord

def checkSections (command : String) (es : Entries) : Checked Detail :=
  let text (name : String) := optional "" checkText name es
  let texts (name : String) := optional [] (checkList checkText) name es
  let glosses (name termName : String) := optional [] (checkList (checkGloss termName)) name es
  Checked.fits (Detail.mk command)
    |>.apply (text "description")
    |>.apply (text "syntax")
    |>.apply (glosses "parameters" "name")
    |>.apply (text "defaults")
    |>.apply (optional [] checkMapping "platforms_supported" es)
    |>.apply (texts "usage_guidelines")
    |>.apply (texts "examples")
    |>.apply (texts "release_history")
    |>.apply (glosses "related_commands" "command")
    |>.apply (texts "mib_objects")
    |>.apply (glosses "output_definitions" "field")

end Detail

inductive RecordError where
  | notMapping (kind : String)
  | keyNotText
  | misfits (findings : List Finding)
deriving DecidableEq, Repr

def RecordError.message : RecordError → String
  | .notMapping kind => "'" ++ kind ++ "' object is not a mapping"
  | .keyNotText => "keywords must be strings"
  | .misfits fs => toString fs.length ++ " validation errors"

def Key.isText : Key → Bool
  | .text _ => true
  | _ => false

/-- The entry that a record describes under the name `command`; a name inside the record does not
count. -/
def Detail.ofRecord (command : String) : Value → Except RecordError Detail
  | .text description => .ok { command := command, description := description }
  | .null => .ok { command := command }
  | .map es =>
    if es.all fun e => e.1.isText then
      match checkSections command es with
      | .fits d => .ok d
      | .misfits fs => .error (.misfits fs)
    else .error .keyNotText
  | v => .error (.notMapping v.kindName)

end SwitchLexicon
