import SwitchLexicon.Text.Uppercase.Tables

/-!
Uppercasing of a whole text, character by character.
-/
namespace SwitchLexicon.Text

def upperChar (c : Char) : List Char :=
  match upperSequences.find? fun e => e.1 == c.toNat with
  | some e => e.2.map Char.ofNat
  | none => [Char.ofNat (shiftCode upperRuns c.toNat)]

def upper (s : String) : String :=
  String.ofList (s.toList.flatMap upperChar)

end SwitchLexicon.Text
