import SwitchLexicon.Value.Basic

/-!
The settings that hold where the user gave none, and the user's settings laid over them.
-/
namespace SwitchLexicon.Settings

def defaults : Entries :=
  [(.text "general", .ofEntries [("dictionary_path", .text "")]),
    (.text "display", .ofEntries [("show_descriptions", .bool true), ("max_suggestions", .int 0)]),
    (.text "logging", .ofEntries [("level", .text "WARNING"), ("file", .text "")])]

def find? (k : Key) : Entries → Option Value
  | [] => none
  | (l, v) :: rest => if l.same k then some v else find? k rest

mutual

/-- Two mappings are merged entry by entry; any other value replaces what was there. -/
def mergeValue (base : Option Value) : Value → Value
  | .map os =>
    match base with
    | some (.map bs) => .map (merge bs os)
    | _ => .map os
  | v => v

/-- A key of both keeps its place, a key of the second mapping only comes after all others. -/
def merge (base : Entries) : List (Key × Value) → Entries
  | [] => base
  | (k, v) :: os => merge (Entries.insert k (mergeValue (find? k base) v) base) os

end

end SwitchLexicon.Settings
