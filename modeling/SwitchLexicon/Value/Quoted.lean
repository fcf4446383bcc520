import SwitchLexicon.Limit
import SwitchLexicon.Number.Shortest
import SwitchLexicon.Text.Quoted
import SwitchLexicon.Value.Basic

/-!
The text by which messages show a value that was refused. Not every value can be shown: a whole
number may have too many digits, and each level of lists and mappings takes a call.
-/
namespace SwitchLexicon

namespace Moment

/-- Seconds and their fraction are left out from the end as long as they are zero. -/
def clockArguments (t : TimeOfDay) : List String :=
  [toString t.hour, toString t.minute] ++
    if t.micro ≠ 0 then [toString t.second, toString t.micro]
    else if t.second ≠ 0 then [toString t.second]
    else []

def dateArguments (d : Date) : List String :=
  [toString d.year, toString d.month, toString d.day]

/-- A distance from universal time, in whole days and seconds; the seconds are never negative. -/
def offsetArguments (minutes : Int) : List String :=
  (if minutes < 0 then ["days=-1"] else []) ++ ["seconds=" ++ toString (60 * minutes % 86400)]

def zoneArgument (minutes : Int) : String :=
  "tzinfo=datetime.timezone" ++
    if minutes = 0 then ".utc"
    else "(datetime.timedelta(" ++ ", ".intercalate (offsetArguments minutes) ++ "))"

def quoted : Moment → String
  | .date d => "datetime.date(" ++ ", ".intercalate (dateArguments d) ++ ")"
  | .time t => "datetime.time(" ++ ", ".intercalate (clockArguments t) ++ ")"
  | .point d t offset =>
    "datetime.datetime(" ++ ", ".intercalate (dateArguments d ++ clockArguments t ++
      (offset.map zoneArgument).toList) ++ ")"

end Moment

def Key.quoted : Key → String
  | .null => "None"
  | .bool b => if b then "True" else "False"
  | .int n => toString n
  | .float x => x.text
  | .text s => Text.quoted s

def Key.showLimit? : Nat → Key → Option Limit
  | 0, _ => some .nesting
  | _ + 1, .int n => if numberLimit ≤ n.natAbs then some .digits else none
  | _ + 1, _ => none

namespace Value

mutual

def quoted : Value → String
  | .null => "None"
  | .bool b => if b then "True" else "False"
  | .int n => toString n
  | .float x => x.text
  | .text s => Text.quoted s
  | .moment m => m.quoted
  | .list xs => "[" ++ ", ".intercalate (quotedItems xs) ++ "]"
  | .map es => "\x7b" ++ ", ".intercalate (quotedEntries es) ++ "\x7d"

def quotedItems : List Value → List String
  | [] => []
  | v :: vs => quoted v :: quotedItems vs

def quotedEntries : List (Key × Value) → List String
  | [] => []
  | (k, v) :: es => (k.quoted ++ ": " ++ quoted v) :: quotedEntries es

end

mutual

/-- The first bound that showing a value runs into, with `room` calls left for it. -/
def showLimit? : Nat → Value → Option Limit
  | 0, _ => some .nesting
  | room + 1, v =>
    match v with
    | .int n => if numberLimit ≤ n.natAbs then some .digits else none
    | .list xs => itemsLimit? room xs
    | .map es => entriesLimit? room es
    | _ => none

def itemsLimit? (room : Nat) : List Value → Option Limit
  | [] => none
  | v :: vs => (showLimit? room v).or (itemsLimit? room vs)

def entriesLimit? (room : Nat) : List (Key × Value) → Option Limit
  | [] => none
  | (k, v) :: es => ((k.showLimit? room).or (showLimit? room v)).or (entriesLimit? room es)

end

end Value

end SwitchLexicon
