/-!
Bounds of the machine. A whole number has a bound on the digits in which it is read or written, and
calls that are not yet done lie on a stack with a bound of its own. The stack is looked after where
data comes in: in the reading of JSON and of settings, and in the building of a dictionary. What is
in memory afterwards is shallow enough for all that is done with it.
-/
namespace SwitchLexicon

def digitLimit : Nat := 4300

/-- The least whole number with too many digits. -/
def numberLimit : Nat :=
  Nat.pow 10 digitLimit

namespace Stack

/-- Calls that may be open at once while data comes in. A thousand fit on the stack, and some of
them lie there already. -/
def room : Nat := 980

def levels (calls : Nat) : Nat :=
  room / calls

end Stack

/-- A bound that was passed: by a number that was to be written, by a value that was to be written,
or by the calls of a build. -/
inductive Limit where
  | digits
  | nesting
  | calls
deriving DecidableEq, Repr

def Limit.message : Limit → String
  | .digits =>
    "Exceeds the limit (" ++ toString digitLimit ++ " digits) for integer string conversion; " ++
      "use sys.set_int_max_str_digits() to increase the limit"
  | .nesting => "maximum recursion depth exceeded while getting the repr of an object"
  | .calls => "maximum recursion depth exceeded while calling a Python object"

end SwitchLexicon
