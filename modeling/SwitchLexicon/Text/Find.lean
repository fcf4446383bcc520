/-!
Plain substring questions on texts, and the front slices that a limit cuts off a list.
-/
namespace SwitchLexicon.Text

def startsWith (s part : String) : Bool :=
  part.toList.isPrefixOf s.toList

def infixOf (part : List Char) : List Char → Bool
  | [] => part.isEmpty
  | c :: cs => part.isPrefixOf (c :: cs) || infixOf part cs

def contains (s part : String) : Bool :=
  infixOf part.toList s.toList

/-- The front of a list up to an end that counts from the back when it is negative. -/
def frontSlice {α : Type} (xs : List α) (stop : Int) : List α :=
  if stop < 0 then xs.take (xs.length - stop.natAbs) else xs.take stop.toNat

end SwitchLexicon.Text
