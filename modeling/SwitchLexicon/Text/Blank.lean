import SwitchLexicon.Text.CodeRange

/-!
Blank characters, and the cutting of a text into the words between them. Words are maximal runs
without a blank, so none is empty, and blanks at either end do not count.
-/
namespace SwitchLexicon.Text

def blankRanges : List (Nat × Nat) :=
  [(9, 0xD), (0x1C, 0x20), (0x85, 0x85), (0xA0, 0xA0), (0x1680, 0x1680), (0x2000, 0x200A),
   (0x2028, 0x2029), (0x202F, 0x202F), (0x205F, 0x205F), (0x3000, 0x3000)]

def isBlank (c : Char) : Bool :=
  inRanges blankRanges c

def extendHead (c : Char) : List (List Char) → List (List Char)
  | [] => [[c]]
  | w :: ws => (c :: w) :: ws

/-- A character joins the word after it unless a blank or the end of the text follows. -/
def wordsOf : List Char → List (List Char)
  | [] => []
  | c :: cs =>
    if isBlank c then wordsOf cs
    else if cs.head?.all isBlank then [c] :: wordsOf cs
    else extendHead c (wordsOf cs)

def words (s : String) : List String :=
  (wordsOf s.toList).map String.ofList

/-- True of the empty text as well. -/
def isBlankText (s : String) : Bool :=
  s.toList.all isBlank

def strip (s : String) : String :=
  String.ofList ((s.toList.dropWhile isBlank).reverse.dropWhile isBlank).reverse

def unwords (ws : List String) : String :=
  " ".intercalate ws

def firstWord (s : String) : Option (String × String) :=
  let cs := s.toList.dropWhile isBlank
  if cs.isEmpty then none
  else
    some (String.ofList (cs.takeWhile fun c => !isBlank c),
      String.ofList ((cs.dropWhile fun c => !isBlank c).dropWhile isBlank))

end SwitchLexicon.Text
