import SwitchLexicon.Text.Blank
import SwitchLexicon.Text.Quoted

/-!
Segments of a configuration line: runs of blanks, quoted pieces, single brackets and commas, and
words. Joined again they give the line. A line whose first character after blanks is `!` or `#` is a
comment and one segment.
-/
namespace SwitchLexicon

def startsComment : List Char → Bool
  | c :: _ => c = '!' || c = '#'
  | [] => false

def isCommentLine (line : String) : Bool :=
  startsComment (line.toList.dropWhile Text.isBlank)

def isMark (c : Char) : Bool :=
  ['(', ')', '[', ']', '{', '}', ','].contains c

def isWordChar (c : Char) : Bool :=
  !Text.isBlank c && !isMark c && c != Text.doubleQuote

def isNotQuote (c : Char) : Bool :=
  c != Text.doubleQuote

theorem length_dropWhile_lt {α : Type} (p : α → Bool) (a : α) (as : List α) :
    (as.dropWhile p).length < (a :: as).length :=
  Nat.lt_succ_of_le (List.dropWhile_suffix p).length_le

/-- A quoted piece ends with its closing quote, or with the line if there is none. -/
def segmentsOf : List Char → List (List Char)
  | [] => []
  | c :: cs =>
    if Text.isBlank c then
      (c :: cs.takeWhile Text.isBlank) :: segmentsOf (cs.dropWhile Text.isBlank)
    else if c = Text.doubleQuote then
      (c :: cs.takeWhile isNotQuote ++ (cs.dropWhile isNotQuote).take 1) ::
        segmentsOf ((cs.dropWhile isNotQuote).drop 1)
    else if isMark c then [c] :: segmentsOf cs
    else (c :: cs.takeWhile isWordChar) :: segmentsOf (cs.dropWhile isWordChar)
termination_by cs => cs.length
decreasing_by
  · exact length_dropWhile_lt _ c cs
  · exact Nat.lt_of_le_of_lt (List.drop_suffix _ _).length_le (length_dropWhile_lt _ c cs)
  · exact Nat.lt_succ_self _
  · exact length_dropWhile_lt _ c cs

def segments (line : String) : List String :=
  if isCommentLine line then if line.isEmpty then [] else [line]
  else (segmentsOf line.toList).map String.ofList

end SwitchLexicon
