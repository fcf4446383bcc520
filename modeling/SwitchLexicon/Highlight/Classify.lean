import SwitchLexicon.Highlight.Category
import SwitchLexicon.Highlight.Segment
import SwitchLexicon.Text.Digit
import SwitchLexicon.Text.Lowercase

/-!
The category of a segment. Literals are told by their form, everything else by the keyword lists,
letter case aside.
-/
namespace SwitchLexicon

/-- The pieces between separators; there is always one more piece than separators. -/
def piecesOf (separator : Char) : List Char → List (List Char)
  | [] => [[]]
  | c :: cs =>
    if c = separator then [] :: piecesOf separator cs else Text.extendHead c (piecesOf separator cs)

def isNumeral (cs : List Char) : Bool :=
  !cs.isEmpty && cs.all Text.isDigit

def isNumeralUpTo (width : Nat) (cs : List Char) : Bool :=
  isNumeral cs && decide (cs.length ≤ width)

/-- Four numerals of up to three digits, and after a slash one of up to two. -/
def isIpAddress (cs : List Char) : Bool :=
  let groups := piecesOf '.' (cs.takeWhile (· != '/'))
  let mask := cs.dropWhile (· != '/')
  groups.length == 4 && groups.all (isNumeralUpTo 3) &&
    (mask.isEmpty || isNumeralUpTo 2 (mask.drop 1))

def isHexGroup (width : Nat) (cs : List Char) : Bool :=
  cs.length == width && cs.all Text.isHexDigit

/-- Six pairs of hexadecimal digits with colons, or three groups of four with points. -/
def isMacAddress (cs : List Char) : Bool :=
  let pairs := piecesOf ':' cs
  let quads := piecesOf '.' cs
  (pairs.length == 6 && pairs.all (isHexGroup 2)) || (quads.length == 3 && quads.all (isHexGroup 4))

def isQuotation (cs : List Char) : Bool :=
  decide (2 ≤ cs.length) && cs.head? == some Text.doubleQuote &&
    cs.getLast? == some Text.doubleQuote

def literalForms : List ((List Char → Bool) × Category) :=
  [(isIpAddress, .ipAddress), (isMacAddress, .macAddress), (isNumeral, .number),
    (isQuotation, .quotation)]

def keywordCategory (word : String) : Category :=
  match Category.keywords.find? fun k => k.1.contains word with
  | some (_, category) => category
  | none => .plain

def classify (token : String) : Category :=
  let cs := token.toList
  if cs.all Text.isBlank then .plain
  else if startsComment cs then .comment
  else
    match literalForms.find? fun l => l.1 cs with
    | some (_, category) => category
    | none => keywordCategory (Text.lower token)

def classifyLine (line : String) : List (String × Category) :=
  if isCommentLine line then [(line, .comment)]
  else (segments line).map fun s => (s, classify s)

end SwitchLexicon
