import SwitchLexicon.Text.Digit
import SwitchLexicon.Text.Quoted

/-!
Keys and texts of TOML. Every reader here takes the characters ahead and gives what it read with the
characters after it.
-/
namespace SwitchLexicon.Toml

abbrev Read (α : Type) := Option (α × List Char)

def isSpace (c : Char) : Bool :=
  c == ' ' || c == '\t'

def isSpaceOrLine (c : Char) : Bool :=
  isSpace c || c == '\n'

def skipSpace (cs : List Char) : List Char :=
  cs.dropWhile isSpace

def isControl (c : Char) : Bool :=
  (decide (c.toNat < 0x20) && c != '\t') || c.toNat == 0x7F

def isBareKeyChar (c : Char) : Bool :=
  c.isAlphanum || c == '-' || c == '_'

def readLiteral (acc : List Char) : List Char → Read String
  | [] => none
  | c :: cs =>
    if c = Text.singleQuote then some (String.ofList acc.reverse, cs)
    else if isControl c then none
    else readLiteral (c :: acc) cs

def startsWithThree (quote : Char) (cs : List Char) : Bool :=
  [quote, quote, quote].isPrefixOf cs

/-- Up to two quotes right before the closing three belong to the text. -/
def takeExtraQuotes (quote : Char) (s : String) (cs : List Char) : String × List Char :=
  match cs with
  | c :: d :: rest =>
    if c = quote then
      if d = quote then (s ++ String.ofList [quote, quote], rest)
      else (s ++ String.ofList [quote], d :: rest)
    else (s, cs)
  | [c] => if c = quote then (s ++ String.ofList [quote], []) else (s, cs)
  | [] => (s, [])

def readLongLiteral (acc : List Char) : List Char → Read String
  | [] => none
  | c :: cs =>
    if startsWithThree Text.singleQuote (c :: cs) then
      some (takeExtraQuotes Text.singleQuote (String.ofList acc.reverse) (cs.drop 2))
    else if isControl c && c != '\n' then none
    else readLongLiteral (c :: acc) cs

def simpleEscape? (c : Char) : Option Char :=
  if c = 'b' then some (Char.ofNat 8)
  else if c = 't' then some '\t'
  else if c = 'n' then some '\n'
  else if c = 'f' then some (Char.ofNat 12)
  else if c = 'r' then some '\r'
  else if c = '"' then some c
  else if c = '\\' then some c
  else none

def codeEscape? (digits : List Char) : Option Char := do
  let n ← digits.foldlM (fun n c => (Text.hexValue? c).map fun d => n * 16 + d) 0
  if n < 0xD800 ∨ (0xE000 ≤ n ∧ n ≤ 0x10FFFF) then some (Char.ofNat n) else none

/-- Where a reader of a long text stands with respect to a line that ends in a backslash. -/
inductive Joining where
  | no
  | beforeLineEnd
  | afterLineEnd
deriving DecidableEq, Repr

/-- A text between double quotes after the opening ones, of which a `long` one has three. -/
def readBasic (long : Bool) (joining : Joining) (acc : List Char) : List Char → Read String
  | [] => none
  | c :: cs =>
    if joining = .beforeLineEnd then
      if isSpace c then readBasic long .beforeLineEnd acc cs
      else if c = '\n' then readBasic long .afterLineEnd acc cs
      else none
    else if joining = .afterLineEnd ∧ isSpaceOrLine c then readBasic long .afterLineEnd acc cs
    else if c = '"' then
      if !long then some (String.ofList acc.reverse, cs)
      else if startsWithThree c (c :: cs) then
        some (takeExtraQuotes c (String.ofList acc.reverse) (cs.drop 2))
      else readBasic long .no (c :: acc) cs
    else if c = '\\' then
      match cs with
      | 'u' :: x1 :: x2 :: x3 :: x4 :: rest =>
        match codeEscape? [x1, x2, x3, x4] with
        | some d => readBasic long .no (d :: acc) rest
        | none => none
      | 'U' :: x1 :: x2 :: x3 :: x4 :: x5 :: x6 :: x7 :: x8 :: rest =>
        match codeEscape? [x1, x2, x3, x4, x5, x6, x7, x8] with
        | some d => readBasic long .no (d :: acc) rest
        | none => none
      | e :: rest =>
        if long && isSpace e then readBasic long .beforeLineEnd acc rest
        else if long && e == '\n' then readBasic long .afterLineEnd acc rest
        else
          match simpleEscape? e with
          | some d => readBasic long .no (d :: acc) rest
          | none => none
      | [] => none
    else if isControl c && !(long && c == '\n') then none
    else readBasic long .no (c :: acc) cs

/-- A line end right after the opening quotes of a long text is no part of it. -/
def dropLineEnd : List Char → List Char
  | '\n' :: cs => cs
  | cs => cs

def readText (cs : List Char) : Read String :=
  match cs with
  | [] => none
  | c :: rest =>
    if c = '"' then
      if startsWithThree c cs then readBasic true .no [] (dropLineEnd (cs.drop 3))
      else readBasic false .no [] rest
    else if c = Text.singleQuote then
      if startsWithThree c cs then readLongLiteral [] (dropLineEnd (cs.drop 3))
      else readLiteral [] rest
    else none

def readName (cs : List Char) : Read String :=
  match cs with
  | [] => none
  | c :: rest =>
    if isBareKeyChar c then
      some (String.ofList (cs.takeWhile isBareKeyChar), cs.dropWhile isBareKeyChar)
    else if c = Text.singleQuote then readLiteral [] rest
    else if c = '"' then readBasic false .no [] rest
    else none

def readNames : Nat → List Char → Option (List String × List Char)
  | 0, _ => none
  | fuel + 1, cs => do
    let (name, rest) ← readName cs
    match skipSpace rest with
    | '.' :: rest =>
      let (names, rest) ← readNames fuel (skipSpace rest)
      return (name :: names, rest)
    | rest => return ([name], rest)

def readKey (cs : List Char) : Read (List String) :=
  readNames cs.length cs

end SwitchLexicon.Toml
