import SwitchLexicon.Text.Blank

/-!
Console markup writes styles as tags in square brackets. A text from elsewhere is escaped before it
goes into markup: a backslash is put before whatever would be read as a tag, the backslashes in
front of it are doubled, and a single backslash at the end gets a second one. Markup that closes a
style which is not open cannot be drawn.
-/
namespace SwitchLexicon.Markup

def opensTag (c : Char) : Bool :=
  (decide (0x61 ≤ c.toNat) && decide (c.toNat ≤ 0x7A)) || c = '#' || c = '/' || c = '@'

/-- The characters up to the first closing bracket, that bracket included, and what follows; a
bracket that opens in between spoils it. -/
def tagBody? : List Char → Option (List Char × List Char)
  | [] => none
  | c :: cs =>
    if c = ']' then some ([c], cs)
    else if c = '[' then none
    else (tagBody? cs).map fun (body, rest) => (c :: body, rest)

def tag? : List Char → Option (List Char × List Char)
  | '[' :: c :: cs =>
    if opensTag c then (tagBody? cs).map fun (body, rest) => ('[' :: c :: body, rest) else none
  | _ => none

/-- `slashes` counts the backslashes just before, and `skip` the characters of a tag still to be
copied. -/
def escapeFrom (slashes skip : Nat) : List Char → List Char
  | [] => []
  | c :: cs =>
    match skip with
    | n + 1 => c :: escapeFrom 0 n cs
    | 0 =>
      if c = '\\' then c :: escapeFrom (slashes + 1) 0 cs
      else
        match tag? (c :: cs) with
        | some (tag, _) =>
          List.replicate (slashes + 1) '\\' ++ c :: escapeFrom 0 (tag.length - 1) cs
        | none => c :: escapeFrom 0 0 cs

structure Tag where
  position : Nat
  text : String
deriving DecidableEq, Repr

/-- The tags that are not escaped. `position` is where the text stands, `slashes` counts the
backslashes just before it, and `skip` the characters of a tag still to be passed over. -/
def tagsFrom (position slashes skip : Nat) : List Char → List Tag
  | [] => []
  | c :: cs =>
    match skip with
    | n + 1 => tagsFrom (position + 1) 0 n cs
    | 0 =>
      if c = '\\' then tagsFrom (position + 1) (slashes + 1) 0 cs
      else
        match tag? (c :: cs) with
        | some (tag, _) =>
          let rest := tagsFrom (position + 1) 0 (tag.length - 1) cs
          if slashes % 2 = 0 then ⟨position, String.ofList (tag.drop 1).dropLast⟩ :: rest else rest
        | none => tagsFrom (position + 1) 0 0 cs

def tags (s : String) : List Tag :=
  tagsFrom 0 0 0 s.toList

/-- What a tag opens or closes. A value that is given to it does not belong to its name. -/
inductive Tag.Kind where
  | opening (name : String)
  | closing (name : String)
  | closingLast
deriving DecidableEq, Repr

def Tag.kind (t : Tag) : Tag.Kind :=
  match t.text.toList.takeWhile (· != '=') with
  | '/' :: cs =>
    let name := Text.strip (String.ofList cs)
    if name.isEmpty then .closingLast else .closing name
  | cs => .opening (Text.strip (String.ofList cs))

/-- The first tag that closes nothing, with the names that are open, last first. -/
def unmatched? (opened : List String) : List Tag → Option Tag
  | [] => none
  | t :: ts =>
    match t.kind with
    | .opening name => unmatched? (name :: opened) ts
    | .closing name =>
      if opened.contains name then unmatched? (opened.erase name) ts else some t
    | .closingLast => if opened.isEmpty then some t else unmatched? opened.tail ts

def Tag.complaint (t : Tag) : String :=
  "closing tag '[" ++ t.text ++ "]' at position " ++ toString t.position ++
    if t.kind = .closingLast then " has nothing to close" else " doesn't match any open tag"

def fault? (s : String) : Option String :=
  (unmatched? [] (tags s)).map Tag.complaint

def endsInSingleSlash (cs : List Char) : Bool :=
  match cs.reverse with
  | '\\' :: '\\' :: _ => false
  | '\\' :: _ => true
  | _ => false

def escape (s : String) : String :=
  let cs := escapeFrom 0 0 s.toList
  String.ofList (if endsInSingleSlash cs then cs ++ ['\\'] else cs)

end SwitchLexicon.Markup
