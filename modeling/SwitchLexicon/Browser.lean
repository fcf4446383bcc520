import SwitchLexicon.Index.Search

/-!
The command browser: a search field, the list of what the search found, and detail screens that lie
on top of each other. Every change of the search field lists anew; choosing an entry opens its
command by name.
-/
namespace SwitchLexicon

inductive Focus where
  | search
  | results
deriving DecidableEq, Repr

structure Browser where
  index : Index
  limit : Int := Index.defaultLimit
  initialQuery : String := ""
  shown : List Detail := []
  subTitle : String := ""
  focus : Option Focus := none
  highlighted : Option Nat := none
  screens : List Detail := []

namespace Browser

inductive Event where
  | mount
  | input (query : String)
  | submit
  | chooseAt (position : Nat)
  | choose (name : Option String)
  | focusSearch
  | back
deriving DecidableEq, Repr

def optionId (d : Detail) : String :=
  d.command

def optionPrompt (d : Detail) : String :=
  "[bold]" ++ d.command ++ "[/bold]\n[dim]" ++ d.description ++ "[/dim]"

def list (b : Browser) (query : String) : Browser :=
  let found := b.index.search query b.limit
  { b with shown := found, highlighted := none, subTitle := toString found.length ++ " shown" }

def open? (b : Browser) (name : String) : Except Failure (Browser × Detail) :=
  (b.index.get name).map fun d => ({ b with screens := d :: b.screens }, d)

def apply (b : Browser) : Event → Except Failure (Browser × Option Detail)
  | .mount => .ok ({ b.list b.initialQuery with focus := some .search }, none)
  | .input query => .ok (b.list query, none)
  | .submit =>
    if b.shown.isEmpty then .ok (b, none)
    else .ok ({ b with focus := some .results, highlighted := some 0 }, none)
  | .chooseAt position =>
    match b.shown[position]? with
    | some d => (b.open? (optionId d)).map fun r => (r.1, some r.2)
    | none => .ok (b, none)
  | .choose (some name) => (b.open? name).map fun r => (r.1, some r.2)
  | .choose none => .ok (b, none)
  | .focusSearch => .ok ({ b with focus := some .search }, none)
  | .back => .ok ({ b with screens := b.screens.tail }, none)

/-- An event that fails leaves the browser as it was. -/
def after (b : Browser) (e : Event) : Browser :=
  match b.apply e with
  | .ok r => r.1
  | .error _ => b

def run (b : Browser) (es : List Event) : Browser :=
  es.foldl after b

end Browser

end SwitchLexicon
