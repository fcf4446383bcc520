import SwitchLexicon.Index.Basic

/-!
Search in names and descriptions. Commands whose name holds the query come first, then those where
only the description does; a query of blanks finds every command.
-/
namespace SwitchLexicon.Index

def defaultLimit : Int := 50

def matching (i : Index) (query : String) : List Detail :=
  let query := Text.strip query
  if query.isEmpty then i.commands
  else
    let needle := Text.lower query
    i.commands.filter (·.nameContains needle) ++
      i.commands.filter fun d => !d.nameContains needle && d.isMatch query

def search (i : Index) (query : String) (limit : Int) : List Detail :=
  Text.frontSlice (i.matching query) limit

def searchRecords (i : Index) (query : String) (limit : Int) : Value :=
  .list ((i.search query limit).map fun d =>
    .ofEntries [("command", .text d.command), ("description", .text d.description)])

end SwitchLexicon.Index
