import ContentApi.Url.Form

/-! Queries built pair by pair. -/

namespace ContentApi

/-- The pairs of a query in the order in which they were added. -/
structure Query where
  /-- Names with their values. -/
  pairs : List (String × String)
  deriving DecidableEq

namespace Query

/-- The query without pairs. -/
def empty : Query := ⟨[]⟩

/-- Adds a pair. -/
def add (q : Query) (name value : String) : Query :=
  ⟨q.pairs ++ [(name, value)]⟩

/-- Adds a pair if there is a value. -/
def addIfPresent (q : Query) (name : String) : Option String → Query
  | some value => q.add name value
  | none => q

/-- Adds the names of the members asked for, if any are. -/
def addFields (q : Query) (fields : List String) : Query :=
  if fields.isEmpty then q else q.add "fields" (",".intercalate fields)

/-- Whether there are no pairs. -/
def isEmpty (q : Query) : Bool := q.pairs.isEmpty

/-- The query in the way of a form. -/
def chars (q : Query) : List Char := formChars q.pairs

/-- The text of the query. -/
def render (q : Query) : String := String.ofList q.chars

/-- The query that asks for some members only. -/
def ofFields (fields : List String) : Query := empty.addFields fields

end Query

end ContentApi
