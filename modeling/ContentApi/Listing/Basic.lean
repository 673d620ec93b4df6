import ContentApi.Operation.Objects

/-! Listings: collections that are answered page by page, and the pages they are asked for. -/

namespace ContentApi

/-- How the pages of a listing follow each other. -/
inductive Paging where
  /-- Each page says by which marker the next one is asked for. -/
  | marked
  /-- Pages are asked for by the number of entries before them. -/
  | counted
  deriving DecidableEq

/-- What leads to a page. -/
inductive Cursor where
  | marker (text : Option String)
  | offset (count : Nat)
  deriving DecidableEq

/-- A collection of documents of one shape that is answered page by page. -/
structure Listing (s : Shape) where
  /-- The connection through which the collection is reached. -/
  connection : Connection
  /-- The address of the collection, with what narrows it down. -/
  url : Url
  /-- How many entries a page is asked to have. -/
  limit : Nat
  /-- How pages follow each other. -/
  paging : Paging

/-- A page of a listing. -/
structure Page (s : Shape) where
  /-- The entries of the page. -/
  entries : List (Datum s)
  /-- What leads to the next page, if there is one. -/
  next : Option Cursor

/-- What leads to the first page. -/
def Paging.first : Paging → Cursor
  | .marked => .marker none
  | .counted => .offset 0

/-- What a cursor adds to a query. -/
def Cursor.pairs : Cursor → List (String × String)
  | .marker none => []
  | .marker (some text) => [("marker", text)]
  | .offset count => [("offset", toString count)]

/-- The marker that a value is, if it leads anywhere. -/
def nextMarker? : Json → Option String
  | .text marker => if marker.isEmpty then none else some marker
  | .number n => some n.render
  | _ => none

/-- What leads to the page after a page. -/
def Cursor.after (cursor : Cursor) (fetched : Nat) (total : Option Nat) (marker : Json) :
    Option Cursor :=
  match cursor with
  | .marker _ => (nextMarker? marker).map fun m => .marker (some m)
  | .offset count =>
    let next := count + fetched
    -- Without a total only a page without entries ends the listing.
    let isLast := fetched = 0 || total.any (· ≤ next)
    if isLast then none else some (.offset next)

/-- Reads a page to which a cursor led. -/
def Response.page (s : Shape) (cursor : Cursor) (response : Response) :
    Except Failure (Page s) := do
  let page ← response.datum (.record (.page s))
  let entries := (page.fields.get (m := .entries "entries" s) (.ofIndex _ 0 rfl)).items
  let marker := (page.fields.get (m := .plain "next_marker" .untyped) (.ofIndex _ 2 rfl)).value
  let total := (page.fields.count? "total_count").map UInt64.toNat
  return ⟨entries, cursor.after entries.length total marker⟩

namespace Listing

variable {s : Shape}

/-- What leads to the first page of a listing. -/
def first (l : Listing s) : Cursor := l.paging.first

/-- The address of a page. -/
def pageUrl (l : Listing s) (cursor : Cursor) : Url :=
  l.url.addPairs (("limit", toString l.limit) :: cursor.pairs)

/-- Asks for a page. -/
def page (l : Listing s) (cursor : Cursor) : Call (Page s) :=
  l.connection.get (l.pageUrl cursor) (Response.page s cursor)

end Listing

end ContentApi
