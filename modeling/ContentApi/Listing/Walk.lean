import ContentApi.Listing.Basic

/-! Walks through listings: entry by entry, or page by page until there are enough entries. -/

namespace ContentApi

/-- A walk through a listing. -/
structure Walk (s : Shape) where
  /-- The listing. -/
  listing : Listing s
  /-- The entries that were fetched and not given out. -/
  buffer : List (Datum s)
  /-- What leads to the page after those that were fetched, if there is one. -/
  cursor : Option Cursor

/-- What a walk comes to next. -/
inductive Found (s : Shape) where
  | entry (entry : Datum s)
  | ended
  | failed (failure : Failure)
  /-- The pages that may be fetched did not suffice. -/
  | short

/-- What comes of fetching pages. -/
inductive Outcome (α : Type) where
  | complete (value : α)
  | failed (failure : Failure)
  /-- The pages that may be fetched did not suffice. -/
  | short

/-- The walk from the start of a listing. -/
def Listing.walk {s : Shape} (l : Listing s) : Walk s := ⟨l, [], some l.first⟩

namespace Walk

variable {s : Shape} {σ : Type}

/-- The next entry of a walk, for which at most so many pages are fetched. A failure ends the
walk. -/
def next (transport : Transport σ) : Nat → Walk s → σ → Found s × Walk s × σ
  | pages, w, world =>
    match w.buffer, w.cursor with
    | entry :: rest, cursor => (.entry entry, ⟨w.listing, rest, cursor⟩, world)
    | [], none => (.ended, w, world)
    | [], some cursor =>
      -- A page without entries leads to the next one, so more than one may be fetched.
      match pages with
      | 0 => (.short, w, world)
      | pages + 1 =>
        match (w.listing.page cursor).run transport world with
        -- No cursor is kept, so a walk that failed has ended.
        | (.error failure, world) => (.failed failure, ⟨w.listing, [], none⟩, world)
        | (.ok page, world) => next transport pages ⟨w.listing, page.entries, page.next⟩ world

end Walk

/-- Adds entries one by one until there are enough, and tells whether there are. -/
def addUntil {α : Type} (enough : Nat → Bool) (gathered : List α) : List α → List α × Bool
  | [] => (gathered, false)
  | entry :: rest =>
    let longer := gathered ++ [entry]
    if enough longer.length then (longer, true) else addUntil enough longer rest

namespace Listing

variable {s : Shape} {σ : Type}

/-- Adds to the entries gathered so far until there are enough, for which at most so many pages are
fetched. -/
def gatherFrom (l : Listing s) (transport : Transport σ) (enough : Nat → Bool) :
    Nat → Option Cursor → List (Datum s) → σ → Outcome (List (Datum s)) × σ
  | _, none, gathered, world => (.complete gathered, world)
  | 0, some _, _, world => (.short, world)
  | pages + 1, some cursor, gathered, world =>
    match (l.page cursor).run transport world with
    | (.error failure, world) => (.failed failure, world)
    | (.ok page, world) =>
      let added := addUntil enough gathered page.entries
      if added.2 then (.complete added.1, world)
      else gatherFrom l transport enough pages page.next added.1 world

/-- The entries of a listing from its start, as many as are enough. -/
def gather (l : Listing s) (transport : Transport σ) (enough : Nat → Bool) (pages : Nat)
    (world : σ) : Outcome (List (Datum s)) × σ :=
  l.gatherFrom transport enough pages (some l.first) [] world

/-- All entries of a listing. -/
def collect (l : Listing s) (transport : Transport σ) (pages : Nat) (world : σ) :
    Outcome (List (Datum s)) × σ :=
  l.gather transport (fun _ => false) pages world

end Listing

end ContentApi
