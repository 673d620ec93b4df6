import ContentApi.Listing.Walk
import ContentApi.Proofs.Http.Trace
import ContentApi.Proofs.Schema.NormalForm
import Mathlib.Data.List.Forall2

/-! A page is read from an answer that shows its entries, whatever else the answer says. -/

namespace ContentApi

/-- Whether a value is read as a document of a shape where it is an entry of a page in a text. A
page and the list of its entries take two of the levels that a text may have. -/
def Json.IsEntry (s : Shape) (value : Json) (entry : Datum s) : Prop :=
  readDatum (.text 126) s (Doc.ofJson value) = .ok entry

/-- The value of the member for the total of entries, which is null for an unknown one. -/
def totalJson : Option UInt64 → Json
  | some n => .number (.integer n.toNat)
  | none => .null

/-- Whether an answer of success shows a page with some entries, and perhaps their total. The text
may say anything else too. -/
structure Response.Shows (r : Response) (entries : List Json) (total : Option UInt64) : Prop where
  success : r.isSuccess = true
  notBlank : r.isBlank = false
  page : ∃ members : Members, members.Distinct ∧
    WholeText.scan r.text = ⟨Doc.ofJson (.object members), false⟩ ∧
    (Members.find? "entries" members).getD (.array []) = .array entries ∧
    (Members.find? "total_count" members).getD .null = totalJson total ∧
    ∀ marker, Members.find? "next_marker" members = some marker →
      ∃ read, (Doc.ofJson marker).toJson (some 127) = .ok read

/-- An answer shows what the members of its text say, where no marker is among them. -/
theorem Response.Shows.carrying {text : String} {members : Members} {entries : List Json}
    {total : Option UInt64} (distinct : members.Distinct)
    (notBlank : (trimChars text.toList).isEmpty = false)
    (scanned : WholeText.scan text = ⟨Doc.ofJson (.object members), false⟩)
    (entriesIs : (Members.find? "entries" members).getD (.array []) = .array entries)
    (totalIs : (Members.find? "total_count" members).getD .null = totalJson total)
    (unmarked : Members.find? "next_marker" members = none) :
    (Response.carrying text).Shows entries total where
  success := rfl
  notBlank := (Response.isBlank_carrying text).trans notBlank
  page := by
    -- Without a marker there is none that would have to be readable.
    refine ⟨members, distinct, ?_, entriesIs, totalIs, fun marker found => ?_⟩
    · rw [Response.text_carrying, scanned]
    · rw [unmarked] at found
      cases found

section

variable {s : Shape} {values : List Json} {entries : List (Datum s)} {total : Option UInt64}

/-- Entries are read to the end of their list. -/
theorem readEach_entries (areEntries : List.Forall₂ (Json.IsEntry s) values entries) :
    readEach (.text 126) s (DocItems.ofJson values) = .ok (Items.ofList entries) := by
  -- The list ends where its entries do, since a value does not break off.
  induction areEntries with
  | nil =>
    simp [DocItems.ofJson, readEach, Stop.read, Cut.lift, Items.ofList, Bind.bind, Except.bind,
      Pure.pure, Except.pure]
  | cons first rest ih =>
    rw [Json.IsEntry] at first
    simp [DocItems.ofJson, readEach, first, ih, Items.ofList, Bind.bind, Except.bind, Pure.pure,
      Except.pure]

/-- What a page holds for its entries. -/
def entriesSlot (entries : List (Datum s)) : Slot (.entries "entries" s) :=
  .entries (Items.ofList entries)

/-- The entries of a page are read where they are listed, and none where there is no list. -/
theorem readFrom_entries {value : Option Json}
    (areEntries : List.Forall₂ (Json.IsEntry s) values entries)
    (given : value.getD (.array []) = .array values) :
    (entriesSlot entries).ReadFrom (.text 127) value := by
  -- A page without a list has no entries, as one with an empty list.
  cases value with
  | none =>
    cases given
    cases areEntries
    exact ⟨rfl, rfl⟩
  | some value =>
    rw [Option.getD_some] at given
    subst given
    have read := readEach_entries areEntries
    simp [entriesSlot, Slot.ReadFrom, readMember, readSlot, Doc.ofJson, readItems, Mode.enter, read,
      Except.map, Bind.bind, Except.bind]

/-- What a page holds for the total of entries. -/
def totalSlot (total : Option UInt64) : Slot (countMember "total_count") :=
  match total with
  | some n => .given (.leaf (l := .count) n)
  | none => .absent

/-- The total of entries is read where it is given as a number, and counts as absent elsewhere. -/
theorem readFrom_total {value : Option Json} (given : value.getD .null = totalJson total) :
    (totalSlot total).ReadFrom (.text 127) value := by
  -- A total that is missing and one that is null are the same to the reader.
  cases value with
  | none =>
    cases total with
    | none => exact ⟨rfl, rfl⟩
    | some n => cases given
  | some value =>
    rw [Option.getD_some] at given
    subst given
    cases total with
    | none => rfl
    | some n =>
      -- A known total is a number that the reader of counts takes.
      have read : Leaf.read (.text 127) (Doc.ofJson (.number (.integer n.toNat))) .count = .ok n :=
        Leaf.readCount_ofNat n
      simp only [totalJson, Slot.ReadFrom, readMember, countMember, readSlot, readDatum_leaf, read]
      rfl

/-- What a page holds for the marker of the next one. -/
def markerSlot (marker : Json) : Slot (.plain "next_marker" .untyped) :=
  .plain (l := .untyped) marker

/-- A marker is read as what a reader takes it for, and as null where there is none. -/
theorem readFrom_marker {value : Option Json} {read : Json}
    (ok : (Doc.ofJson (value.getD .null)).toJson (some 127) = .ok read) :
    (markerSlot read).ReadFrom (.text 127) value := by
  cases value with
  | none =>
    -- A marker that is missing is read as null would be.
    cases ok
    exact ⟨rfl, rfl⟩
  | some value =>
    rw [Option.getD_some] at ok
    simp [markerSlot, Slot.ReadFrom, readMember, readSlot, Leaf.read, readUntyped, Mode.room, ok,
      Except.map]

/-- Any marker is read that a reader can take. -/
theorem exists_readFrom_marker {value : Option Json} (readable : ∀ marker, value = some marker →
    ∃ read, (Doc.ofJson marker).toJson (some 127) = .ok read) :
    ∃ marker, (markerSlot marker).ReadFrom (.text 127) value := by
  -- A page that has no marker counts as one whose marker is null.
  cases value with
  | none => exact ⟨.null, readFrom_marker rfl⟩
  | some value =>
    obtain ⟨read, ok⟩ := readable value rfl
    exact ⟨read, readFrom_marker ok⟩

/-- A page with entries, their total and a marker. -/
def pageRecord (entries : List (Datum s)) (total : Option UInt64) (marker : Json) :
    Record (.page s) :=
  .cons (entriesSlot entries) (.cons (totalSlot total) (.cons (markerSlot marker) .nil))

/-- A text is read as a page if its members are read as those of one. -/
theorem Response.datum_page {r : Response} {members : Members} {marker : Json}
    (notBlank : r.isBlank = false) (distinct : members.Distinct)
    (scanned : WholeText.scan r.text = ⟨Doc.ofJson (.object members), false⟩)
    (entriesRead : (entriesSlot entries).ReadFrom (.text 127) (Members.find? "entries" members))
    (totalRead : (totalSlot total).ReadFrom (.text 127) (Members.find? "total_count" members))
    (markerRead : (markerSlot marker).ReadFrom (.text 127)
      (Members.find? "next_marker" members)) :
    r.datum (.record (.page s)) = .ok (.record (pageRecord entries total marker)) := by
  have entered : Mode.enter (.text 128) = .ok (.text 127) := rfl
  have membersRead : ∀ m (p : Place m (Kind.page s).members),
      ((pageRecord entries total marker).get p).ReadFrom (.text 127)
        (Members.find? m.name members) := by
    -- The members of a page are looked at in their order.
    intro m p
    rcases p with _ | (_ | (_ | ⟨⟨⟩⟩))
    · exact entriesRead
    · exact totalRead
    · exact markerRead
  -- A page shares no members with items, so one pass over them reads it.
  have read := (readDatum_whole_ok_iff entered distinct rfl).mpr membersRead
  rw [Response.datum, notBlank, Datum.ofText, scanned]
  simp only [read]
  rfl

/-- An answer that shows a page is read as a page with its entries and their total. -/
theorem Response.Shows.datum_ok {r : Response} (shows : r.Shows values total)
    (areEntries : List.Forall₂ (Json.IsEntry s) values entries) : ∃ marker : Json,
    r.datum (.record (.page s)) = .ok (.record (pageRecord entries total marker)) := by
  obtain ⟨members, distinct, scanned, entriesIs, totalIs, markerIs⟩ := shows.page
  -- The marker is read as some document, of which nothing is known.
  obtain ⟨marker, markerRead⟩ := exists_readFrom_marker markerIs
  exact ⟨marker, Response.datum_page shows.notBlank distinct scanned
    (readFrom_entries areEntries entriesIs) (readFrom_total totalIs) markerRead⟩

/-- A page that was read is had, and what leads on from it is told by what it says. -/
theorem Listing.page_of_datum {l : Listing s} {cursor : Cursor} {r : Response} {marker : Json}
    (success : r.isSuccess = true)
    (read : r.datum (.record (.page s)) = .ok (.record (pageRecord entries total marker))) :
    (l.page cursor).outcome (some r) = .ok ⟨entries,
      cursor.after entries.length (total.map UInt64.toNat) marker⟩ := by
  -- An answer of success is read as a page, which takes its parts from the record.
  rw [Call.outcome, if_pos success]
  show (r.datum _).bind _ = _
  rw [read]
  -- The members of the page are looked up by their names and places.
  have looked : (pageRecord entries total marker).count? "total_count" = total := by
    cases total <;> rfl
  show Except.ok (Page.mk (Items.ofList entries).toList
    (cursor.after (Items.ofList entries).toList.length
      (((pageRecord entries total marker).count? "total_count").map UInt64.toNat) marker)) = _
  rw [looked, Items.toList_ofList]

end

end ContentApi
