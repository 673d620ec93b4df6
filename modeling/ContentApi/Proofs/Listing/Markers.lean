import ContentApi.Proofs.Http.Trace
import ContentApi.Proofs.Listing.Pages
import ContentApi.Proofs.Listing.Walks
import ContentApi.Proofs.Url.Form
import Mathlib

/-! A listing of marked pages follows the markers and collects every entry in order. -/

namespace ContentApi

variable {s : Shape} {σ : Type}

/-- The texts by which a value may mark a page: a text that is not empty is one itself, and a number
is one as it is printed. -/
inductive Json.Marks : Json → String → Prop where
  | text {marker : String} (notEmpty : marker ≠ "") : Marks (.text marker) marker
  | number (n : Number) : Marks (.number n) n.render

/-- A page that a service has, with what it says of the page after it. -/
structure MarkedPage where
  /-- The entries of the page. -/
  entries : List Json
  /-- The marker of the page after it, which is null if it is left out. -/
  marker : Json

namespace MarkedPage

/-- The page of some pages to which a marker leads, or the first one without a marker. -/
inductive LeadsTo (pages : List MarkedPage) : Option String → MarkedPage → Prop where
  | first {page : MarkedPage} (head : pages.head? = some page) : LeadsTo pages none page
  | next {before page : MarkedPage} {marker : String} (i : Nat) (here : pages[i]? = some before)
    (marks : before.marker.Marks marker) (after : pages[i + 1]? = some page) :
    LeadsTo pages (some marker) page

/-- Whether every page but the last one marks the page after it. -/
def Linked : List MarkedPage → Prop
  | [] => False
  | [last] => ∀ marker, ¬ last.marker.Marks marker
  | page :: next :: rest => (∃ marker, page.marker.Marks marker) ∧ Linked (next :: rest)

/-- Whether no two pages mark the page after them by the same text. -/
def Distinct (pages : List MarkedPage) : Prop :=
  pages.Pairwise fun page other => ∀ marker, page.marker.Marks marker → ¬ other.marker.Marks marker

end MarkedPage

/-- The markers that the query of a request holds. -/
def Request.markers (r : Request) : List String :=
  (r.url.queryPairs.filter fun pair => pair.1 == "marker").map Prod.snd

/-- Whether a request asks for the page of a listing to which a marker leads. -/
structure Request.AsksWith (r : Request) (l : Listing s) (marker : Option String) : Prop where
  method : r.method = .get
  address : { r.url with query := l.url.query } = l.url
  markers : r.markers = marker.toList

/-- Whether an answer of success shows a page. The text may say anything else too. -/
structure Response.ShowsPage (r : Response) (page : MarkedPage) : Prop where
  success : r.isSuccess = true
  notBlank : r.isBlank = false
  shown : ∃ (members : Members) (total : Option UInt64) (read : Json), members.Distinct ∧
    WholeText.scan r.text = ⟨Doc.ofJson (.object members), false⟩ ∧
    (Members.find? "entries" members).getD (.array []) = .array page.entries ∧
    (Members.find? "total_count" members).getD .null = totalJson total ∧
    (Members.find? "next_marker" members).getD .null = page.marker ∧
    (Doc.ofJson page.marker).toJson (some 127) = .ok read

/-- Whether a transport answers every request for a page of a listing with one to which the marker
of the request leads. -/
def Listing.IsLinkedBy (l : Listing s) (transport : Transport σ) (pages : List MarkedPage) : Prop :=
  ∀ (request : Request) (world : σ) (marker : Option String), request.AsksWith l marker →
    (∃ page, MarkedPage.LeadsTo pages marker page) →
    ∃ r page, (transport.exchange request world).1 = some r ∧
      MarkedPage.LeadsTo pages marker page ∧ r.ShowsPage page

/-- What leads on from a page is the text by which it marks the next one. -/
theorem nextMarker?_eq_some {value : Json} {marker : String} :
    nextMarker? value = some marker ↔ value.Marks marker := by
  constructor
  · intro leads
    -- Only a text that is not empty and a number lead on.
    cases value with
    | text written =>
      rw [nextMarker?] at leads
      split at leads
      · cases leads
      · rename_i notEmpty
        cases leads
        exact .text fun empty => notEmpty (by simp [empty])
    | number n =>
      cases leads
      exact .number n
    | null | flag | array | object => cases leads
  · intro marks
    cases marks with
    | text notEmpty => simp [nextMarker?, notEmpty]
    | number n => rfl

/-- A value marks a page by the same text once it was read. -/
theorem nextMarker?_of_toJson {room : Room} : {value read : Json} →
    (Doc.ofJson value).toJson room = .ok read → nextMarker? read = nextMarker? value
  | .null, _, ok | .flag _, _, ok | .number _, _, ok | .text _, _, ok => by
    cases ok
    rfl
  | .array _, _, ok | .object _, _, ok => by
    rw [Doc.ofJson, Doc.toJson] at ok
    -- Whatever is inside, it is read as a list or an object again.
    obtain ⟨inner, -, ok⟩ := bind_ok_iff.mp ok
    obtain ⟨inside, -, same⟩ := bind_ok_iff.mp ok
    cases same
    rfl

namespace MarkedPage

variable {pages : List MarkedPage}

/-- A marker leads to one page only, if no two pages have the same. -/
theorem LeadsTo.unique (distinct : Distinct pages) {marker : Option String}
    {page other : MarkedPage} (leads : LeadsTo pages marker page)
    (leadsToo : LeadsTo pages marker other) : page = other := by
  cases leads with
  | first head =>
    cases leadsToo with
    | first headToo => exact Option.some.inj (head.symm.trans headToo)
  | next i here marks after =>
    cases leadsToo with
    | next j there marksToo afterToo =>
      have apart := List.pairwise_iff_getElem.mp distinct
      obtain ⟨inside, atI⟩ := List.getElem?_eq_some_iff.mp here
      obtain ⟨insideToo, atJ⟩ := List.getElem?_eq_some_iff.mp there
      -- Two pages with the marker would be two places for it.
      rcases Nat.lt_trichotomy i j with before | same | behind
      · exact absurd (atJ ▸ marksToo) (apart i j inside insideToo before _ (atI ▸ marks))
      · subst same
        exact Option.some.inj (after.symm.trans afterToo)
      · exact absurd (atI ▸ marks) (apart j i insideToo inside behind _ (atJ ▸ marksToo))

end MarkedPage

namespace Listing

/-- The page to which a marker leads is asked for by that marker, if the listing has none itself. -/
theorem asksWith_page (l : Listing s) (unmarked : ∀ pair ∈ l.url.queryPairs, pair.1 ≠ "marker")
    (marker : Option String) : (l.page (.marker marker)).request.AsksWith l marker where
  method := rfl
  address := rfl
  markers := by
    show (((l.url.addPairs _).queryPairs).filter _).map _ = _
    have own : l.url.queryPairs.filter (fun pair => pair.1 == "marker") = [] :=
      List.filter_eq_nil_iff.mpr fun pair member => by simpa using unmarked pair member
    -- The marker is read back from the query that it is written into, whatever its characters.
    rw [Url.queryPairs_addPairs, List.filter_append, own, List.nil_append]
    cases marker with
    | none => rfl
    | some text => rfl

/-- A page that an answer shows is had, and leads on by its marker. -/
theorem page_marked {l : Listing s} {marker : Option String} {r : Response} {page : MarkedPage}
    {entries : List (Datum s)} (shows : r.ShowsPage page)
    (areEntries : List.Forall₂ (Json.IsEntry s) page.entries entries) :
    (l.page (.marker marker)).outcome (some r) =
      .ok ⟨entries, (nextMarker? page.marker).map fun next => .marker (some next)⟩ := by
  obtain ⟨members, total, read, distinct, scanned, entriesIs, totalIs, markerIs, readOk⟩ :=
    shows.shown
  -- The reader takes the members in their order, of which the total is not used.
  rw [← markerIs] at readOk
  have whole := Response.datum_page shows.notBlank distinct scanned
    (readFrom_entries areEntries entriesIs) (readFrom_total totalIs) (readFrom_marker readOk)
  rw [page_of_datum shows.success whole, Cursor.after, nextMarker?_of_toJson readOk, markerIs]

section

variable {l : Listing s} {transport : Transport σ} {pages : List MarkedPage}

/-- The page to which a marker leads is had by one request, which asks with that marker. -/
theorem run_page_linked (unmarked : ∀ pair ∈ l.url.queryPairs, pair.1 ≠ "marker")
    (distinct : MarkedPage.Distinct pages) (served : l.IsLinkedBy transport pages)
    {marker : Option String} {page : MarkedPage} (leads : MarkedPage.LeadsTo pages marker page)
    {entries : List (Datum s)} (areEntries : List.Forall₂ (Json.IsEntry s) page.entries entries)
    (state : σ × List Exchange) :
    ∃ (later : σ) (exchange : Exchange), exchange.request.AsksWith l marker ∧
      (l.page (.marker marker)).run transport.traced state =
        (.ok ⟨entries, (nextMarker? page.marker).map fun next => .marker (some next)⟩,
          later, state.2 ++ [exchange]) := by
  obtain ⟨world, record⟩ := state
  have asks := l.asksWith_page unmarked marker
  obtain ⟨r, shown, given, leadsToo, shows⟩ := served _ world marker asks ⟨page, leads⟩
  -- The page that is shown is the one to which the marker leads, as there is no other.
  have same : shown = page := leadsToo.unique distinct leads
  subst same
  refine ⟨(transport.exchange (l.page (.marker marker)).request world).2,
    ⟨(l.page (.marker marker)).request, some r⟩, asks, ?_⟩
  rw [Call.run_traced]
  simp only [given, page_marked shows areEntries]

/-- From a page on, the entries of it and of all pages after it are gathered, by one request for
each of them. -/
theorem gather_linked (unmarked : ∀ pair ∈ l.url.queryPairs, pair.1 ≠ "marker")
    (distinct : MarkedPage.Distinct pages) (served : l.IsLinkedBy transport pages)
    {rest : List MarkedPage} {entries : List (List (Datum s))} (linked : MarkedPage.Linked rest)
    (areEntries : List.Forall₂ (fun page => List.Forall₂ (Json.IsEntry s) page.entries) rest
      entries)
    (front : List MarkedPage) (whole : pages = front ++ rest) {marker : Option String}
    (leads : ∀ page, rest.head? = some page → MarkedPage.LeadsTo pages marker page) {allowed : Nat}
    (enough : rest.length ≤ allowed) (gathered : List (Datum s)) (state : σ × List Exchange) :
    let run := l.gatherFrom transport.traced (fun _ => false) allowed (some (.marker marker))
      gathered state
    run.1 = .complete (gathered ++ entries.flatten) ∧
      ∃ added, run.2.2 = state.2 ++ added ∧ List.Forall₂ (fun exchange page =>
        ∃ marker, exchange.request.AsksWith l marker ∧ MarkedPage.LeadsTo pages marker page)
        added rest := by
  -- The induction is on the pages that are left, each of which is led to by the one before it.
  induction areEntries generalizing front marker allowed gathered state with
  | nil => exact absurd linked id
  | @cons page own rest others areOwn areOthers ih =>
    cases allowed with
    | zero => simp at enough
    | succ allowed =>
    have here := leads page rfl
    obtain ⟨later, exchange, asks, ran⟩ :=
      run_page_linked unmarked distinct served here areOwn state
    simp only [gatherFrom_ok l ran, addUntil_false, if_neg Bool.false_ne_true]
    cases rest with
    | nil =>
      -- The last page leads nowhere.
      cases areOthers
      have ends : nextMarker? page.marker = none := by
        cases next : nextMarker? page.marker with
        | none => rfl
        | some marker => exact absurd (nextMarker?_eq_some.mp next) (linked marker)
      simp only [ends, Option.map_none, gatherFrom_none]
      refine ⟨by simp, [exchange], rfl, .cons ⟨marker, asks, here⟩ .nil⟩
    | cons next rest =>
      obtain ⟨⟨text, marks⟩, linkedRest⟩ := linked
      simp only [nextMarker?_eq_some.mpr marks, Option.map_some]
      have leadsNext : ∀ other, (next :: rest).head? = some other →
          MarkedPage.LeadsTo pages (some text) other := by
        intro other head
        refine .next front.length (?_ : pages[front.length]? = some page) marks ?_
        · simp [whole]
        · simpa [whole] using head
      have split : pages = (front ++ [page]) ++ next :: rest := by simp [whole]
      obtain ⟨complete, added, recorded, asked⟩ := ih linkedRest (front ++ [page]) split leadsNext
        (Nat.le_of_succ_le_succ enough) (gathered ++ own) (later, state.2 ++ [exchange])
      refine ⟨by simpa using complete, exchange :: added, by simpa using recorded,
        .cons ⟨marker, asks, here⟩ asked⟩

end

/-- A listing with marked pages is collected as it is. Where a service shows each page to the
request with the marker that leads there, all entries are collected in their order, whatever the
markers are written with and even if some pages are empty, by one request for each page. The entries
are those that a walk gives out one by one. All this holds from any state, so every time anew. -/
theorem collect_marked (l : Listing s) (marked : l.paging = .marked)
    (unmarked : ∀ pair ∈ l.url.queryPairs, pair.1 ≠ "marker") (transport : Transport σ)
    (pages : List MarkedPage) (entries : List (List (Datum s))) (linked : MarkedPage.Linked pages)
    (distinct : MarkedPage.Distinct pages) (served : l.IsLinkedBy transport pages)
    (areEntries : List.Forall₂ (fun page => List.Forall₂ (Json.IsEntry s) page.entries) pages
      entries)
    (allowed : Nat) (enough : pages.length ≤ allowed) (state : σ × List Exchange) :
    let run := l.collect transport.traced allowed state
    run.1 = .complete entries.flatten ∧
    (∃ added, run.2.2 = state.2 ++ added ∧ List.Forall₂ (fun exchange page =>
      ∃ marker, exchange.request.AsksWith l marker ∧ MarkedPage.LeadsTo pages marker page)
      added pages) ∧
    l.walk.Drains transport.traced state [] (.complete entries.flatten) run.2 := by
  intro run
  have start : l.first = .marker none := by rw [first, marked, Paging.first]
  have runIs : run = l.gatherFrom transport.traced (fun _ => false) allowed (some (.marker none))
      [] state := by
    rw [← start]
    rfl
  obtain ⟨complete, added, recorded, asked⟩ := gather_linked unmarked distinct served linked
    areEntries [] rfl (fun page head => .first head) enough [] state
  rw [← runIs] at complete recorded
  refine ⟨complete, ⟨added, recorded, asked⟩, ?_⟩
  -- A collection that is complete is what a walk comes to.
  have whole : l.gatherFrom transport.traced (fun _ => false) allowed (some l.first) [] state =
      (.complete entries.flatten, run.2) := Prod.ext complete rfl
  exact drains_of_gatherFrom whole nofun

/-- Pages with two letters, of which the second page has none. -/
def linkedPages : List MarkedPage :=
  [⟨[.text "a"], .text "b&c=+ %é"⟩, ⟨[], .number (.integer 7)⟩, ⟨[.text "b"], .text ""⟩]

/-- The last page of letters is marked by the empty text, which leads nowhere. -/
theorem linkedPages_linked : MarkedPage.Linked linkedPages :=
  ⟨⟨_, .text (by decide)⟩, ⟨_, .number _⟩, fun _ marks => by cases marks; contradiction⟩

/-- The two markers that lead somewhere are not the same. -/
theorem linkedPages_distinct : MarkedPage.Distinct linkedPages := by
  have printed : (Number.integer 7).render = "7" := by cbv
  simp [MarkedPage.Distinct, linkedPages, ← nextMarker?_eq_some, nextMarker?, printed]

/-- The text of the page to which some markers lead. -/
def linkedText : List String → String
  | [] => "\x7b\"entries\":[\"a\"],\"next_marker\":\"b&c=+ %é\"\x7d"
  | ["7"] => "\x7b\"entries\":[\"b\"],\"next_marker\":\"\"\x7d"
  | _ => "\x7b\"next_marker\":7\x7d"

/-- A transport that answers with the page to which the markers of a request lead. -/
def linkedTransport : Transport Unit where
  exchange request _ := (some (.carrying (linkedText request.markers)), ())

/-- A listing of letters on marked pages. -/
def linkedLetters : Listing (.leaf .text) where
  connection := ⟨root, root, "", "", 60⟩
  url := root
  limit := 100
  paging := .marked
where
  root : Url := ⟨"https".toList, none, .segments [[]], none, none⟩

/-- The page without entries says nothing but its marker. -/
theorem scan_linkedText : WholeText.scan (linkedText ["b&c=+ %é"]) =
    ⟨Doc.ofJson (.object [("next_marker", .number (.integer 7))]), false⟩ := by
  -- The text is written out, so that the scanner is run by computing.
  have written : (linkedText ["b&c=+ %é"]).toList = ['\x7b', '"', 'n', 'e', 'x', 't', '_', 'm', 'a',
      'r', 'k', 'e', 'r', '"', ':', '7', '\x7d'] := by decide
  rw [WholeText.scan, written]
  rfl

/-- Each page of letters is shown where its marker leads. -/
theorem linkedLetters_isLinkedBy : linkedLetters.IsLinkedBy linkedTransport linkedPages := by
  intro request world marker asks
  rintro ⟨page, leads⟩
  refine ⟨_, page, rfl, leads, ?_⟩
  rw [asks.markers]
  -- The first page needs no marker, and the others are led to from the one before.
  cases leads with
  | first head =>
    cases head
    exact ⟨rfl, by cbv, [("entries", .array [.text "a"]), ("next_marker", .text "b&c=+ %é")], none,
      _, Members.Ascending.distinct (by decide), by cbv, rfl, rfl, rfl, rfl⟩
  | next i here marks after =>
    rcases i with _ | _ | i
    · cases here
      cases after
      cases marks
      refine ⟨rfl, by cbv, [("next_marker", .number (.integer 7))], none, _,
        Members.Ascending.distinct (by decide), ?_, rfl, rfl, rfl, rfl⟩
      exact (congrArg _ (Response.text_carrying _)).trans scan_linkedText
    · cases here
      cases after
      cases marks
      exact ⟨rfl, by cbv, [("entries", .array [.text "b"]), ("next_marker", .text "")], none, _,
        Members.Ascending.distinct (by decide), by cbv, rfl, rfl, rfl, rfl⟩
    · cases after

/-- Letters are collected again after they were collected once. -/
theorem collect_linkedLetters : ∃ state,
    linkedLetters.collect linkedTransport.traced 3 ((), []) =
      (.complete [.leaf (l := .text) "a", .leaf (l := .text) "b"], state) ∧
    (linkedLetters.collect linkedTransport.traced 3 state).1 =
      .complete [.leaf (l := .text) "a", .leaf (l := .text) "b"] := by
  -- The pages hold a letter, nothing, and a letter, and their markers differ.
  have collected := collect_marked linkedLetters rfl (fun pair member => nomatch member)
    linkedTransport linkedPages
    [[.leaf (l := .text) "a"], [], [.leaf (l := .text) "b"]] linkedPages_linked
    linkedPages_distinct linkedLetters_isLinkedBy
    (.cons (.cons rfl .nil) (.cons .nil (.cons (.cons rfl .nil) .nil))) 3 (by decide)
  exact ⟨_, Prod.ext (collected ((), [])).1 rfl, (collected _).1⟩

end Listing

end ContentApi
