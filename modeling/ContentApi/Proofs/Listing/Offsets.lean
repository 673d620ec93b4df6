import ContentApi.Proofs.Calendar.Digits
import ContentApi.Proofs.Http.Trace
import ContentApi.Proofs.Listing.Pages
import ContentApi.Proofs.Listing.Walks
import ContentApi.Proofs.Url.Form
import Mathlib

/-! A listing whose pages are counted asks for each page by what it has received, and collects every
entry that the service has, in order and once. -/

namespace ContentApi

variable {s : Shape} {σ : Type}

/-- Whether a request asks for the page of a listing from some place on. -/
structure Request.AsksFor (r : Request) (l : Listing s) (offset : Nat) : Prop where
  method : r.method = .get
  address : { r.url with query := l.url.query } = l.url
  place : r.url.queryPairs.getLast? = some ("offset", toString offset)

/-- Whether a transport answers every request for a page with entries from its place on, at least
one where there is one, and with no other total than that of all entries. -/
def Listing.IsServedBy (l : Listing s) (transport : Transport σ) (all : List Json) : Prop :=
  ∀ (request : Request) (world : σ) (offset : Nat), request.AsksFor l offset →
    ∃ r block total, (transport.exchange request world).1 = some r ∧ r.Shows block total ∧
      block <+: all.drop offset ∧ (offset < all.length → block ≠ []) ∧
      ∀ n, total = some n → n.toNat = all.length

/-- The entries are the first member of a page. -/
theorem Kind.page_entries (s : Shape) :
    (Kind.page s).members[0]? = some (.entries "entries" s) := rfl

/-- The entries that an answer brings, which are none unless it is a page. -/
def receivedFrom (s : Shape) : Option Response → List (Datum s)
  | none => []
  | some r =>
    if r.isSuccess then
      match r.datum (.record (.page s)) with
      | .ok page =>
        (page.fields.get (m := .entries "entries" s) (.ofIndex _ 0 (Kind.page_entries s))).items
      | .error _ => []
    else []

/-- The entries that a record of exchanges shows to have been received. -/
def received (s : Shape) (record : List Exchange) : List (Datum s) :=
  record.flatMap fun exchange => receivedFrom s exchange.answer

/-- What one more exchange brings comes before what the others bring. -/
theorem received_cons (exchange : Exchange) (rest : List Exchange) :
    received s (exchange :: rest) = receivedFrom s exchange.answer ++ received s rest :=
  List.flatMap_cons

/-- What leads on from a counted page leads past its entries, of which there must be some. -/
theorem Cursor.after_offset (offset fetched : Nat) (total : Option Nat) (marker : Json) :
    (Cursor.offset offset).after fetched total marker = none ∨
      (Cursor.offset offset).after fetched total marker = some (.offset (offset + fetched)) ∧
        fetched ≠ 0 := by
  rw [Cursor.after]
  -- A page without entries or one that reaches the total leads nowhere.
  by_cases last : (fetched = 0 || total.any (· ≤ offset + fetched)) = true
  · exact Or.inl (if_pos last)
  · refine Or.inr ⟨if_neg last, fun empty => last ?_⟩
    simp [empty]

namespace Listing

/-- The page from some place on is asked for by that place. -/
theorem asksFor_page (l : Listing s) (offset : Nat) :
    (l.page (.offset offset)).request.AsksFor l offset where
  method := rfl
  address := rfl
  place := by
    show ((l.url.addPairs _).queryPairs).getLast? = _
    -- The place is the last pair that is added, so no pair of the address itself can hide it.
    rw [Url.queryPairs_addPairs, Cursor.pairs, List.getLast?_append]
    rfl

/-- A page from some place on brings the entries of its answer, and leads on only past these and
only if there are some. -/
theorem page_ok {l : Listing s} {offset : Nat} {answer : Option Response} {page : Page s}
    (ok : (l.page (.offset offset)).outcome answer = .ok page) :
    page.entries = receivedFrom s answer ∧ (page.next = none ∨
      page.next = some (.offset (offset + page.entries.length)) ∧ page.entries ≠ []) := by
  -- A page can only be had from an answer of success that is read as one.
  cases answer with
  | none => cases ok
  | some r =>
    rw [Call.outcome] at ok
    by_cases success : r.isSuccess = true
    · rw [if_pos success] at ok
      obtain ⟨datum, read, same⟩ := bind_ok_iff.mp ok
      cases same
      refine ⟨by rw [receivedFrom, if_pos success, read], ?_⟩
      -- What leads on is told by the three members of the page, whatever they are.
      let entries := (datum.fields.get (m := .entries "entries" s) (.ofIndex _ 0 rfl)).items
      let total := (datum.fields.count? "total_count").map UInt64.toNat
      let marker := (datum.fields.get (m := .plain "next_marker" .untyped) (.ofIndex _ 2 rfl)).value
      rcases Cursor.after_offset offset entries.length total marker with last | ⟨next, some⟩
      · exact Or.inl last
      · exact Or.inr ⟨next, fun empty => some (List.length_eq_zero_iff.mpr empty)⟩
    · rw [if_neg success] at ok
      cases ok

/-- A record of exchanges that asks for page after page from some place on, each by what was
received before it, and for no page after one without entries. -/
def Asked (l : Listing s) : Nat → List Exchange → Prop
  | _, [] => True
  | offset, exchange :: rest =>
    exchange.request.AsksFor l offset ∧
      (rest ≠ [] → receivedFrom s exchange.answer ≠ []) ∧
      Asked l (offset + (receivedFrom s exchange.answer).length) rest

/-- However a transport answers, pages are asked for by what was received before them. -/
theorem asked_gatherFrom (l : Listing s) (transport : Transport σ) (enough : Nat → Bool)
    (pages offset : Nat) (gathered : List (Datum s)) (world : σ) (record : List Exchange) :
    ∃ added, (l.gatherFrom transport.traced enough pages (some (.offset offset)) gathered
        (world, record)).2.2 = record ++ added ∧ l.Asked offset added := by
  -- The induction is on how many pages may be fetched, each of which adds one exchange.
  induction pages generalizing offset gathered world record with
  | zero => exact ⟨[], (List.append_nil _).symm, trivial⟩
  | succ pages ih =>
    have ran := Call.run_traced (l.page (.offset offset)) transport world record
    generalize transport.exchange (l.page (.offset offset)).request world = answered at ran
    obtain ⟨answer, after⟩ := answered
    have alone : l.Asked offset [⟨(l.page (.offset offset)).request, answer⟩] :=
      ⟨l.asksFor_page offset, fun more => absurd rfl more, trivial⟩
    -- Whether or not the page is had, its request is the first one of those added.
    cases outcome : (l.page (.offset offset)).outcome answer with
    | error failure =>
      simp only [outcome] at ran
      rw [gatherFrom_error l ran]
      exact ⟨_, rfl, alone⟩
    | ok page =>
      simp only [outcome] at ran
      obtain ⟨entriesIs, leads⟩ := page_ok outcome
      rw [gatherFrom_ok l ran]
      split
      · exact ⟨_, rfl, alone⟩
      · rcases leads with last | ⟨next, some⟩
        · rw [last, gatherFrom_none]
          exact ⟨_, rfl, alone⟩
        · rw [next]
          -- The rest asks from behind the entries of this page, of which there is one at least.
          obtain ⟨added, whole, asked⟩ := ih (offset + page.entries.length) _ after
            (record ++ [⟨(l.page (.offset offset)).request, answer⟩])
          refine ⟨⟨(l.page (.offset offset)).request, answer⟩ :: added, ?_,
            l.asksFor_page offset, fun _ => entriesIs ▸ some, entriesIs ▸ asked⟩
          rw [whole, List.append_assoc, List.singleton_append]

section

variable {l : Listing s}

/-- Each request of a record asks for the page from where the entries received before it end. -/
theorem Asked.asksFor {offset : Nat} {record : List Exchange} (asked : l.Asked offset record)
    (i : Nat) (inside : i < record.length) :
    record[i].request.AsksFor l (offset + (received s (record.take i)).length) := by
  induction record generalizing offset i with
  | nil => cases inside
  | cons exchange rest ih =>
    obtain ⟨first, -, later⟩ := asked
    -- The first request asks from the start, and each other one is a request of the rest.
    cases i with
    | zero => exact first
    | succ i =>
      have step := ih later i (Nat.lt_of_succ_lt_succ inside)
      rw [Nat.add_assoc, ← List.length_append] at step
      exact step

/-- Before each request of a record that is not its first one, something more was received. -/
theorem Asked.received_lt {offset : Nat} {record : List Exchange} (asked : l.Asked offset record)
    {i j : Nat} (later : i < j) (inside : j < record.length) :
    (received s (record.take i)).length < (received s (record.take j)).length := by
  induction record generalizing offset i j with
  | nil => cases inside
  | cons exchange rest ih =>
    obtain ⟨-, more, others⟩ := asked
    cases j with
    | zero => cases later
    | succ j =>
      -- The first request is followed by others, so its answer brought something.
      have left : rest ≠ [] := by
        rintro rfl
        exact absurd inside (by simp)
      have some := List.length_pos_iff.mpr (more left)
      rw [List.take_succ_cons, received_cons, List.length_append]
      -- Before the first request nothing was received, and behind it both sides grow alike.
      cases i with
      | zero =>
        rw [List.take_zero, received, List.flatMap_nil, List.length_nil]
        omega
      | succ i =>
        have step := ih others (Nat.lt_of_succ_lt_succ later) (Nat.lt_of_succ_lt_succ inside)
        rw [List.take_succ_cons, received_cons, List.length_append]
        exact Nat.add_lt_add_left step _

/-- A record has at most one request more than entries that were received. -/
theorem Asked.length_le {offset : Nat} {record : List Exchange} (asked : l.Asked offset record) :
    record.length ≤ (received s record).length + 1 := by
  induction record generalizing offset with
  | nil => exact Nat.zero_le _
  | cons exchange rest ih =>
    obtain ⟨-, more, others⟩ := asked
    have step := ih others
    rw [received_cons, List.length_append, List.length_cons]
    -- Only the last request may have brought nothing.
    cases rest with
    | nil => exact Nat.le_add_left _ _
    | cons next rest =>
      have some := List.length_pos_iff.mpr (more (List.cons_ne_nil _ _))
      omega

end

/-- A page that an answer shows is had, and what leads on from it is told by its entries and their
total. -/
theorem page_shown {l : Listing s} {offset : Nat} {r : Response} {values : List Json}
    {entries : List (Datum s)} {total : Option UInt64} (shows : r.Shows values total)
    (areEntries : List.Forall₂ (Json.IsEntry s) values entries) : ∃ marker,
    (l.page (.offset offset)).outcome (some r) = .ok ⟨entries,
      (Cursor.offset offset).after entries.length (total.map UInt64.toNat) marker⟩ := by
  -- Whatever marker the answer has beside them, it is not asked for a listing by offsets.
  obtain ⟨marker, read⟩ := shows.datum_ok areEntries
  exact ⟨marker, page_of_datum shows.success read⟩

/-- Where pages are answered as they should be, every entry from some place on is gathered. -/
theorem complete_gatherFrom {l : Listing s} {transport : Transport σ} {all : List Json}
    {entries : List (Datum s)} (served : l.IsServedBy transport all)
    (areEntries : List.Forall₂ (Json.IsEntry s) all entries) {pages offset : Nat}
    (inside : offset ≤ all.length) (many : all.length < offset + pages) (world : σ) :
    (l.gatherFrom transport (fun _ => false) pages (some (.offset offset)) (entries.take offset)
      world).1 = .complete entries := by
  -- What is gathered are always the entries before the place asked for, and each page adds some.
  induction pages generalizing offset world with
  | zero => omega
  | succ pages ih =>
    obtain ⟨r, block, total, answered, shows, isPrefix, nonempty, totals⟩ :=
      served (l.page (.offset offset)).request world offset (l.asksFor_page offset)
    have length := areEntries.length_eq
    -- The entries of the page are those that follow the ones gathered so far.
    have blockIs := List.prefix_iff_eq_take.mp isPrefix
    have bound : block.length ≤ all.length - offset := by
      rw [← List.length_drop]
      exact isPrefix.length_le
    have blockEntries : List.Forall₂ (Json.IsEntry s) block
        ((entries.drop offset).take block.length) := by
      have taken := List.forall₂_take block.length (List.forall₂_drop offset areEntries)
      rwa [← blockIs] at taken
    obtain ⟨marker, outcome⟩ := page_shown (l := l) shows blockEntries
    have ran := Call.run_ok (l.page (.offset offset)) answered outcome
    rw [gatherFrom_ok l ran, addUntil_false, if_neg Bool.false_ne_true, ← List.take_add,
      ← blockEntries.length_eq, Cursor.after]
    by_cases last : (block.length = 0 || (total.map UInt64.toNat).any
        (· ≤ offset + block.length)) = true
    · rw [if_pos last, gatherFrom_none, List.take_of_length_le]
      rw [← length]
      -- The listing ends at a page without entries or when there are as many as the total says.
      rcases Bool.or_eq_true_iff.mp last with empty | reached
      · have empty : block = [] := List.length_eq_zero_iff.mp (of_decide_eq_true empty)
        have notInside : ¬offset < all.length := fun more => nonempty more empty
        omega
      · rw [Option.any_map] at reached
        obtain ⟨n, same, reached⟩ := (Option.any_eq_true _ _).mp reached
        have enough : n.toNat ≤ offset + block.length := of_decide_eq_true reached
        rw [totals n same] at enough
        exact enough
    · rw [if_neg last]
      -- A page that leads on has entries, so fewer pages are left to do.
      have some : block.length ≠ 0 := fun empty => last (by simp [empty])
      exact ih (by omega) (by omega) _

/-- A listing with counted pages is collected as it is. Where every page starts at its place and is
not empty before the end, and no total is wrong, all entries are collected, each of them once and in
their order. And whatever is answered, each request asks for the page that follows the entries
received before it, no two for the same one, so that there is at most one more of them than of the
entries. The entries are those that a walk gives out one by one. -/
theorem collect_counted (l : Listing s) (counted : l.paging = .counted) (transport : Transport σ)
    (world : σ) (pages : Nat) :
    let run := l.collect transport.traced pages (world, [])
    let offset := fun i => (received s (run.2.2.take i)).length
    (∀ all entries, List.Forall₂ (Json.IsEntry s) all entries → l.IsServedBy transport all →
      all.length < pages → run.1 = .complete entries) ∧
    (∀ i (inside : i < run.2.2.length), run.2.2[i].request.AsksFor l (offset i)) ∧
    (∀ i j, i < j → j < run.2.2.length → offset i < offset j) ∧
    run.2.2.length ≤ (received s run.2.2).length + 1 ∧
    (run.1 ≠ .short → l.walk.Drains transport.traced (world, []) [] run.1 run.2) := by
  intro run offset
  have start : l.first = .offset 0 := by rw [first, counted, Paging.first]
  have runIs : run = l.gatherFrom transport.traced (fun _ => false) pages (some (.offset 0)) []
      (world, []) := by
    rw [← start]
    rfl
  -- Nothing was recorded before, so the record is that of the pages asked for from the start.
  obtain ⟨record, recorded, asked⟩ :=
    asked_gatherFrom l transport (fun _ => false) pages 0 [] world []
  rw [← runIs, List.nil_append] at recorded
  refine ⟨fun all entries areEntries served many => ?_, fun i inside => ?_, ?_, ?_, ?_⟩
  · -- What is kept in a record does not matter to the answers.
    have servedTraced : l.IsServedBy transport.traced all := fun request world offset asks =>
      served request world.1 offset asks
    rw [runIs]
    exact complete_gatherFrom servedTraced areEntries (Nat.zero_le _) (by omega) _
  · simp only [offset, recorded] at inside ⊢
    have asks := asked.asksFor i inside
    rwa [Nat.zero_add] at asks
  · intro i j later inside
    simp only [offset, recorded] at inside ⊢
    exact asked.received_lt later inside
  · rw [recorded]
    exact asked.length_le
  · exact drains_of_gatherFrom rfl

/-- The pages of two letters, without a total. -/
def letterPage : Nat → String
  | 0 => "\x7b\"entries\":[\"a\"]\x7d"
  | 1 => "\x7b\"entries\":[\"b\"],\"total_count\":null\x7d"
  | _ => "\x7b\x7d"

/-- A transport that answers with the letters from the place that is asked for. -/
def letterTransport : Transport Unit where
  exchange request _ :=
    let place := (request.url.queryPairs.getLast?.map Prod.snd).getD ""
    (some (.carrying (letterPage (digitsValue place.toList))), ())

/-- A listing of letters. -/
def letters : Listing (.leaf .text) where
  connection := ⟨root, root, "", "", 60⟩
  url := root
  limit := 100
  paging := .counted
where
  root : Url := ⟨"https".toList, none, .segments [[]], none, none⟩

/-- Each letter is answered at its place. -/
theorem letters_isServedBy : letters.IsServedBy letterTransport [.text "a", .text "b"] := by
  intro request world offset asks
  -- The page that is answered depends on the place only.
  have answered : (letterTransport.exchange request world).1 =
      some (.carrying (letterPage offset)) := by
    simp [letterTransport, asks.place]
  rw [answered]
  -- There is a page with each of the letters, and one without any after them.
  rcases offset with _ | _ | offset
  · have shows : (Response.carrying (letterPage 0)).Shows [.text "a"] none :=
      .carrying (Members.distinct_singleton "entries" (.array [.text "a"])) (by cbv) (by cbv) rfl
        rfl rfl
    exact ⟨_, _, _, rfl, shows, ⟨_, rfl⟩, fun _ => List.cons_ne_nil _ _,
      fun _ given => by cases given⟩
  · have distinct : Members.Distinct [("entries", .array [.text "b"]), ("total_count", .null)] := by
      simp [Members.Distinct]
    have shows : (Response.carrying (letterPage 1)).Shows [.text "b"] none :=
      .carrying distinct (by cbv) (by cbv) rfl rfl rfl
    exact ⟨_, _, _, rfl, shows, ⟨_, rfl⟩, fun _ => List.cons_ne_nil _ _,
      fun _ given => by cases given⟩
  · have shows : (Response.carrying "\x7b\x7d").Shows [] none :=
      have distinct : Members.Distinct [] := List.nodup_nil
      .carrying distinct (by cbv) (by cbv) rfl rfl rfl
    exact ⟨_, _, _, rfl, shows, List.nil_prefix, fun inside => absurd inside (by simp),
      fun _ given => by cases given⟩

/-- Two letters that come on pages of their own are collected. -/
theorem collect_letters :
    (letters.collect letterTransport.traced 3 ((), [])).1 =
      .complete [.leaf (l := .text) "a", .leaf (l := .text) "b"] :=
  -- Three requests are allowed: one for each letter, and one for the page that is empty.
  (collect_counted letters rfl letterTransport () 3).1 [.text "a", .text "b"] _
    (.cons rfl (.cons rfl .nil)) letters_isServedBy (by decide)

end Listing

end ContentApi
