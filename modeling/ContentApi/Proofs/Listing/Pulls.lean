import ContentApi.Http.Script
import ContentApi.Proofs.Listing.Pages
import Mathlib

/-! A walk fetches a page only when an entry of it is asked for, and none once it has ended. -/

namespace ContentApi

variable {s : Shape} {σ : Type} {transport : Transport σ}

/-- A call adds its request to those that are recorded. -/
theorem Call.request_traced {α : Type} {call : Call α} {state after : σ × List Exchange}
    {outcome : Except Failure α} (ran : call.run transport.traced state = (outcome, after)) :
    after.2.map Exchange.request = state.2.map Exchange.request ++ [call.request] := by
  rw [Call.run_traced] at ran
  -- The traced run ends with one exchange more, which holds the request.
  cases ran
  rw [List.map_append, List.map_singleton]

/-- What a listing comes to by the answers that its requests get. -/
structure Course (s : Shape) where
  /-- The requests for its pages, with the one for a page that was not had. -/
  requests : List Request
  /-- The entries of each page that was had. -/
  pages : List (List (Datum s))
  /-- Why the last page was not had, if the listing ends so. -/
  failure : Option Failure

namespace Course

/-- The entries of all pages that were had, in their order. -/
def entries (course : Course s) : List (Datum s) := course.pages.flatten

/-- What comes behind the last entry. -/
def ending (course : Course s) : Found s :=
  match course.failure with
  | some failure => .failed failure
  | none => .ended

/-- What the pull of a given number comes to: an entry, then how the listing ends, then nothing. -/
def item (course : Course s) (pull : Nat) : Found s :=
  match course.entries[pull]? with
  | some entry => .entry entry
  | none => if pull = course.entries.length then course.ending else .ended

end Course

/-- The course of a listing from a cursor on, where its requests get the given answers one after
another, and none after them. -/
def Listing.course (l : Listing s) : Option Cursor → List (Option Response) → Course s
  | none, _ => ⟨[], [], none⟩
  | some cursor, [] => ⟨[(l.page cursor).request], [], some .transport⟩
  | some cursor, answer :: rest =>
    match (l.page cursor).outcome answer with
    | .error failure => ⟨[(l.page cursor).request], [], some failure⟩
    | .ok page =>
      let later := l.course page.next rest
      ⟨(l.page cursor).request :: later.requests, page.entries :: later.pages, later.failure⟩

section

variable {l : Listing s} {cursor : Cursor} {answer : Option Response}
  {rest : List (Option Response)}

/-- Where nothing leads on, nothing is asked for. -/
theorem Listing.course_none (answers : List (Option Response)) :
    l.course none answers = ⟨[], [], none⟩ := by
  cases answers <;> rfl

/-- A page that is not had ends the course of a listing. -/
theorem Listing.course_error {failure : Failure}
    (outcome : (l.page cursor).outcome answer = .error failure) :
    l.course (some cursor) (answer :: rest) =
      ⟨[(l.page cursor).request], [], some failure⟩ := by
  rw [course, outcome]

/-- The course of a listing goes on behind a page that is had. -/
theorem Listing.course_ok {page : Page s} (outcome : (l.page cursor).outcome answer = .ok page) :
    l.course (some cursor) (answer :: rest) =
      ⟨(l.page cursor).request :: (l.course page.next rest).requests,
        page.entries :: (l.course page.next rest).pages, (l.course page.next rest).failure⟩ := by
  rw [course, outcome]

end

/-- Whether a transport gives some answers one after another to the requests for pages of a listing,
and none after them. -/
def Listing.IsPlayed (l : Listing s) (transport : Transport σ) :
    σ → List (Option Response) → Prop
  | world, [] => ∀ cursor, (transport.exchange (l.page cursor).request world).1 = none
  | world, answer :: rest => ∀ cursor,
    (transport.exchange (l.page cursor).request world).1 = answer ∧
      l.IsPlayed transport (transport.exchange (l.page cursor).request world).2 rest

/-- What a walk comes to when an entry is asked for again and again, each time with as many pages as
may be fetched for one. -/
def Walk.pulls (transport : Transport σ) (allowed : Nat) :
    Nat → Walk s → σ → List (Found s) × Walk s × σ
  | 0, w, world => ([], w, world)
  | pulls + 1, w, world =>
    let pulled := w.next transport allowed world
    let others := Walk.pulls transport allowed pulls pulled.2.1 pulled.2.2
    (pulled.1 :: others.1, others.2)

/-- How many of some pages are fetched for a number of entries, where one page more is asked for if
they do not suffice. -/
def pagesFor {α : Type} : Nat → List (List α) → Nat
  | 0, _ => 0
  | _ + 1, [] => 1
  | pulls + 1, page :: rest => pagesFor (pulls + 1 - page.length) rest + 1

/-- As few pages are fetched as have the entries that are asked for. -/
theorem isLeast_pagesFor {α : Type} {pulls : Nat} {pages : List (List α)}
    (enough : pulls ≤ pages.flatten.length) :
    IsLeast {n | pulls ≤ (pages.take n).flatten.length} (pagesFor pulls pages) := by
  -- A page that is fetched leaves fewer entries to ask the other pages for.
  induction pages generalizing pulls with
  | nil =>
    cases Nat.le_zero.mp enough
    exact ⟨Nat.zero_le _, fun _ _ => Nat.zero_le _⟩
  | cons page rest ih =>
    cases pulls with
    | zero => exact ⟨Nat.zero_le _, fun _ _ => Nat.zero_le _⟩
    | succ pulls =>
      rw [List.flatten_cons, List.length_append] at enough
      obtain ⟨inside, least⟩ := @ih (pulls + 1 - page.length) (by omega)
      have others : pulls + 1 - page.length ≤ (rest.take (pagesFor _ rest)).flatten.length := inside
      constructor
      -- This page and those for what it lacks suffice, and no fewer do.
      · show pulls + 1 ≤ _
        rw [pagesFor, List.take_succ_cons, List.flatten_cons, List.length_append]
        omega
      · intro n taken
        have taken : pulls + 1 ≤ ((page :: rest).take n).flatten.length := taken
        cases n with
        | zero => simp at taken
        | succ n =>
          rw [List.take_succ_cons, List.flatten_cons, List.length_append] at taken
          have later : pulls + 1 - page.length ≤ (rest.take n).flatten.length := by omega
          exact Nat.succ_le_succ (least later)

/-- For more entries than there are, one page more is asked for than there are. -/
theorem pagesFor_of_lt {α : Type} {pulls : Nat} {pages : List (List α)}
    (more : pages.flatten.length < pulls) : pagesFor pulls pages = pages.length + 1 := by
  induction pages generalizing pulls with
  | nil =>
    -- No entry is never more than there are, so that one pull at least is left.
    cases pulls with
    | zero => cases more
    | succ pulls => rfl
  | cons page rest ih =>
    rw [List.flatten_cons, List.length_append] at more
    cases pulls with
    | zero => omega
    | succ pulls => rw [pagesFor, ih (by omega), List.length_cons]

section

variable {l : Listing s} {world : σ}

/-- Where no answer is left, no page is had. -/
theorem Listing.IsPlayed.run_page_nil (played : l.IsPlayed transport world []) (cursor : Cursor) :
    (l.page cursor).run transport world =
      (.error .transport, (transport.exchange (l.page cursor).request world).2) := by
  -- A script that is used up answers nothing, which is a failure of the transport.
  rw [Call.run, played cursor]
  rfl

/-- The next answer decides about a page, and the others are left for those after it. -/
theorem Listing.IsPlayed.run_page {answer : Option Response} {rest : List (Option Response)}
    (played : l.IsPlayed transport world (answer :: rest)) (cursor : Cursor) :
    ∃ after, (l.page cursor).run transport world = ((l.page cursor).outcome answer, after) ∧
      l.IsPlayed transport after rest := by
  -- What answers now is played, and so is what answers afterwards.
  obtain ⟨given, later⟩ := played cursor
  exact ⟨_, by rw [Call.run, given], later⟩

end

namespace Walk

section

variable {l : Listing s} {cursor : Option Cursor} {buffer : List (Datum s)} {world : σ}
  {allowed pulls : Nat}

/-- An entry that was fetched is given out before anything else is asked for. -/
theorem next_buffered (entry : Datum s) :
    next transport allowed ⟨l, entry :: buffer, cursor⟩ world =
      (.entry entry, ⟨l, buffer, cursor⟩, world) := by
  rw [next]

/-- A walk that has nothing left stays as it is. -/
theorem next_ended :
    next transport allowed ⟨l, [], none⟩ world = (.ended, ⟨l, [], none⟩, world) := by
  rw [next]

/-- A page that is not had ends a walk. -/
theorem next_failed {cursor : Cursor} {after : σ} {failure : Failure}
    (ran : (l.page cursor).run transport world = (.error failure, after)) :
    next transport (allowed + 1) ⟨l, [], some cursor⟩ world =
      (.failed failure, ⟨l, [], none⟩, after) := by
  -- Nothing is buffered, so that the page is fetched first.
  rw [next]
  simp only [ran]

/-- A page that is had is walked through. -/
theorem next_fetched {cursor : Cursor} {after : σ} {page : Page s}
    (ran : (l.page cursor).run transport world = (.ok page, after)) :
    next transport (allowed + 1) ⟨l, [], some cursor⟩ world =
      next transport allowed ⟨l, page.entries, page.next⟩ after := by
  -- The entries of the page are the buffer of the walk that goes on.
  rw [next]
  simp only [ran]

/-- A walk through what it has fetched goes on where that ends. -/
theorem pulls_buffered (transport : Transport σ) (allowed pulls : Nat) (l : Listing s)
    (buffer : List (Datum s)) (cursor : Option Cursor) (world : σ) :
    (Walk.pulls transport allowed pulls ⟨l, buffer, cursor⟩ world).1 =
      (buffer.take pulls).map .entry ++
        (Walk.pulls transport allowed (pulls - buffer.length) ⟨l, [], cursor⟩ world).1 ∧
    (Walk.pulls transport allowed pulls ⟨l, buffer, cursor⟩ world).2.2 =
      (Walk.pulls transport allowed (pulls - buffer.length) ⟨l, [], cursor⟩ world).2.2 := by
  -- The induction is on the buffer, of which each pull takes one entry.
  induction buffer generalizing pulls with
  | nil => simp
  | cons entry rest ih =>
    cases pulls with
    | zero => simp [Walk.pulls]
    | succ pulls =>
      obtain ⟨found, later⟩ := @ih pulls
      simp [Walk.pulls, next_buffered, found, later]

/-- A walk that has nothing left is at its end however often it is asked. -/
theorem pulls_ended : Walk.pulls transport allowed pulls ⟨l, [], none⟩ world =
    (List.replicate pulls .ended, ⟨l, [], none⟩, world) := by
  -- The induction is on the pulls, none of which finds anything to fetch.
  induction pulls with
  | zero => rfl
  | succ pulls ih => rw [Walk.pulls, next_ended, ih, List.replicate_succ]

/-- Under a played transport it does not matter how many pages may be fetched, if there are more of
them than answers. -/
theorem next_of_played {answers : List (Option Response)} {more : Nat}
    (played : l.IsPlayed transport world answers) (enough : answers.length < allowed)
    (enoughMore : answers.length < more) :
    next transport allowed ⟨l, buffer, cursor⟩ world =
      next transport more ⟨l, buffer, cursor⟩ world := by
  -- Each page that is fetched takes up one answer, and the walk ends where none is left.
  induction answers generalizing buffer cursor world allowed more with
  | nil =>
    cases buffer with
    | cons entry rest => rw [next_buffered, next_buffered]
    | nil =>
      cases cursor with
      | none => rw [next_ended, next_ended]
      | some cursor =>
        obtain ⟨allowed, rfl⟩ := Nat.exists_eq_add_one.mpr enough
        obtain ⟨more, rfl⟩ := Nat.exists_eq_add_one.mpr enoughMore
        rw [next_failed (played.run_page_nil cursor), next_failed (played.run_page_nil cursor)]
  | cons answer rest ih =>
    cases buffer with
    | cons entry rest => rw [next_buffered, next_buffered]
    | nil =>
      cases cursor with
      | none => rw [next_ended, next_ended]
      | some cursor =>
        obtain ⟨allowed, rfl⟩ := Nat.exists_eq_add_one.mpr (Nat.zero_lt_of_lt enough)
        obtain ⟨more, rfl⟩ := Nat.exists_eq_add_one.mpr (Nat.zero_lt_of_lt enoughMore)
        obtain ⟨after, ran, later⟩ := played.run_page cursor
        cases outcome : (l.page cursor).outcome answer with
        | error failure =>
          rw [outcome] at ran
          rw [next_failed ran, next_failed ran]
        | ok page =>
          rw [outcome] at ran
          rw [next_fetched ran, next_fetched ran]
          exact ih later (Nat.lt_of_succ_lt_succ enough) (Nat.lt_of_succ_lt_succ enoughMore)

/-- A walk that fails says so once, and has nothing left then. -/
theorem pulls_failed {cursor : Cursor} {after : σ} {failure : Failure}
    (ran : (l.page cursor).run transport world = (.error failure, after)) (fetches : 0 < allowed) :
    Walk.pulls transport allowed (pulls + 1) ⟨l, [], some cursor⟩ world =
      (.failed failure :: List.replicate pulls .ended, ⟨l, [], none⟩, after) := by
  -- One fetch is enough for the page that is not had.
  obtain ⟨fewer, rfl⟩ := Nat.exists_eq_add_one.mpr fetches
  rw [Walk.pulls, next_failed ran, pulls_ended]

/-- A walk that is asked for something goes on in the page that it fetches. -/
theorem pulls_fetched {answers : List (Option Response)} {cursor : Cursor} {after : σ}
    {page : Page s} (ran : (l.page cursor).run transport world = (.ok page, after))
    (played : l.IsPlayed transport after answers) (enough : answers.length + 1 < allowed) :
    Walk.pulls transport allowed (pulls + 1) ⟨l, [], some cursor⟩ world =
      Walk.pulls transport allowed (pulls + 1) ⟨l, page.entries, page.next⟩ after := by
  obtain ⟨fewer, rfl⟩ := Nat.exists_eq_add_one.mpr (Nat.zero_lt_of_lt enough)
  -- The first pull may fetch one page less now, which is still enough.
  have first : next transport (fewer + 1) ⟨l, [], some cursor⟩ world =
      next transport (fewer + 1) ⟨l, page.entries, page.next⟩ after := by
    rw [next_fetched ran]
    exact next_of_played played (Nat.lt_of_succ_lt_succ enough) (by omega)
  rw [Walk.pulls, first, Walk.pulls]

end

end Walk

namespace Course

variable {requests : List Request} {page : List (Datum s)} {pages : List (List (Datum s))}
  {failure : Option Failure}

/-- An entry of the first page comes first. -/
theorem item_of_lt {pull : Nat} (here : pull < page.length) :
    item ⟨requests, page :: pages, failure⟩ pull = .entry page[pull] := by
  -- The entries of all pages begin with those of the first one.
  have found : (entries ⟨requests, page :: pages, failure⟩)[pull]? = some page[pull] := by
    rw [entries, List.flatten_cons, List.getElem?_append_left here, List.getElem?_eq_getElem here]
  rw [item, found]

/-- Behind the entries of the first page comes what the other pages come to. -/
theorem item_add (later : List Request) (pull : Nat) :
    item ⟨requests, page :: pages, failure⟩ (page.length + pull) =
      item ⟨later, pages, failure⟩ pull := by
  -- The end of what is behind the page is the end of the whole, moved by its length.
  have place : page.length + pull = (page ++ pages.flatten).length ↔
      pull = pages.flatten.length := by
    rw [List.length_append, Nat.add_left_cancel_iff]
  simp only [item, entries, ending, List.flatten_cons, place,
    List.getElem?_append_right (Nat.le_add_right _ _), Nat.add_sub_cancel_left]
  rfl

/-- What some pulls come to are entries of the first page and then what the other pages come to. -/
theorem items_cons (later : List Request) (pulls : Nat) :
    (List.range pulls).map (item ⟨requests, page :: pages, failure⟩) =
      (page.take pulls).map .entry ++
        (List.range (pulls - page.length)).map (item ⟨later, pages, failure⟩) := by
  -- The pulls are split where the first page is used up, or all of them are for it.
  have split : List.range pulls = List.range (min pulls page.length) ++
      (List.range (pulls - page.length)).map (min pulls page.length + ·) := by
    rw [← List.range_add]
    exact congrArg _ (by omega)
  have front : (List.range (min pulls page.length)).map
      (item ⟨requests, page :: pages, failure⟩) = (page.take pulls).map .entry := by
    apply List.ext_getElem
    · simp
    intro i inside _
    have here : i < page.length := by simp at inside; omega
    rw [List.getElem_map, List.getElem_range, item_of_lt here, List.getElem_map, List.getElem_take]
  rw [split, List.map_append, front, List.map_map]
  -- There are pulls left for the other pages only if the first one is used up.
  refine congrArg _ (List.map_congr_left fun i inside => ?_)
  have whole : min pulls page.length = page.length := by
    have some := List.mem_range.mp inside
    omega
  rw [Function.comp, whole, item_add later]

/-- Where there are no pages, the first pull comes to the end and all others to nothing. -/
theorem items_nil (pulls : Nat) :
    (List.range (pulls + 1)).map (item (s := s) ⟨requests, [], failure⟩) =
      ending (s := s) ⟨requests, [], failure⟩ :: List.replicate pulls .ended := by
  -- The first pull is told apart from those behind it, which all find nothing.
  rw [List.range_succ_eq_map, List.map_cons, List.map_map]
  refine congrArg₂ List.cons rfl (List.eq_replicate_iff.mpr ⟨by simp, fun found member => ?_⟩)
  obtain ⟨i, -, rfl⟩ := List.mem_map.mp member
  rfl

end Course

/-- Whether some pulls come to what a course says, by the requests for just the pages that they
need, which are added to a record. -/
def Course.IsPulled (course : Course s) (record : List Exchange) (pulls : Nat)
    (run : List (Found s) × Walk s × σ × List Exchange) : Prop :=
  run.1 = (List.range pulls).map course.item ∧
    run.2.2.2.map Exchange.request =
      record.map Exchange.request ++ course.requests.take (pagesFor pulls course.pages)

/-- A course without pages is pulled if its only request, if any, is made. -/
theorem Course.isPulled_of_no_pages {requests : List Request} {failure : Option Failure}
    {record after : List Exchange} {w : Walk s} {world : σ}
    (asked : after.map Exchange.request = record.map Exchange.request ++ requests.take 1)
    (pulls : Nat) : (⟨requests, [], failure⟩ : Course s).IsPulled record (pulls + 1)
      (ending ⟨requests, [], failure⟩ :: List.replicate pulls .ended, w, world, after) :=
  -- No entry is found, and the pages that are asked for are one at most.
  ⟨(items_nil pulls).symm, asked⟩

namespace Walk

section

variable {l : Listing s} {state : σ × List Exchange} {answers : List (Option Response)}
  {allowed : Nat}

/-- Before the first pull nothing is fetched. -/
theorem isPulled_zero (cursor : Option Cursor) :
    (l.course cursor answers).IsPulled state.2 0
      (Walk.pulls transport.traced allowed 0 ⟨l, [], cursor⟩ state) :=
  ⟨rfl, by simp [Walk.pulls, pagesFor]⟩

/-- Where nothing leads on, nothing is fetched. -/
theorem isPulled_none (pulls : Nat) :
    (l.course none answers).IsPulled state.2 pulls
      (Walk.pulls transport.traced allowed pulls ⟨l, [], none⟩ state) := by
  -- No pull fetches nothing, and the first one finds that nothing leads on.
  cases pulls with
  | zero => exact isPulled_zero none
  | succ pulls =>
    rw [Listing.course_none, pulls_ended]
    exact Course.isPulled_of_no_pages (by simp) pulls

/-- A page that is not had is asked for once. -/
theorem isPulled_error {cursor : Cursor} {after : σ × List Exchange} {failure : Failure}
    (ran : (l.page cursor).run transport.traced state = (.error failure, after))
    (fetches : 0 < allowed) (pulls : Nat) :
    (⟨[(l.page cursor).request], [], some failure⟩ : Course s).IsPulled state.2 (pulls + 1)
      (Walk.pulls transport.traced allowed (pulls + 1) ⟨l, [], some cursor⟩ state) := by
  rw [pulls_failed ran fetches]
  -- The one request is that of the page, and there are no entries before it.
  exact Course.isPulled_of_no_pages (Call.request_traced ran) pulls

/-- A walk that is played comes to what its course says, and fetches pages only as it comes to them.
-/
theorem isPulled_course (played : l.IsPlayed transport.traced state answers)
    (enough : answers.length < allowed) (cursor : Option Cursor) (pulls : Nat) :
    (l.course cursor answers).IsPulled state.2 pulls
      (Walk.pulls transport.traced allowed pulls ⟨l, [], cursor⟩ state) := by
  -- The induction is on the answers, each of which decides about one page.
  induction answers generalizing cursor pulls state with
  | nil =>
    rcases pulls with _ | pulls
    · exact isPulled_zero cursor
    rcases cursor with _ | cursor
    · exact isPulled_none _
    exact isPulled_error (played.run_page_nil cursor) enough pulls
  | cons answer rest ih =>
    rcases pulls with _ | pulls
    · exact isPulled_zero cursor
    rcases cursor with _ | cursor
    · exact isPulled_none _
    obtain ⟨after, ran, later⟩ := played.run_page cursor
    cases outcome : (l.page cursor).outcome answer with
    | error failure =>
      rw [outcome] at ran
      rw [Listing.course_error outcome]
      exact isPulled_error ran (Nat.zero_lt_of_lt enough) pulls
    | ok page =>
      rw [outcome] at ran
      -- What the page does not have is pulled from the pages after it.
      obtain ⟨found, asked⟩ := ih later (Nat.lt_of_succ_lt enough) page.next
        (pulls + 1 - page.entries.length)
      obtain ⟨buffered, world⟩ := pulls_buffered transport.traced allowed (pulls + 1) l page.entries
        page.next after
      rw [Listing.course_ok outcome, pulls_fetched ran later enough]
      refine ⟨?_, ?_⟩
      · rw [buffered, found, ← Course.items_cons]
      -- The request for this page stands in front of those for the pages after it.
      · rw [world, asked, Call.request_traced ran, pagesFor, List.take_succ_cons, List.append_assoc,
          List.singleton_append]

end

end Walk

/-- An answer as a script gives it, without what its status never carries. -/
def Response.delivered (response : Response) : Response :=
  if isBodiless response.status then { response with body := [] } else response

namespace Listing

variable {l : Listing s}

/-- What answers to requests does so while they are recorded too. -/
theorem IsPlayed.traced {world : σ} {answers : List (Option Response)}
    (played : l.IsPlayed transport world answers) (record : List Exchange) :
    l.IsPlayed transport.traced (world, record) answers := by
  -- The induction is on the answers, as recording leaves what answers as it is.
  induction answers generalizing world record with
  | nil => exact played
  | cons answer rest ih => exact fun cursor => ⟨(played cursor).1, ih (played cursor).2 _⟩

/-- Each page that was had was asked for once, and so was the one that was not. -/
theorem length_course (cursor : Option Cursor) (answers : List (Option Response)) :
    (l.course cursor answers).requests.length =
      (l.course cursor answers).pages.length +
        (if (l.course cursor answers).failure.isSome then 1 else 0) := by
  -- The induction is on the answers, each of which comes to a page or to the failure.
  induction answers generalizing cursor with
  | nil => cases cursor <;> rfl
  | cons answer rest ih =>
    cases cursor with
    | none => rfl
    | some cursor =>
      cases outcome : (l.page cursor).outcome answer with
      | error failure =>
        rw [course_error outcome]
        rfl
      | ok page =>
        simp only [course_ok outcome, List.length_cons, ih]
        omega

/-- A script is played to a listing whose address is in clear text, and no answer to any other. -/
theorem isPlayed_scripted (l : Listing s) (script : Script) :
    l.IsPlayed Transport.scripted script
      (if l.url.isPlain then script.answers.map (Option.map Response.delivered) else []) := by
  have address (cursor : Cursor) : (l.page cursor).request.url.isPlain = l.url.isPlain := rfl
  cases plain : l.url.isPlain with
  -- An address that is not in clear text is never answered, and the script stays as it is.
  | false =>
    intro cursor
    simp [Transport.scripted, address, plain]
  | true =>
    obtain ⟨answers, requests⟩ := script
    induction answers generalizing requests with
    | nil =>
      intro cursor
      simp [Transport.scripted, address, plain, Script.play]
    | cons answer rest ih =>
      intro cursor
      simp only [Transport.scripted, address, plain, if_true, Script.play]
      exact ⟨rfl, ih _⟩

/-- A listing is lazy. Pull by pull it gives out the entries of the pages that can be had, in their
order, then once the failure of the page that cannot, if there is one, and then nothing. For some
entries just as many pages are asked for as have them, and after the end or a failure none. -/
theorem pulls_lazy (l : Listing s) {transport : Transport σ} {world : σ}
    {answers : List (Option Response)} (played : l.IsPlayed transport world answers)
    {allowed : Nat} (enough : answers.length < allowed) (pulls : Nat) :
    let course := l.course (some l.first) answers
    let run := l.walk.pulls transport.traced allowed pulls (world, [])
    let requests := run.2.2.2.map Exchange.request
    run.1 = (List.range pulls).map course.item ∧
    (pulls ≤ course.entries.length → ∃ fetched,
      IsLeast {n | pulls ≤ (course.pages.take n).flatten.length} fetched ∧
        requests = course.requests.take fetched ∧ requests.length = fetched) ∧
    (course.entries.length < pulls → requests = course.requests) := by
  intro course run requests
  obtain ⟨found, asked⟩ :=
    Walk.isPulled_course (played.traced []) enough (some l.first) pulls
  have asked : requests = course.requests.take (pagesFor pulls course.pages) := asked
  have length : course.requests.length = course.pages.length +
      (if course.failure.isSome then 1 else 0) := l.length_course (some l.first) answers
  refine ⟨found, fun inside => ?_, fun beyond => ?_⟩
  · have least := isLeast_pagesFor inside
    refine ⟨_, least, asked, ?_⟩
    -- All pages together have the entries, so no more of them are needed.
    have bound : pagesFor pulls course.pages ≤ course.pages.length := by
      refine least.2 (show pulls ≤ _ from ?_)
      rwa [List.take_length]
    rw [asked, List.length_take]
    omega
  · rw [asked, pagesFor_of_lt beyond, List.take_of_length_le]
    rw [length]
    split <;> omega

/-- A page whose text is at fault is not had. -/
theorem page_of_fault {cursor : Cursor} {text : String} {fault : Fault}
    (notBlank : (trimChars text.toList).isEmpty = false)
    (unread : Datum.ofText (.record (.page s)) text = .error fault) :
    (l.page cursor).outcome (some (.carrying text)) = .error (.document fault) := by
  -- The fault is one of the document, and it is the same whichever way the page is asked for.
  have refused : (Response.carrying text).datum (.record (.page s)) = .error (.document fault) := by
    rw [Response.datum, Response.isBlank_carrying, Response.text_carrying, notBlank, unread]
    rfl
  show ((Response.carrying text).datum _).bind _ = _
  rw [refused]
  rfl

/-- A listing of letters in clear text. -/
def plainLetters : Listing (.leaf .text) where
  connection := ⟨root, root, "", "", 60⟩
  url := root
  limit := 2
  paging := .counted
where
  root : Url := ⟨"http".toList, none, .segments [[]], none, none⟩

/-- The text of a page with one letter. -/
def letterText : String := "\x7b\"entries\":[\"a\"]\x7d"

/-- The text of a page on which a number stands behind a letter. -/
def mixedText : String := "\x7b\"entries\":[\"b\",7]\x7d"

/-- A page of letters, then one with an entry that is none, and then another of letters. -/
def brokenScript : Script :=
  .ofAnswers ([letterText, mixedText, letterText].map fun text => some (.carrying text))

/-- The fault of a number where a letter should be. -/
def notALetter : Failure :=
  .document (.mismatch (.kind (.number (.integer 7)) "a string"))

/-- The number behind the letter is what is wrong with the page. -/
theorem ofText_mixedText : Datum.ofText (.record (.page (.leaf .text))) mixedText =
    .error (.mismatch (.kind (.number (.integer 7)) "a string")) := by
  -- The text is written out, so that the scanner and the reader are run by computing.
  have written : mixedText.toList = ['\x7b', '"', 'e', 'n', 't', 'r', 'i', 'e', 's', '"', ':', '[',
      '"', 'b', '"', ',', '7', ']', '\x7d'] := by decide
  rw [Datum.ofText, WholeText.scan, written]
  rfl

/-- Of the script one page is had, and the one behind it is not. -/
theorem course_brokenScript : plainLetters.course (some plainLetters.first)
    (brokenScript.answers.map (Option.map Response.delivered)) =
    ⟨[(plainLetters.page (.offset 0)).request, (plainLetters.page (.offset 1)).request],
      [[.leaf (l := .text) "a"]], some notALetter⟩ := by
  have shows : (Response.carrying letterText).Shows [.text "a"] none :=
    .carrying (Members.distinct_singleton "entries" (.array [.text "a"])) (by cbv) (by cbv) rfl
      rfl rfl
  obtain ⟨marker, read⟩ := shows.datum_ok (s := .leaf .text)
    (.cons (show Json.IsEntry (.leaf .text) (.text "a") (.leaf (l := .text) "a") from rfl) .nil)
  -- Without a total the first page leads on to where its entries end.
  have first : (plainLetters.page (.offset 0)).outcome (some (.carrying letterText)) =
      .ok ⟨[.leaf (l := .text) "a"], some (.offset 1)⟩ := page_of_datum rfl read
  have second : (plainLetters.page (.offset 1)).outcome (some (.carrying mixedText)) =
      .error notALetter := page_of_fault (by cbv) ofText_mixedText
  show plainLetters.course (some (.offset 0))
    (some (.carrying letterText) :: some (.carrying mixedText) :: _) = _
  rw [course_ok first]
  simp only [course_error second]

/-- The letter in front of a page that is at fault is given out, at the cost of one request. -/
theorem pulls_brokenScript :
    let run := fun pulls =>
      plainLetters.walk.pulls Transport.scripted.traced 4 pulls (brokenScript, [])
    (run 3).1 = [.entry (.leaf (l := .text) "a"), .failed notALetter, .ended] ∧
      (run 1).2.2.2.length = 1 ∧ (run 3).2.2.2.length = 2 := by
  intro run
  have played : plainLetters.IsPlayed Transport.scripted brokenScript _ :=
    plainLetters.isPlayed_scripted brokenScript
  rw [if_pos (by decide)] at played
  have pulled (pulls : Nat) := pulls_lazy plainLetters played (show _ < 4 by decide) pulls
  simp only [course_brokenScript] at pulled
  obtain ⟨found, -, all⟩ := pulled 3
  have last := congrArg List.length (all (by decide))
  obtain ⟨fetched, ⟨inside, least⟩, -, length⟩ := (pulled 1).2.1 (by decide)
  rw [List.length_map] at last length
  -- No page has no letter, and one page has one.
  have fetchedIs : fetched = 1 := by
    have atMost : fetched ≤ 1 := least (by decide)
    rcases Nat.le_one_iff_eq_zero_or_eq_one.mp atMost with rfl | same
    · cases (inside : 1 ≤ 0)
    · exact same
  exact ⟨found, length.trans fetchedIs, last⟩

end Listing

end ContentApi
