import ContentApi.Proofs.Listing.Pulls
import ContentApi.Proofs.Listing.Walks

/-! A listing of which so many entries are enough fetches as few pages as have them. -/

namespace ContentApi

variable {s : Shape} {σ : Type} {transport : Transport σ}

section

variable {α : Type} {enough other : Nat → Bool} {gathered entries : List α}

/-- Of entries that come to a number just those are added that are missing to it. -/
theorem addUntil_of_reached {n : Nat} (missing : gathered.length < n)
    (reached : n ≤ gathered.length + entries.length) :
    addUntil (fun count => decide (n ≤ count)) gathered entries =
      (gathered ++ entries.take (n - gathered.length), true) := by
  -- Each entry that is added leaves one less missing.
  induction entries generalizing gathered with
  | nil =>
    rw [List.length_nil] at reached
    omega
  | cons entry rest ih =>
    have lengthens : (gathered ++ [entry]).length = gathered.length + 1 := by simp
    rw [List.length_cons] at reached
    obtain ⟨more, count⟩ : ∃ more, n - gathered.length = more + 1 :=
      ⟨n - gathered.length - 1, by omega⟩
    rw [addUntil, count, List.take_succ_cons, List.append_cons gathered entry (rest.take more)]
    by_cases here : n ≤ (gathered ++ [entry]).length
    · -- This entry is the last one that is missing.
      have last : more = 0 := by omega
      rw [if_pos (by simpa using here), last, List.take_zero, List.append_nil]
    · have others : n - (gathered ++ [entry]).length = more := by omega
      rw [if_neg (by simpa using here), ih (by omega) (by omega), others]

/-- Whether no entry is enough does not matter, as each addition comes to one at least. -/
theorem addUntil_congr (same : ∀ count, 0 < count → enough count = other count) :
    addUntil enough gathered entries = addUntil other gathered entries := by
  -- Whether there are enough is asked after an entry was added, so never of an empty list.
  induction entries generalizing gathered with
  | nil => rw [addUntil, addUntil]
  | cons entry rest ih =>
    rw [addUntil, addUntil, same _ (by simp), ih]

/-- More entries are added behind others unless those were enough. -/
theorem addUntil_append (later : List α) :
    addUntil enough gathered (entries ++ later) =
      if (addUntil enough gathered entries).2 then addUntil enough gathered entries
      else addUntil enough (addUntil enough gathered entries).1 later := by
  -- The first entry with which there are enough ends both additions.
  induction entries generalizing gathered with
  | nil => rfl
  | cons entry rest ih =>
    rw [List.cons_append, addUntil, addUntil]
    by_cases here : enough (gathered ++ [entry]).length = true
    · rw [if_pos here, if_pos here, if_pos rfl]
    · rw [if_neg here, if_neg here, ih]

/-- How many pages are asked for until there are entries enough, where one page more is asked for if
there never are. -/
def pagesUntil (enough : Nat → Bool) : List α → List (List α) → Nat
  | _, [] => 1
  | gathered, page :: rest =>
    if (addUntil enough gathered page).2 then 1
    else pagesUntil enough (addUntil enough gathered page).1 rest + 1

/-- All pages and one more are asked for if none of the numbers that are come to is enough. -/
theorem pagesUntil_of_short {pages : List (List α)}
    (short : ∀ count, gathered.length < count →
      count ≤ gathered.length + pages.flatten.length → enough count = false) :
    pagesUntil enough gathered pages = pages.length + 1 := by
  induction pages generalizing gathered with
  | nil => rfl
  | cons page rest ih =>
    rw [List.flatten_cons, List.length_append] at short
    -- The page alone never comes to a number that is enough.
    have whole : addUntil enough gathered page = (gathered ++ page, false) :=
      addUntil_of_short fun count more fewer => short count more (by omega)
    have lengthens : (gathered ++ page).length = gathered.length + page.length := by simp
    have others : pagesUntil enough (gathered ++ page) rest = rest.length + 1 :=
      ih fun count more fewer => short count (by omega) (by omega)
    rw [pagesUntil, whole, if_neg Bool.false_ne_true, others, List.length_cons]

/-- For a number of entries just the pages are asked for that have those which are missing to it. -/
theorem pagesUntil_of_number {n : Nat} (missing : gathered.length < n) (pages : List (List α)) :
    pagesUntil (fun count => decide (n ≤ count)) gathered pages =
      pagesFor (n - gathered.length) pages := by
  -- What a page has is no longer missing when the next one is asked for.
  induction pages generalizing gathered with
  | nil =>
    obtain ⟨more, count⟩ : ∃ more, n - gathered.length = more + 1 :=
      ⟨n - gathered.length - 1, by omega⟩
    rw [count]
    rfl
  | cons page rest ih =>
    obtain ⟨more, count⟩ : ∃ more, n - gathered.length = more + 1 :=
      ⟨n - gathered.length - 1, by omega⟩
    rw [pagesUntil, count, pagesFor]
    by_cases reached : n ≤ gathered.length + page.length
    · have enough : more + 1 - page.length = 0 := by omega
      rw [addUntil_of_reached missing reached, if_pos rfl, enough, pagesFor]
    · have whole : addUntil (fun count => decide (n ≤ count)) gathered page =
          (gathered ++ page, false) :=
        addUntil_of_short fun count _ fewer => decide_eq_false (by omega)
      have lengthens : (gathered ++ page).length = gathered.length + page.length := by simp
      have others : pagesUntil (fun count => decide (n ≤ count)) (gathered ++ page) rest =
          pagesFor (n - (gathered ++ page).length) rest := ih (by omega)
      have left : n - (gathered ++ page).length = more + 1 - page.length := by omega
      rw [whole, if_neg Bool.false_ne_true, others, left]

end

namespace Course

/-- What comes of gathering the entries of a course behind others until there are enough. -/
def gathered (course : Course s) (enough : Nat → Bool) (before : List (Datum s)) :
    Outcome (List (Datum s)) :=
  let added := addUntil enough before course.entries
  if added.2 then .complete added.1
  else
    match course.failure with
    | some failure => .failed failure
    | none => .complete added.1

/-- Whether a run of a listing gathers what its course has until there is enough of it, by the
requests for just the pages that it takes, which are added to a record. -/
def IsGathered (course : Course s) (enough : Nat → Bool) (before : List (Datum s))
    (record : List Exchange) (run : Outcome (List (Datum s)) × σ × List Exchange) : Prop :=
  run.1 = course.gathered enough before ∧
    run.2.2.map Exchange.request = record.map Exchange.request ++
      course.requests.take (pagesUntil enough before course.pages)

/-- Behind a page with entries that are not enough, gathering goes on. -/
theorem gathered_cons {enough : Nat → Bool} {before page : List (Datum s)}
    (requests later : List Request) (pages : List (List (Datum s))) (failure : Option Failure)
    (short : (addUntil enough before page).2 = false) :
    gathered ⟨requests, page :: pages, failure⟩ enough before =
      gathered ⟨later, pages, failure⟩ enough (addUntil enough before page).1 := by
  -- What is added to in two steps is enough behind the first one only if that is.
  simp only [gathered, entries, List.flatten_cons, addUntil_append, short, Bool.false_eq_true,
    if_false]
  rfl

/-- A page with entries that are enough is the last one that counts. -/
theorem gathered_of_enough {enough : Nat → Bool} {before page : List (Datum s)}
    (requests : List Request) (pages : List (List (Datum s))) (failure : Option Failure)
    (reached : (addUntil enough before page).2 = true) :
    gathered ⟨requests, page :: pages, failure⟩ enough before =
      .complete (addUntil enough before page).1 := by
  -- Once there are enough, the pages behind are not looked at.
  simp only [gathered, entries, List.flatten_cons, addUntil_append, reached, if_true]

end Course

namespace Listing

section

variable {l : Listing s} {enough other : Nat → Bool} {pages : Nat} {cursor : Option Cursor}
  {answers : List (Option Response)} {before : List (Datum s)} {state : σ × List Exchange}

/-- Where nothing leads on, what was gathered before is all there is. -/
theorem isGathered_none :
    (l.course none answers).IsGathered enough before state.2
      (l.gatherFrom transport.traced enough pages none before state) := by
  rw [gatherFrom_none, course_none]
  exact ⟨rfl, by simp⟩

/-- A page that is not had is asked for once. -/
theorem isGathered_error {cursor : Cursor} {after : σ × List Exchange} {failure : Failure}
    (ran : (l.page cursor).run transport.traced state = (.error failure, after)) :
    (⟨[(l.page cursor).request], [], some failure⟩ : Course s).IsGathered enough before state.2
      (l.gatherFrom transport.traced enough (pages + 1) (some cursor) before state) := by
  -- Nothing is gathered from a page that is not had, and the trace has its one request.
  rw [gatherFrom_error l ran]
  exact ⟨rfl, Call.request_traced ran⟩

/-- Gathering from a listing that is played comes to what its course says. -/
theorem isGathered_course (played : l.IsPlayed transport.traced state answers)
    (sufficient : answers.length < pages) :
    (l.course cursor answers).IsGathered enough before state.2
      (l.gatherFrom transport.traced enough pages cursor before state) := by
  -- The induction is on the answers, each of which decides about one page.
  induction answers generalizing pages cursor before state with
  | nil =>
    obtain ⟨pages, rfl⟩ := Nat.exists_eq_add_one.mpr sufficient
    rcases cursor with _ | cursor
    · exact isGathered_none
    exact isGathered_error (played.run_page_nil cursor)
  | cons answer rest ih =>
    obtain ⟨pages, rfl⟩ := Nat.exists_eq_add_one.mpr (Nat.zero_lt_of_lt sufficient)
    rcases cursor with _ | cursor
    · exact isGathered_none
    obtain ⟨after, ran, later⟩ := played.run_page cursor
    cases outcome : (l.page cursor).outcome answer with
    | error failure =>
      rw [outcome] at ran
      rw [course_error outcome]
      exact isGathered_error ran
    | ok page =>
      rw [outcome] at ran
      have asked := Call.request_traced ran
      rw [gatherFrom_ok l ran, course_ok outcome]
      cases reached : (addUntil enough before page.entries).2 with
      | true =>
        refine ⟨(Course.gathered_of_enough _ _ _ reached).symm, ?_⟩
        -- This page has enough, so its request is the last one.
        rw [if_pos rfl, asked, pagesUntil, reached, if_pos rfl]
        rfl
      | false =>
        obtain ⟨gathered, others⟩ : (l.course page.next rest).IsGathered enough
            (addUntil enough before page.entries).1 after.2
            (l.gatherFrom transport.traced enough pages page.next
              (addUntil enough before page.entries).1 after) :=
          ih later (Nat.lt_of_succ_lt_succ sufficient)
        rw [if_neg Bool.false_ne_true]
        refine ⟨gathered.trans (Course.gathered_cons _ _ _ _ reached).symm, ?_⟩
        -- The request for this page stands in front of those for the pages after it.
        rw [others, asked, pagesUntil, reached, if_neg Bool.false_ne_true, List.take_succ_cons,
          List.append_assoc, List.singleton_append]

/-- It does not matter to gathering whether no entry is enough. -/
theorem gatherFrom_congr {transport : Transport σ} {world : σ}
    (same : ∀ count, 0 < count → enough count = other count) :
    l.gatherFrom transport enough pages cursor before world =
      l.gatherFrom transport other pages cursor before world := by
  -- The induction is on the pages that may be fetched, with what was gathered generalised.
  induction pages generalizing cursor before world with
  | zero => cases cursor <;> rfl
  | succ pages ih =>
    rcases cursor with _ | cursor
    · rw [gatherFrom_none, gatherFrom_none]
    rcases ran : (l.page cursor).run transport world with ⟨failure | page, after⟩
    · rw [gatherFrom_error l ran, gatherFrom_error l ran]
    rw [gatherFrom_ok l ran, gatherFrom_ok l ran, addUntil_congr same, ih]

end

end Listing

namespace Course

/-- What a listing comes to if all its entries are gathered. -/
def outcome (course : Course s) : Outcome (List (Datum s)) :=
  match course.failure with
  | some failure => .failed failure
  | none => .complete course.entries

/-- Gathering what is never enough comes to all there is. -/
theorem gathered_of_short (course : Course s) {enough : Nat → Bool}
    (short : ∀ count, 0 < count → count ≤ course.entries.length → enough count = false) :
    course.gathered enough [] = course.outcome := by
  -- All entries together never come to a number that is enough.
  have whole : addUntil enough [] course.entries = ([] ++ course.entries, false) :=
    addUntil_of_short fun count more fewer => short count more (by simpa using fewer)
  rw [gathered, whole, List.nil_append]
  rfl

/-- Gathering as many entries as there are at least comes to the first ones. -/
theorem gathered_of_reached (course : Course s) {n : Nat} (positive : 0 < n)
    (inside : n ≤ course.entries.length) :
    course.gathered (fun count => decide (n ≤ count)) [] = .complete (course.entries.take n) := by
  -- The number is come to inside the entries, so that the pages behind do not count.
  have reached : addUntil (fun count => decide (n ≤ count)) [] course.entries =
      ([] ++ course.entries.take n, true) := addUntil_of_reached positive (by simpa using inside)
  rw [gathered, reached, List.nil_append]
  rfl

end Course

section

variable {world : σ} {answers : List (Option Response)} {pages : Nat}

/-- A listing of which nothing is enough comes to all there is, by all its requests. -/
theorem Listing.gather_of_short (l : Listing s) (played : l.IsPlayed transport world answers)
    (sufficient : answers.length < pages) {enough : Nat → Bool}
    (short : ∀ count, 0 < count → count ≤ (l.course (some l.first) answers).entries.length →
      enough count = false) :
    let course := l.course (some l.first) answers
    let run := l.gather transport.traced enough pages (world, [])
    run.1 = course.outcome ∧ run.2.2.map Exchange.request = course.requests := by
  intro course run
  obtain ⟨gathered, asked⟩ : course.IsGathered enough [] [] run :=
    isGathered_course (played.traced []) sufficient
  have length : course.requests.length = course.pages.length +
      (if course.failure.isSome then 1 else 0) := l.length_course (some l.first) answers
  -- One page more than there are is wanted, so that no request is left out.
  have fetched : pagesUntil enough [] course.pages = course.pages.length + 1 :=
    pagesUntil_of_short fun count more fewer =>
      short count more (by rwa [List.length_nil, Nat.zero_add] at fewer)
  rw [fetched, List.take_of_length_le (by rw [length]; split <;> omega)] at asked
  exact ⟨gathered.trans (course.gathered_of_short short), asked⟩

/-- A listing of which a number of entries is enough that it has comes to the first ones, by the
requests for as few pages as have them. -/
theorem Listing.gather_of_reached (l : Listing s) (played : l.IsPlayed transport world answers)
    (sufficient : answers.length < pages) {n : Nat} (positive : 0 < n)
    (inside : n ≤ (l.course (some l.first) answers).entries.length) :
    let course := l.course (some l.first) answers
    let run := l.gather transport.traced (fun count => decide (n ≤ count)) pages (world, [])
    run.1 = .complete (course.entries.take n) ∧
      ∃ fetched, IsLeast {k | n ≤ (course.pages.take k).flatten.length} fetched ∧
        run.2.2.map Exchange.request = course.requests.take fetched ∧ run.2.2.length = fetched := by
  intro course run
  obtain ⟨gathered, asked⟩ : course.IsGathered (fun count => decide (n ≤ count)) [] [] run :=
    isGathered_course (played.traced []) sufficient
  have length : course.requests.length = course.pages.length +
      (if course.failure.isSome then 1 else 0) := l.length_course (some l.first) answers
  have fetched : pagesUntil (fun count => decide (n ≤ count)) [] course.pages =
      pagesFor n course.pages := pagesUntil_of_number positive _
  have least := isLeast_pagesFor inside
  -- All pages together have the entries, so no more of them are needed.
  have bound : pagesFor n course.pages ≤ course.pages.length := by
    refine least.2 (show n ≤ _ from ?_)
    rwa [List.take_length]
  rw [fetched] at asked
  refine ⟨gathered.trans (course.gathered_of_reached positive inside), pagesFor n course.pages,
    least, asked, ?_⟩
  have count := congrArg List.length asked
  rw [List.length_map, List.map_nil, List.nil_append, List.length_take, length] at count
  omega

end

end ContentApi
