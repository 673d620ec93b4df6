import ContentApi.Proofs.Listing.Offsets
import ContentApi.Proofs.Listing.Pulls
import ContentApi.Proofs.Operation.Refusals

/-! However a listing is gone through and whatever is answered, page after page is asked for, until
nothing leads on or a page is not had. -/

namespace ContentApi

variable {s : Shape} {σ : Type}

/-- Whether a cursor may lead to the page behind that of another one: by the marker that was given
there, or by more entries before it. -/
def Cursor.Continues : Cursor → Cursor → Prop
  | .marker _, .marker (some _) => True
  | .offset before, .offset count => before < count
  | _, _ => False

/-- What leads on from a page may lead to the one behind it. -/
theorem Cursor.continues_after {cursor next : Cursor} {fetched : Nat} {total : Option Nat}
    {marker : Json} (leads : cursor.after fetched total marker = some next) :
    cursor.Continues next := by
  -- Markers lead to markers, and an offset leads on only behind a page that is not empty.
  cases cursor with
  | marker text =>
    obtain ⟨m, -, rfl⟩ := Option.map_eq_some_iff.mp leads
    exact trivial
  | offset count =>
    rcases after_offset count fetched total marker with last | ⟨following, some⟩
    · rw [last] at leads
      cases leads
    · rw [following] at leads
      cases leads
      exact Nat.lt_add_of_pos_right (Nat.pos_of_ne_zero some)

namespace Listing

variable {l : Listing s}

/-- What a page leads to may lead to the one behind it. -/
theorem continues_of_outcome {cursor next : Cursor} {answer : Option Response} {page : Page s}
    (had : (l.page cursor).outcome answer = .ok page) (leads : page.next = some next) :
    cursor.Continues next := by
  -- A page can only be had from an answer of success that is read as one.
  cases answer with
  | none => cases had
  | some r =>
    rw [Call.outcome] at had
    split at had
    · obtain ⟨datum, -, same⟩ := bind_ok_iff.mp had
      cases same
      exact Cursor.continues_after leads
    · cases had

/-- Whether the exchanges of a record ask for page after page of a listing, from a first one on,
each for the one that the answer before it leads to. They end with a page that is not had, for some
reason, or there is one that is not asked for any more. -/
inductive Leads (l : Listing s) :
    Option Cursor → List Exchange → Option Failure → Option Cursor → Prop where
  | stays (cursor : Option Cursor) : Leads l cursor [] none cursor
  | fails {cursor : Cursor} {answer : Option Response} {failure : Failure}
      (outcome : (l.page cursor).outcome answer = .error failure) :
      Leads l (some cursor) [⟨(l.page cursor).request, answer⟩] (some failure) none
  | goesOn {cursor : Cursor} {answer : Option Response} {page : Page s} {rest : List Exchange}
      {failure : Option Failure} {last : Option Cursor}
      (outcome : (l.page cursor).outcome answer = .ok page)
      (leads : Leads l page.next rest failure last) :
      Leads l (some cursor) (⟨(l.page cursor).request, answer⟩ :: rest) failure last

section

variable {first between last : Option Cursor} {record later : List Exchange}
  {failure other : Option Failure}

/-- Where nothing leads on, nothing is asked for. -/
theorem Leads.eq_of_none (leads : l.Leads none record failure last) :
    record = [] ∧ failure = none ∧ last = none := by
  cases leads
  exact ⟨rfl, rfl, rfl⟩

/-- A record goes on where another one has ended, and no page is asked for after one that is not
had. -/
theorem Leads.trans (leads : l.Leads first record failure between)
    (goesOn : l.Leads between later other last) :
    l.Leads first (record ++ later) (failure.or other) last ∧
      failure.toList ++ other.toList = (failure.or other).toList := by
  -- The induction is on the first record, which nothing follows once a page is not had.
  induction leads with
  | stays => exact ⟨goesOn, rfl⟩
  | fails outcome =>
    obtain ⟨rfl, rfl, rfl⟩ := goesOn.eq_of_none
    exact ⟨.fails outcome, rfl⟩
  | goesOn outcome _ ih => exact ⟨.goesOn outcome (ih goesOn).1, (ih goesOn).2⟩

end

/-- Asking for a page records that and nothing else. -/
theorem exists_run_page (l : Listing s) (transport : Transport σ) (cursor : Cursor)
    (state : σ × List Exchange) : ∃ answer after, (l.page cursor).run transport.traced state =
      ((l.page cursor).outcome answer, after,
        state.2 ++ [⟨(l.page cursor).request, answer⟩]) :=
  ⟨_, _, Call.run_traced _ _ _ _⟩

/-- Gathering asks for page after page, and fails by a page that is not had. -/
theorem leads_gatherFrom (l : Listing s) (transport : Transport σ) (enough : Nat → Bool)
    (pages : Nat) (cursor : Option Cursor) (gathered : List (Datum s))
    (state : σ × List Exchange) :
    let ran := l.gatherFrom transport.traced enough pages cursor gathered state
    ∃ added last, ran.2.2 = state.2 ++ added ∧ l.Leads cursor added ran.1.failure? last := by
  intro ran
  have still : state.2 = state.2 ++ [] := (List.append_nil _).symm
  -- Each of the pages that may be fetched adds one exchange to the record.
  induction pages generalizing cursor gathered state with
  | zero => cases cursor <;> exact ⟨[], _, still, .stays _⟩
  | succ pages ih =>
    cases cursor with
    | none => exact ⟨[], _, still, .stays _⟩
    | some cursor =>
      obtain ⟨answer, after, ranPage⟩ := l.exists_run_page transport cursor state
      cases outcome : (l.page cursor).outcome answer with
      | error failure =>
        rw [outcome] at ranPage
        rw [show ran = _ from gatherFrom_error l ranPage]
        exact ⟨_, _, rfl, .fails outcome⟩
      | ok page =>
        rw [outcome] at ranPage
        rw [show ran = _ from gatherFrom_ok l ranPage]
        split
        · exact ⟨_, _, rfl, .goesOn outcome (.stays _)⟩
        · obtain ⟨added, last, record, leads⟩ := ih page.next
            (addUntil enough gathered page.entries).1 (after, _) (List.append_nil _).symm
          exact ⟨_, last, record.trans (List.append_assoc _ _ _), .goesOn outcome leads⟩

/-- Gathering until there are enough begins with the exchanges of gathering everything. -/
theorem prefix_gatherFrom (l : Listing s) (transport : Transport σ) (enough : Nat → Bool)
    (pages : Nat) (cursor : Option Cursor) (gathered all : List (Datum s))
    (state : σ × List Exchange) :
    (l.gatherFrom transport.traced enough pages cursor gathered state).2.2 <+:
      (l.gatherFrom transport.traced (fun _ => false) pages cursor all state).2.2 := by
  induction pages generalizing cursor gathered all state with
  | zero => cases cursor <;> exact List.prefix_rfl
  | succ pages ih =>
    cases cursor with
    | none => exact List.prefix_rfl
    | some cursor =>
      rcases ran : (l.page cursor).run transport.traced state with ⟨failure | page, after⟩
      · rw [gatherFrom_error l ran, gatherFrom_error l ran]
      · rw [gatherFrom_ok l ran, gatherFrom_ok l ran, addUntil_false, if_neg Bool.false_ne_true]
        split
        · -- What is gathered after this page only adds to the record.
          obtain ⟨added, last, record, -⟩ := l.leads_gatherFrom transport (fun _ => false) pages
            page.next (all ++ page.entries) after
          rw [record]
          exact List.prefix_append _ _
        · exact ih _ _ _ _

end Listing

namespace Walk

/-- A walk asks for page after page to find its next entry, fails by a page that is not had, and
goes on from where it has come to. -/
theorem leads_next (transport : Transport σ) (allowed : Nat) (w : Walk s)
    (state : σ × List Exchange) :
    let ran := w.next transport.traced allowed state
    ran.2.1.listing = w.listing ∧ ∃ added, ran.2.2.2 = state.2 ++ added ∧
      w.listing.Leads w.cursor added ran.1.failure? ran.2.1.cursor := by
  intro ran
  obtain ⟨l, buffer, cursor⟩ := w
  have still : state.2 = state.2 ++ [] := (List.append_nil _).symm
  induction allowed generalizing buffer cursor state with
  | zero => cases buffer <;> cases cursor <;> exact ⟨rfl, [], still, .stays _⟩
  | succ allowed ih =>
    cases buffer with
    | cons entry rest => exact ⟨rfl, [], still, .stays _⟩
    | nil =>
      cases cursor with
      | none => exact ⟨rfl, [], still, .stays _⟩
      | some cursor =>
        obtain ⟨answer, after, ranPage⟩ := l.exists_run_page transport cursor state
        cases outcome : (l.page cursor).outcome answer with
        | error failure =>
          rw [outcome] at ranPage
          rw [show ran = _ from next_failed ranPage]
          exact ⟨rfl, _, rfl, .fails outcome⟩
        | ok page =>
          rw [outcome] at ranPage
          rw [show ran = _ from next_fetched ranPage]
          -- The entries of the page are given out first, so the rest is a search of its own.
          obtain ⟨kept, added, record, leads⟩ := ih (after, _) page.entries page.next
            (List.append_nil _).symm
          exact ⟨kept, _, record.trans (List.append_assoc _ _ _), .goesOn outcome leads⟩

/-- However often it is asked for an entry, a walk asks for page after page, and fails once at most,
by a page that is not had. -/
theorem leads_pulls (transport : Transport σ) (allowed pulls : Nat) (w : Walk s)
    (state : σ × List Exchange) :
    let ran := w.pulls transport.traced allowed pulls state
    ∃ added failure last, ran.2.2.2 = state.2 ++ added ∧
      ran.1.filterMap Found.failure? = failure.toList ∧
      w.listing.Leads w.cursor added failure last := by
  intro ran
  -- The induction is on the pulls, each of which starts where the one before it has ended.
  induction pulls generalizing w state with
  | zero => exact ⟨[], none, _, (List.append_nil _).symm, rfl, .stays _⟩
  | succ pulls ih =>
    obtain ⟨kept, added, record, leads⟩ := w.leads_next transport allowed state
    obtain ⟨later, failure, last, records, failures, goesOn⟩ :=
      ih (w.next transport.traced allowed state).2.1 (w.next transport.traced allowed state).2.2
    rw [kept] at goesOn
    rw [record, List.append_assoc] at records
    obtain ⟨both, failed⟩ := leads.trans goesOn
    refine ⟨added ++ later, _, last, records, ?_, both⟩
    rw [← failed, ← failures]
    show List.filterMap Found.failure? (_ :: _) = _
    rw [List.filterMap_cons]
    cases (w.next transport.traced allowed state).1.failure? <;> rfl

end Walk

end ContentApi
