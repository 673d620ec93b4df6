import ContentApi.Listing.Walk

/-! Gathering the entries of a listing is walking through it. -/

namespace ContentApi

variable {s : Shape} {σ : Type} {transport : Transport σ}

/-- All entries are added if none of the numbers that they come to is enough. -/
theorem addUntil_of_short {α : Type} {enough : Nat → Bool} {gathered entries : List α}
    (short : ∀ count, gathered.length < count → count ≤ gathered.length + entries.length →
      enough count = false) : addUntil enough gathered entries = (gathered ++ entries, false) := by
  -- What was gathered stays free, as each entry is added behind it.
  induction entries generalizing gathered with
  | nil => rw [addUntil, List.append_nil]
  | cons entry rest ih =>
    have lengthens : (gathered ++ [entry]).length = gathered.length + 1 := by simp
    have here : enough (gathered ++ [entry]).length = false :=
      short _ (by omega) (by rw [List.length_cons]; omega)
    rw [addUntil, if_neg (Bool.eq_false_iff.mp here), List.append_cons gathered entry rest]
    exact ih fun count more fewer => short count (by omega) (by rw [List.length_cons]; omega)

/-- All entries of a page are added where none are ever enough. -/
theorem addUntil_false {α : Type} (gathered entries : List α) :
    addUntil (fun _ => false) gathered entries = (gathered ++ entries, false) :=
  addUntil_of_short fun _ _ _ => rfl

namespace Listing

section

variable (l : Listing s) {enough : Nat → Bool} {pages : Nat}
  {cursor : Cursor} {gathered : List (Datum s)} {world after : σ}

/-- Where nothing leads on, a listing is complete. -/
theorem gatherFrom_none :
    l.gatherFrom transport enough pages none gathered world = (.complete gathered, world) := by
  cases pages <;> rfl

/-- A page that cannot be had ends a listing. -/
theorem gatherFrom_error {failure : Failure}
    (ran : (l.page cursor).run transport world = (.error failure, after)) :
    l.gatherFrom transport enough (pages + 1) (some cursor) gathered world =
      (.failed failure, after) := by
  rw [gatherFrom, ran]

/-- A page that is had leads on, unless there are entries enough. -/
theorem gatherFrom_ok {page : Page s}
    (ran : (l.page cursor).run transport world = (.ok page, after)) :
    l.gatherFrom transport enough (pages + 1) (some cursor) gathered world =
      if (addUntil enough gathered page.entries).2 then
        (.complete (addUntil enough gathered page.entries).1, after)
      else l.gatherFrom transport enough pages page.next
        (addUntil enough gathered page.entries).1 after := by
  -- Only whether the page is enough decides whether the next one is fetched.
  rw [gatherFrom, ran]

end

end Listing

/-- What a walk comes to if the next entry is asked for until there is none, with some entries
gathered before. -/
inductive Walk.Drains (transport : Transport σ) :
    Walk s → σ → List (Datum s) → Outcome (List (Datum s)) → σ → Prop where
  | entry {w rest : Walk s} {world between after : σ} {gathered : List (Datum s)}
      {outcome : Outcome (List (Datum s))} {found : Datum s} (pages : Nat)
      (next : w.next transport pages world = (.entry found, rest, between))
      (drains : Drains transport rest between (gathered ++ [found]) outcome after) :
      Drains transport w world gathered outcome after
  | ended {w rest : Walk s} {world after : σ} {gathered : List (Datum s)} (pages : Nat)
      (next : w.next transport pages world = (.ended, rest, after)) :
      Drains transport w world gathered (.complete gathered) after
  | failed {w rest : Walk s} {world after : σ} {gathered : List (Datum s)} {failure : Failure}
      (pages : Nat) (next : w.next transport pages world = (.failed failure, rest, after)) :
      Drains transport w world gathered (.failed failure) after

/-- What a walk comes to if the next entry is asked for until there are enough or there is none,
with some entries gathered before. -/
inductive Walk.DrainsUntil (transport : Transport σ) (enough : Nat → Bool) :
    Walk s → σ → List (Datum s) → Outcome (List (Datum s)) → σ → Prop where
  | entry {w rest : Walk s} {world between after : σ} {gathered : List (Datum s)}
      {outcome : Outcome (List (Datum s))} {found : Datum s} (pages : Nat)
      (next : w.next transport pages world = (.entry found, rest, between))
      (few : enough (gathered ++ [found]).length = false)
      (drains : DrainsUntil transport enough rest between (gathered ++ [found]) outcome after) :
      DrainsUntil transport enough w world gathered outcome after
  | reached {w rest : Walk s} {world after : σ} {gathered : List (Datum s)} {found : Datum s}
      (pages : Nat) (next : w.next transport pages world = (.entry found, rest, after))
      (many : enough (gathered ++ [found]).length = true) :
      DrainsUntil transport enough w world gathered (.complete (gathered ++ [found])) after
  | ended {w rest : Walk s} {world after : σ} {gathered : List (Datum s)} (pages : Nat)
      (next : w.next transport pages world = (.ended, rest, after)) :
      DrainsUntil transport enough w world gathered (.complete gathered) after
  | failed {w rest : Walk s} {world after : σ} {gathered : List (Datum s)} {failure : Failure}
      (pages : Nat) (next : w.next transport pages world = (.failed failure, rest, after)) :
      DrainsUntil transport enough w world gathered (.failed failure) after

section

variable {l : Listing s} {cursor : Option Cursor} {gathered buffer : List (Datum s)}
  {world between after : σ} {outcome : Outcome (List (Datum s))} {enough : Nat → Bool}

/-- Where there are never enough, the next entry is asked for until there is none. -/
theorem Walk.DrainsUntil.drains {w : Walk s}
    (stopped : w.DrainsUntil transport (fun _ => false) world gathered outcome after) :
    w.Drains transport world gathered outcome after := by
  -- The rules are the same one by one, but for the one where there are enough.
  induction stopped with
  | entry pages next few drains ih => exact .entry pages next ih
  | reached pages next many => cases many
  | ended pages next => exact .ended pages next
  | failed pages next => exact .failed pages next

/-- The entries of a page are given out before anything else is asked for, and that is all if they
are enough. -/
theorem Walk.DrainsUntil.buffered
    (drains : if (addUntil enough gathered buffer).2 then
        outcome = .complete (addUntil enough gathered buffer).1 ∧ after = world
      else DrainsUntil transport enough ⟨l, [], cursor⟩ world (addUntil enough gathered buffer).1
        outcome after) :
    DrainsUntil transport enough ⟨l, buffer, cursor⟩ world gathered outcome after := by
  -- The entries given out one by one are those that would have been gathered at once.
  induction buffer generalizing gathered with
  | nil => exact drains
  | cons entry rest ih =>
    have given : Walk.next transport 0 ⟨l, entry :: rest, cursor⟩ world =
        (.entry entry, ⟨l, rest, cursor⟩, world) := by rw [next]
    cases many : enough (gathered ++ [entry]).length with
    | true =>
      rw [addUntil, if_pos many] at drains
      obtain ⟨rfl, rfl⟩ := drains
      exact .reached 0 given many
    | false =>
      rw [addUntil, if_neg (Bool.eq_false_iff.mp many)] at drains
      exact .entry 0 given many (ih drains)

/-- A walk whose entries are given out goes on with the page that follows. -/
theorem Walk.DrainsUntil.fetched {cursor : Cursor} {page : Page s}
    (ran : (l.page cursor).run transport world = (.ok page, between))
    (drains : DrainsUntil transport enough ⟨l, page.entries, page.next⟩ between gathered outcome
      after) :
    DrainsUntil transport enough ⟨l, [], some cursor⟩ world gathered outcome after := by
  have fetch (pages : Nat) : next transport (pages + 1) ⟨l, [], some cursor⟩ world =
      next transport pages ⟨l, page.entries, page.next⟩ between := by
    rw [next]
    simp only [ran]
  -- Whatever comes next, the walk has fetched one page more to get there.
  cases drains with
  | entry pages next few drains => exact .entry (pages + 1) ((fetch pages).trans next) few drains
  | reached pages next many => exact .reached (pages + 1) ((fetch pages).trans next) many
  | ended pages next => exact .ended (pages + 1) ((fetch pages).trans next)
  | failed pages next => exact .failed (pages + 1) ((fetch pages).trans next)

/-- Gathering entries until there are enough is asking for the next one until there are. -/
theorem Listing.drainsUntil_of_gatherFrom {pages : Nat}
    (ran : l.gatherFrom transport enough pages cursor gathered world = (outcome, after))
    (sufficient : outcome ≠ .short) :
    Walk.DrainsUntil transport enough ⟨l, [], cursor⟩ world gathered outcome after := by
  -- Each page that is gathered is one that the walk fetches when it has given out the one before.
  induction pages generalizing cursor gathered world with
  | zero =>
    cases cursor with
    | none =>
      cases ran
      exact .ended 0 rfl
    | some cursor =>
      cases ran
      exact absurd rfl sufficient
  | succ pages ih =>
    cases cursor with
    | none =>
      cases ran
      exact .ended 0 rfl
    | some cursor =>
      rcases had : (l.page cursor).run transport world with ⟨failure | page, between⟩
      · rw [gatherFrom_error l had] at ran
        cases ran
        have stopped : Walk.next transport 1 ⟨l, [], some cursor⟩ world =
            (.failed failure, ⟨l, [], none⟩, after) := by
          rw [Walk.next]
          simp only [had]
        exact .failed 1 stopped
      · rw [gatherFrom_ok l had] at ran
        -- The entries of the page are given out first, and then the rest is a walk of its own.
        refine .fetched had (.buffered ?_)
        by_cases reached : (addUntil enough gathered page.entries).2 = true
        · rw [if_pos reached] at ran ⊢
          cases ran
          exact ⟨rfl, rfl⟩
        · rw [if_neg reached] at ran ⊢
          exact ih ran

/-- Gathering every entry is asking for the next one until there is none. -/
theorem Listing.drains_of_gatherFrom {pages : Nat}
    (ran : l.gatherFrom transport (fun _ => false) pages cursor gathered world = (outcome, after))
    (sufficient : outcome ≠ .short) :
    Walk.Drains transport ⟨l, [], cursor⟩ world gathered outcome after :=
  -- Where nothing is ever enough, walking until there is enough is draining.
  (drainsUntil_of_gatherFrom ran sufficient).drains

end

end ContentApi
