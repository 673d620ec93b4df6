import ContentApi.Proofs.Schema.Nulls
import ContentApi.Proofs.Schema.Tidy
import ContentApi.Proofs.Snapshot.Update

/-! An update takes no notice of the nulls of an answer, except inside an object that is new. -/

namespace ContentApi.Snapshot

variable {r : Resource} {answer : Json}

/-- A snapshot is sent as a tidy document. -/
theorem tidy_toJson (s : Snapshot r) : s.toJson.Tidy :=
  s.datum.tidy_write r.isTyped_kind

/-- Without its nulls an answer makes of a snapshot what is left of its overlay without nulls. -/
theorem update_withoutNulls_eq (s : Snapshot r) (ordered : answer.Ordered) :
    s.update answer.withoutNulls = ofJson r (s.toJson.overlay answer).withoutNulls := by
  rw [update, Json.withoutNulls_overlay answer ordered s.toJson s.tidy_toJson]

/-- The nulls of an answer change nothing in objects that the snapshot has. Wherever they are, the
answer does the same with and without them, unless one of them counts once it is laid over the
snapshot; and then the two do not both succeed. -/
theorem update_withoutNulls (s : Snapshot r) (ordered : answer.Ordered) :
    (Json.NullsKnown s.toJson answer → s.update answer.withoutNulls = s.update answer) ∧
    (¬ Json.NullCounts (.record r.kind) (s.toJson.overlay answer) →
      ∀ s', s.update answer = .ok s' ↔ s.update answer.withoutNulls = .ok s') ∧
    (Json.NullCounts (.record r.kind) (s.toJson.overlay answer) →
      ∀ s' s'', s.update answer = .ok s' → s.update answer.withoutNulls ≠ .ok s'') := by
  have known := s.tidy_toJson.ordered
  have merged := Json.Ordered.overlay answer ordered s.toJson known
  refine ⟨fun nulls => ?_, ?_⟩
  · rw [update, update, Json.overlay_withoutNulls answer ordered s.toJson known nulls]
  · -- Both updates read the overlay, one of them without its nulls.
    rw [s.update_withoutNulls_eq ordered, update, ofJson, ofJson, Datum.ofJson, Datum.ofJson]
    simp only [ne_eq, map_ok_iff]
    constructor
    · intro discounted s'
      have same := fun d => Json.sameWithoutNulls _ merged (.record r.kind) d .value
        r.isTyped_kind rfl discounted
      simp only [same]
    · rintro counts s' s'' ⟨d, read, -⟩ ⟨d', readWithout, -⟩
      exact counts.not_both merged r.isTyped_kind rfl read readWithout

/-- Counts of what a hold is assigned to, with a null among them. -/
def partialCounts : Json :=
  .object [("assignment_counts", .object [("folder", .number (.integer 2)), ("user", .null)])]

/-- A hold of which some counts are known. -/
def countedHold : Snapshot .legalHold where
  fields := (Fields.blank _).set (.ofIndex _ 4 rfl) (.given (.record (k := .assignmentCounts)
    (.cons (.plain (l := .count) 3) (Fields.blank _))))
  pending := []

/-- A null among counts that are known is passed over; among new ones it is a fault. -/
theorem update_partialCounts :
    (∃ s', countedHold.update partialCounts = .ok s' ∧
      countedHold.update partialCounts.withoutNulls = .ok s') ∧
    ∀ s', (blank .legalHold).update partialCounts ≠ .ok s' := by
  have ordered : partialCounts.Ordered :=
    ⟨by decide, ⟨by decide, trivial, trivial, trivial⟩, trivial⟩
  constructor
  · have ordered' : (countedHold.toJson.overlay partialCounts).Ordered :=
      Json.Ordered.overlay _ ordered _ countedHold.tidy_toJson.ordered
    obtain ⟨s', updated⟩ : ∃ s', countedHold.update partialCounts = .ok s' := ⟨_, rfl⟩
    refine ⟨s', updated, ((update_withoutNulls countedHold ordered).2.1 (fun counts => ?_) s').mp
      updated⟩
    exact counts.withoutNulls_ne ordered' rfl
  · obtain ⟨s'', updated⟩ : ∃ s'', (blank .legalHold).update partialCounts.withoutNulls = .ok s'' :=
      ⟨_, rfl⟩
    intro s' whole
    -- The counts come in whole, and the count of users among them is null.
    have counts : Json.NullCounts (.record .legalHold)
        ((blank .legalHold).toJson.overlay partialCounts) :=
      .nested (m := recordMember "assignment_counts" .assignmentCounts)
        (Place.ofIndex _ 4 rfl).mem rfl rfl
        (.member (m := .plain "user" .count) (Place.ofIndex _ 0 rfl).mem rfl rfl)
    exact (update_withoutNulls (blank .legalHold) ordered).2.2 counts s' s'' whole updated

/-- Whether a null is passed over depends on what is known: the same answer that is fit for a hold
whose counts are known is at fault for one of which nothing is, unless its null is left out. -/
theorem update_newCounts_differs :
    (blank .legalHold).update partialCounts = .error (.mismatch (.kind .null "u64")) ∧
    (∃ s', (blank .legalHold).update partialCounts.withoutNulls = .ok s') ∧
    ∃ s', countedHold.update partialCounts = .ok s' :=
  -- Without the null the counts are read as new ones, with what is known they are laid over those.
  ⟨rfl, ⟨_, rfl⟩, ⟨_, rfl⟩⟩

end ContentApi.Snapshot
