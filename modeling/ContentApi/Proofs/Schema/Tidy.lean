import ContentApi.Proofs.Json.Tidy
import ContentApi.Proofs.Schema.NormalForm

/-! Typed documents are sent as tidy ones. -/

namespace ContentApi

/-- A value is sent as a tidy document. -/
theorem Leaf.tidy_write {l : Leaf} (typed : l.isTyped = true) {value : l.Carrier} {sent : Json}
    (written : l.write value = some sent) : sent ≠ .null ∧ sent.Tidy := by
  -- Only a set of permissions is sent as an object, of flags.
  cases l with
  | text | flag | count | word =>
    cases written
    exact ⟨Json.noConfusion, trivial⟩
  | instant | days =>
    obtain ⟨known, -, rfl⟩ := Option.map_eq_some_iff.mp written
    exact ⟨Json.noConfusion, trivial⟩
  | grants =>
    obtain ⟨known, -, rfl⟩ := Option.map_eq_some_iff.mp written
    refine ⟨Json.noConfusion, known.ascending_toMembers, ?_⟩
    refine Json.TidyMembers.sorted ((Json.TidyMembers.iff_forall _).mpr ?_)
    intro member inside
    obtain ⟨permission, -, rfl⟩ := List.mem_map.mp inside
    exact ⟨Json.noConfusion, trivial⟩
  | untyped | properties => cases typed

mutual

/-- A typed document is sent as a tidy one. -/
theorem Datum.tidy_write : {s : Shape} → (d : Datum s) → s.isTyped = true →
    (d.write Members.sorted).Tidy
  | _, .leaf (l := l) value, typed => by
    rw [Datum.write]
    cases written : l.write value with
    | none => trivial
    | some sent => exact (Leaf.tidy_write typed written).2
  | _, .record (k := k) fields, typed => by
    rw [Datum.write]
    have members := fields.tidy_write fun m member => Kind.isTyped_members typed member
    exact ⟨Members.ascending_sorted _, members.sorted⟩
  | _, .item k fields, _ => by
    rw [Datum.write]
    have members := fields.tidy_write fun m member => Kind.isTyped_members k.isTyped_kind member
    -- The type of an item is a text, sent in front of its members.
    have whole : Json.TidyMembers (("type", .text k.tag) :: fields.write Members.sorted) :=
      ⟨⟨Json.noConfusion, trivial⟩, members⟩
    exact ⟨Members.ascending_sorted _, whole.sorted⟩

/-- Typed documents are sent as tidy ones. -/
theorem Items.tidy_write : {s : Shape} → (items : Items s) → s.isTyped = true →
    Json.TidyItems (items.write Members.sorted)
  | _, .nil, _ => trivial
  | _, .cons first rest, typed => ⟨first.tidy_write typed, rest.tidy_write typed⟩

/-- What is sent for a member is tidy and not null. -/
theorem Slot.tidy_write : {m : Member} → (slot : Slot m) → m.isTyped = true → {sent : Json} →
    slot.write Members.sorted = some sent → sent ≠ .null ∧ sent.Tidy
  | _, .absent, _, _, written => by cases written
  | _, .given value, typed, _, written => by
    cases written
    exact ⟨value.write_ne_null typed, value.tidy_write (Member.isTyped_shape typed)⟩
  | _, .plain value, typed, _, written => Leaf.tidy_write typed written
  | _, .entries items, typed, _, written => by
    cases written
    exact ⟨Json.noConfusion, items.tidy_write typed⟩
  | _, .omittable items, typed, _, written => by
    have tidy := items.tidy_write typed
    rw [Slot.write] at written
    -- An empty list is left out.
    split at written
    · cases written
    · cases written
      exact ⟨Json.noConfusion, tidy⟩
  | _, .mandatory value, typed, _, written =>
    Leaf.tidy_write (Leaf.isTyped_of_isPresent typed) written

/-- What is sent for the members of a record is tidy. -/
theorem Fields.tidy_write : {ms : List Member} → (fields : Fields ms) →
    (∀ m ∈ ms, m.isTyped = true) → Json.TidyMembers (fields.write Members.sorted)
  -- The recursion is on the members, of which those with nothing to send are left out.
  | _, .nil, _ => trivial
  | m :: _, .cons slot rest, typed => by
    have first : ∀ sent, slot.write Members.sorted = some sent → sent ≠ .null ∧ sent.Tidy :=
      fun sent => slot.tidy_write (typed m List.mem_cons_self)
    have others := rest.tidy_write fun n member => typed n (List.mem_cons_of_mem _ member)
    rw [Fields.write]
    cases written : slot.write Members.sorted with
    | none => exact others
    | some sent => exact ⟨first sent written, others⟩

end

end ContentApi
