import ContentApi.Proofs.Schema.Rows
import ContentApi.Proofs.Snapshot.Silent

/-! An answer that is no object is refused, unless it is a list that stands for the whole object. -/

namespace ContentApi

/-- Whether an answer that is no object is a record: it lists the values of its members, none of
which are shared with items. -/
def Json.IsRowOf (answer : Json) {k : Kind} (fields : Record k) : Prop :=
  ∃ items, answer = .array items ∧ k.extendsItem = false ∧ fields.IsRow .value items

/-- A value that is neither an object nor null takes the place of all that was known. -/
theorem Json.overlay_of_noObject {answer : Json} (noObject : answer.isObject = false)
    (notNull : answer ≠ .null) (known : Json) : known.overlay answer = answer := by
  -- Nothing but null is kept out, and only an object is laid over member by member.
  cases answer with
  | null => exact absurd rfl notNull
  | object members => cases noObject
  | flag | number | text | array => simp [overlay]

/-- No object of the service needs all of its members to be listed. -/
theorem Resource.needsWholeRow_kind (r : Resource) : r.kind.needsWholeRow = false := by
  cases r <;> rfl

namespace Snapshot

variable {r : Resource} {σ : Type} {answer : Json} {s s' : Snapshot r}

/-- A snapshot is read from what is no object only if that lists its members. -/
theorem ofJson_noObject_ok_iff (noObject : answer.isObject = false) :
    ofJson r answer = .ok s' ↔ s'.pending = [] ∧ answer.IsRowOf s'.fields := by
  rw [ofJson_ok_iff, Json.IsRowOf]
  refine and_congr_right fun _ => ?_
  -- Of all that is no object a record is read from lists alone.
  cases answer with
  | object members => cases noObject
  | array items =>
    rw [readDatum_row_ok_iff rfl r.needsWholeRow_kind fun m inside =>
      Resource.isMandatory_eq_false inside]
    simp
  | null | flag | number | text =>
    simp [Doc.ofJson, readDatum, Doc.mismatch, Doc.unexpected]

/-- An update with what is no object forgets the snapshot, and succeeds only if the answer lists the
members of another one. -/
theorem update_noObject_ok_iff (noObject : answer.isObject = false) (notNull : answer ≠ .null) :
    s.update answer = .ok s' ↔ s'.pending = [] ∧ answer.IsRowOf s'.fields := by
  rw [update, Json.overlay_of_noObject noObject notNull, ofJson_noObject_ok_iff noObject]

/-- What is left of a snapshot when it is sent is sent the same way. -/
theorem toJson_settled (s : Snapshot r) : s.settled.toJson = s.toJson :=
  Datum.write_settled s.datum

/-- A snapshot stays as it is if the answer to its changes cannot be overlaid. -/
theorem sendChanges_of_update_error {h : Handle r} {editable : r.isEditable = true} {url : Url}
    (address : h.changeUrl editable = .ok url) {transport : Transport σ} {world : σ}
    {response : Response}
    (answered : (transport.exchange (h.changeRequest url s) world).1 = some response)
    (read : response.json = .ok answer) (refused : ∀ s', s.update answer ≠ .ok s') :
    ∃ failure, h.sendChanges s transport world editable =
      (.error failure, s, (transport.exchange (h.changeRequest url s) world).2) := by
  -- An answer that is accepted was overlaid, and this one cannot be.
  have failed : ∃ failure, s.afterAnswer (some response) = .error failure := by
    cases outcome : s.afterAnswer (some response) with
    | error failure => exact ⟨failure, rfl⟩
    | ok next =>
      obtain ⟨_, _, same, read', updated⟩ := exists_update_of_afterAnswer outcome
      cases same
      cases read.symm.trans read'
      exact absurd updated (refused next)
  obtain ⟨failure, failed⟩ := failed
  refine ⟨failure, ?_⟩
  rw [Handle.sendChanges_ok address]
  simp only [answered, failed]
  rfl

/-- Of the answers that are no objects, null leaves a snapshot to be sent as it was. Any other one
takes the place of the snapshot, which it can only as a list of the values of its members, and only
if the object shares no members with items. If it cannot it is refused, and then the snapshot has
the members and the changes that it had. -/
theorem update_noObject (noObject : answer.isObject = false) (s : Snapshot r) :
    (answer = .null → s.update answer = .ok s.settled ∧ s.settled.toJson = s.toJson) ∧
    (answer ≠ .null → ∀ s',
      s.update answer = .ok s' ↔ s'.pending = [] ∧ answer.IsRowOf s'.fields) ∧
    ∀ (h : Handle r) (editable : r.isEditable = true) (url : Url) (transport : Transport σ)
      (world : σ) (response : Response), h.changeUrl editable = .ok url →
      (transport.exchange (h.changeRequest url s) world).1 = some response →
      response.json = .ok answer → answer ≠ .null →
      (∀ fields : Record r.kind, ¬ answer.IsRowOf fields) →
      ∃ failure, h.sendChanges s transport world editable =
        (.error failure, s, (transport.exchange (h.changeRequest url s) world).2) := by
  refine ⟨fun isNull => ?_, fun notNull s' => update_noObject_ok_iff noObject notNull,
    fun h editable url transport world response address answered read notNull noRow => ?_⟩
  · -- Null reads back what is sent, and any other answer has to be read as a row.
    subst isNull
    exact ⟨update_of_silent (Or.inl rfl) s, s.toJson_settled⟩
  · refine sendChanges_of_update_error address answered read fun s' updated => ?_
    exact noRow s'.fields ((update_noObject_ok_iff noObject notNull).mp updated).2

/-- A user of whom the name is known, with a change. -/
def namedUser : Snapshot .user where
  fields := .cons (.given (.leaf (l := .text) "7"))
    (.cons (.given (.leaf (l := .text) "Ann")) (.cons .absent .nil))
  pending := [("name", .text "Anne")]

/-- The bytes of an empty list. -/
def emptyRow : Bytes := [0x5b, 0x5d]

/-- A user becomes the one that is listed, and a file refuses even the empty list. -/
theorem update_namedUser_row :
    (∃ s' : Snapshot .user, namedUser.update (.array [.text "8"]) = .ok s' ∧
      s'.toJson = .object [("id", .text "8")]) ∧
    ∃ failure, Calls.someFile.sendChanges datedFile Calls.answering [some ⟨200, emptyRow⟩] =
      (.error failure, datedFile, []) := by
  let listed : Snapshot .user := ⟨.cons (.given (.leaf (l := .text) "8")) (.blank _), []⟩
  have noObject : (Json.array [.text "8"]).isObject = false := rfl
  obtain ⟨-, row, -⟩ := update_noObject (σ := Unit) noObject namedUser
  have updated := (row Json.noConfusion listed).mpr ⟨rfl, [.text "8"], rfl, rfl, rfl, rfl⟩
  refine ⟨⟨listed, updated, rfl⟩, ?_⟩
  obtain ⟨url, address⟩ : ∃ url, Calls.someFile.changeUrl rfl = .ok url := ⟨_, by cbv⟩
  have read : (Response.mk 200 emptyRow).json = .ok (.array []) := by rfl
  refine (update_noObject rfl datedFile).2.2 Calls.someFile rfl url Calls.answering
    [some ⟨200, emptyRow⟩] ⟨200, emptyRow⟩ address rfl read Json.noConfusion fun fields isRow => ?_
  -- A file shares members with items, so that no list is one.
  obtain ⟨_, -, own, -⟩ := isRow
  cases own

/-- An empty list erases all that is known of a user, and the changes with it. -/
theorem update_namedUser_erased :
    namedUser.toJson = .object [("id", .text "7"), ("name", .text "Ann")] ∧
    ∃ s', namedUser.update (.array []) = .ok s' ∧ s'.toJson = .object [] ∧ s'.pending = [] :=
  -- Every member of a user may be missing, so the empty row is the blank record.
  ⟨rfl, blank .user, (update_noObject_ok_iff rfl Json.noConfusion).mpr ⟨rfl, [], rfl, rfl, rfl⟩,
    rfl, rfl⟩

end Snapshot

end ContentApi
