import ContentApi.Proofs.Schema.Frame
import ContentApi.Snapshot.Basic

/-! An update of a snapshot changes the members that the answer has a value for, and no others. -/

namespace ContentApi

/-- Every kind of object has typed members only. -/
theorem Resource.isTyped_kind (r : Resource) : r.kind.isTyped = true := by
  cases r <;> rfl

/-- No kind of object has members that must be there. -/
theorem Resource.isMandatory_eq_false {r : Resource} {m : Member} (member : m ∈ r.kind.members) :
    m.isMandatory = false := by
  -- The kinds are few, and their members are listed.
  have all : ∀ n ∈ r.kind.members, n.isMandatory = false := by
    cases r <;> decide
  exact all m member

namespace Snapshot

variable {r : Resource} {s s' : Snapshot r} {answer : Members}

/-- A snapshot that was just read has the members that were read, and no changes. -/
theorem ofJson_ok_iff {value : Json} :
    ofJson r value = .ok s' ↔ s'.pending = [] ∧
      readDatum .value (.record r.kind) (Doc.ofJson value) = .ok (.record s'.fields) := by
  rw [ofJson, Datum.ofJson, map_ok_iff]
  constructor
  · -- A snapshot is its record and its changes, of which there are none after reading.
    rintro ⟨d, read, rfl⟩
    cases d with
    | record fields => exact ⟨rfl, read⟩
  · rintro ⟨none, read⟩
    refine ⟨.record s'.fields, read, ?_⟩
    cases s'
    cases none
    rfl

/-- A snapshot is read from an object whose members read on their own. -/
theorem ofJson_object_ok_iff {members : Members} (distinct : members.Distinct) :
    ofJson r (.object members) = .ok s' ↔ s'.pending = [] ∧ ∀ m (p : Place m r.kind.members),
      (s'.fields.get p).ReadFrom (r.kind.memberMode .value m) (Members.find? m.name members) := by
  rw [ofJson_ok_iff, readDatum_record_ok_iff rfl distinct]

/-- The members that a snapshot is sent with. -/
def members (s : Snapshot r) : Members :=
  Members.sorted (s.fields.write Members.sorted)

/-- A snapshot is sent as the object of its members. -/
theorem toJson_eq (s : Snapshot r) : s.toJson = .object s.members := rfl

/-- Under the name of a member stands what is written for it. -/
theorem find?_members (s : Snapshot r) {m : Member} (p : Place m r.kind.members) :
    Members.find? m.name s.members = (s.fields.get p).write Members.sorted :=
  Datum.find?_toJson r.kind.members_distinct s.fields p

/-- A name that no member has is not sent. -/
theorem find?_members_foreign (s : Snapshot r) {name : String}
    (foreign : name ∉ r.kind.members.map Member.name) : Members.find? name s.members = none := by
  -- Only names of members are written, and sorting adds none.
  rw [members, Members.find?_sorted _ (s.fields.distinct_write r.kind.members_distinct),
    s.fields.find?_write_foreign foreign]

/-- An updated snapshot has each member as the overlay of the answer reads on its own. -/
theorem update_object_ok_iff :
    s.update (.object answer) = .ok s' ↔ s'.pending = [] ∧ ∀ m (p : Place m r.kind.members),
      (s'.fields.get p).ReadFrom (r.kind.memberMode .value m)
        (Members.find? m.name (Members.overlay s.members answer)) := by
  -- The overlay is in order, so that each name stands in it once.
  have merged := Members.ascending_overlay
    (Members.ascending_sorted (s.fields.write Members.sorted)) answer
  rw [update, toJson_eq, Json.overlay_object]
  exact ofJson_object_ok_iff merged.distinct

/-- An update keeps what the answer spares, except below an item whose type it changes. -/
theorem at?_update (ordered : (Json.object answer).Ordered)
    (updated : s.update (.object answer) = .ok s') {path : List String}
    (spared : Json.Spares s.toJson (.object answer) path)
    (sameType : ¬ s.datum.Retyped (.object answer) path) :
    s'.toJson.at? path = s.toJson.at? path := by
  rw [update, ofJson, map_ok_iff] at updated
  obtain ⟨d, read, rfl⟩ := updated
  have kept := Datum.kept path s.datum d (.object answer) .value r.isTyped_kind rfl ordered spared
    sameType read
  -- What is read for the kind of an object is a record of it.
  cases d with
  | record fields => exact kept

/-- A snapshot with another value for a member. -/
def withSlot {m : Member} (s : Snapshot r) (p : Place m r.kind.members) (slot : Slot m) :
    Snapshot r :=
  { s with fields := s.fields.set p slot }

/-- An object that is read is read with another value for a member if that value is. -/
theorem ofJson_insert {members : Members} (ascending : members.Ascending)
    (read : ofJson r (.object members) = .ok s) {m : Member} (p : Place m r.kind.members)
    {slot : Slot m} {value : Json}
    (reads : slot.ReadFrom (r.kind.memberMode .value m) (some value)) :
    ofJson r (.object (members.insert m.name value)) = .ok (s.withSlot p slot) := by
  -- All members are read on their own, so that only the one with the new value is to be read again.
  obtain ⟨none, each⟩ := (ofJson_object_ok_iff ascending.distinct).mp read
  refine (ofJson_object_ok_iff (Members.ascending_insert _ _ ascending).distinct).mpr
    ⟨none, fun n q => ?_⟩
  rw [Members.find?_insert]
  exact Fields.readFrom_set r.kind.members_distinct (Members.find? · members) each p reads q

/-- An answer that is accepted is accepted with another value for a member if what that value makes
of what is known is read. -/
theorem update_insert (ascending : answer.Ascending) (updated : s.update (.object answer) = .ok s')
    {m : Member} (p : Place m r.kind.members) {slot : Slot m} {value : Json}
    (reads : slot.ReadFrom (r.kind.memberMode .value m)
      (Json.overlaid ((s.fields.get p).write Members.sorted) (some value))) :
    s.update (.object (answer.insert m.name value)) = .ok (s'.withSlot p slot) := by
  obtain ⟨none, each⟩ := update_object_ok_iff.mp updated
  refine update_object_ok_iff.mpr ⟨none, fun n q => ?_⟩
  have inserted := (Members.ascending_insert m.name value ascending).distinct
  rw [← s.find?_members p] at reads
  -- Under the name of the member the value is laid over what is known, and elsewhere what the
  -- answer had before.
  have found : Members.find? n.name (Members.overlay s.members (answer.insert m.name value)) =
      if m.name = n.name then Json.overlaid (Members.find? m.name s.members) (some value)
      else Members.find? n.name (Members.overlay s.members answer) := by
    rw [Members.find?_overlay _ _ inserted, Members.find?_overlay _ _ ascending.distinct,
      Members.find?_insert]
    by_cases same : m.name = n.name
    · rw [if_pos same, if_pos same, same]
    · rw [if_neg same, if_neg same]
  rw [found]
  exact Fields.readFrom_set r.kind.members_distinct
    (Members.find? · (Members.overlay s.members answer)) each p reads q

/-- What an answer leaves out or has null for stays as it is sent. -/
theorem get_of_untouched (distinct : answer.Distinct)
    (updated : s.update (.object answer) = .ok s') {m : Member} (p : Place m r.kind.members)
    (untouched : (Members.find? m.name answer).getD .null = .null) :
    s'.fields.get p = (s.fields.get p).settled := by
  obtain ⟨-, reads⟩ := update_object_ok_iff.mp updated
  -- What is sent for the member is laid over by nothing, and so it is what is read.
  have read := reads m p
  rw [Members.find?_overlay _ _ distinct, s.find?_members p] at read
  exact Slot.eq_settled_of_untouched (Kind.isTyped_members r.isTyped_kind p.mem)
    (Kind.room_memberMode rfl m) untouched read

/-- A value that is read for a member is read for it from an object with no other member too. -/
theorem exists_ofJson_single {m : Member} {p : Place m r.kind.members} {value : Json}
    {slot : Slot m} (reads : slot.ReadFrom (r.kind.memberMode .value m) (some value)) :
    ∃ alone, ofJson r (.object [(m.name, value)]) = .ok alone ∧ alone.fields.get p = slot := by
  have ascending : Members.Ascending [] := List.Pairwise.nil
  -- Every other member is missing from the object, and so it is blank.
  have empty : ofJson r (.object []) = .ok (blank r) :=
    (ofJson_object_ok_iff ascending.distinct).mpr
      ⟨rfl, fun n q => ⟨Resource.isMandatory_eq_false q.mem, Fields.get_blank q⟩⟩
  exact ⟨_, ofJson_insert ascending empty p reads, Fields.get_set p slot _⟩

/-- A member for which nothing is laid over an object is what the answer says of it alone. -/
theorem at?_update_given (distinct : answer.Distinct)
    (updated : s.update (.object answer) = .ok s') {name : String} {value : Json}
    (given : Members.find? name answer = some value)
    (replaces : Json.overlaid (Members.find? name s.members) (some value) = some value) :
    ∃ alone, ofJson r (.object [(name, value)]) = .ok alone ∧
      s'.toJson.at? [name] = alone.toJson.at? [name] := by
  obtain ⟨-, reads⟩ := update_object_ok_iff.mp updated
  simp only [toJson_eq, Json.at?_object]
  by_cases member : name ∈ r.kind.members.map Member.name
  · obtain ⟨m, inside, rfl⟩ := List.mem_map.mp member
    obtain ⟨p⟩ := Place.exists_of_mem inside
    -- The value stands in the overlay as the answer gives it, so it is read there as it is alone.
    have read := reads m p
    rw [Members.find?_overlay _ _ distinct, given, replaces] at read
    obtain ⟨alone, ok, same⟩ := exists_ofJson_single (p := p) read
    refine ⟨alone, ok, ?_⟩
    rw [find?_members s' p, find?_members alone p, same]
  · -- What no member is called is neither read nor sent.
    obtain ⟨alone, ok⟩ : ∃ alone, ofJson r (.object [(name, value)]) = .ok alone := by
      refine ⟨blank r, (ofJson_object_ok_iff (Members.distinct_singleton _ _)).mpr
        ⟨rfl, fun n q => ?_⟩⟩
      have differs : name ≠ n.name := fun same => member (same ▸ List.mem_map_of_mem q.mem)
      rw [Members.find?_cons, if_neg differs, blank, Fields.get_blank]
      exact ⟨Resource.isMandatory_eq_false q.mem, rfl⟩
    refine ⟨alone, ok, ?_⟩
    rw [find?_members_foreign s' member, find?_members_foreign alone member]

/-- An update is an overlay. What the answer spares stays as it was, except below an item whose type
it changes; and each member that the answer gives, if it is not laid over an object, becomes what it
would be in a snapshot read from that member alone. -/
theorem update_overlays (ordered : (Json.object answer).Ordered)
    (updated : s.update (.object answer) = .ok s') :
    (∀ path, Json.Spares s.toJson (.object answer) path →
      ¬ s.datum.Retyped (.object answer) path → s'.toJson.at? path = s.toJson.at? path) ∧
    (∀ name value, Members.find? name answer = some value → value ≠ .null →
      (value.isObject && (s.toJson.at? [name]).any Json.isObject) = false →
      ∃ alone, ofJson r (.object [(name, value)]) = .ok alone ∧
        s'.toJson.at? [name] = alone.toJson.at? [name]) := by
  refine ⟨fun path spared sameType => at?_update ordered updated spared sameType,
    fun name value given notNull apart => ?_⟩
  refine at?_update_given ordered.1.distinct updated given ?_
  -- A path of one name leads to the member of that name.
  have known : s.toJson.at? [name] = Members.find? name s.members := by
    rw [toJson_eq, Json.at?_object]
    cases Members.find? name s.members <;> simp
  rw [known] at apart
  exact Json.overlaid_of_apart notNull apart

/-- The name is the fourth member of a file. -/
theorem fileName_listed : Resource.file.kind.members[3]? = some (textMember "name") := rfl

/-- A file of which a name and an owner are known. -/
def ownedFile : Snapshot .file where
  fields := ((Fields.blank _).set (.ofIndex _ 3 fileName_listed)
    (.given (.leaf (l := .text) "draft"))).set (.ofIndex _ 12 rfl) (.given (.record (k := .user)
      (.cons (.given (.leaf (l := .text) "7")) (.cons .absent
        (.cons (.given (.leaf (l := .text) "ann@example.com")) .nil)))))
  pending := []

/-- An answer with a new name and a new owner keeps what it says nothing of, one level down. -/
theorem update_ownedFile : ∃ s' : Snapshot .file,
    ownedFile.update (.object [("name", .text "final"), ("owned_by", .object [("id", .text "8")])])
      = .ok s' ∧
    s'.toJson.at? ["owned_by", "login"] = ownedFile.toJson.at? ["owned_by", "login"] ∧
    ∃ alone, ofJson .file (.object [("name", .text "final")]) = .ok alone ∧
      s'.toJson.at? ["name"] = alone.toJson.at? ["name"] := by
  have ordered : (Json.object [("name", .text "final"),
      ("owned_by", .object [("id", .text "8")])]).Ordered :=
    ⟨by decide, trivial, ⟨by decide, trivial, trivial⟩, trivial⟩
  obtain ⟨s', updated⟩ : ∃ s', ownedFile.update (.object [("name", .text "final"),
      ("owned_by", .object [("id", .text "8")])]) = .ok s' := ⟨_, rfl⟩
  -- The owner is in both documents, and the answer leaves out what is asked for inside it.
  exact ⟨s', updated, (update_overlays ordered updated).1 _ (.through rfl rfl (.last rfl))
    (Datum.not_retyped rfl), (update_overlays ordered updated).2 "name" _ rfl Json.noConfusion rfl⟩

end Snapshot

end ContentApi
