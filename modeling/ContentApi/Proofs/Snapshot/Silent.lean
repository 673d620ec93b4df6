import ContentApi.Proofs.Operation.Changes
import ContentApi.Proofs.Snapshot.Drafts

/-! An answer that says nothing of an object leaves it as it was, but for the parts of seconds. -/

namespace ContentApi

/-- Whether an answer says nothing of an object of a kind: it is null, or it has no member with a
value that such an object has. -/
def Json.Silent (k : Kind) (answer : Json) : Prop :=
  answer = .null ∨ ∃ members, answer = .object members ∧
    ∀ member ∈ members, member.2 = .null ∨ member.1 ∉ k.members.map Member.name

/-- Whether an instant is the start of a second, the second of sixty included. -/
def Timestamp.IsWhole (t : Timestamp) : Prop :=
  t.nanos = 0 ∨ t.nanos = 1000000000 ∧ t.seconds % 60 = 59

/-- Whether a value is no instant within a second. -/
def Leaf.IsWhole : (l : Leaf) → l.Carrier → Prop
  | .instant, t => ∀ instant ∈ t, instant.IsWhole
  | _, _ => True

mutual

/-- Whether a typed document has no instant within a second. -/
def Datum.IsWhole : {s : Shape} → Datum s → Prop
  | _, .leaf (l := l) value => l.IsWhole value
  | _, .record fields => fields.IsWhole
  | _, .item _ fields => fields.IsWhole

/-- Whether no document of a list has an instant within a second. -/
def Items.IsWhole : {s : Shape} → Items s → Prop
  | _, .nil => True
  | _, .cons first rest => first.IsWhole ∧ rest.IsWhole

/-- Whether a record has no instant within a second for a member. -/
def Slot.IsWhole : {m : Member} → Slot m → Prop
  | _, .absent => True
  | _, .given value => value.IsWhole
  | _, .plain (l := l) value => l.IsWhole value
  | _, .entries items => items.IsWhole
  | _, .omittable items => items.IsWhole
  | _, .mandatory (l := l) value => l.IsWhole value

/-- Whether a record has no instant within a second. -/
def Fields.IsWhole : {ms : List Member} → Fields ms → Prop
  | _, .nil => True
  | _, .cons slot rest => slot.IsWhole ∧ rest.IsWhole

end

/-- An instant is told by its seconds and its nanoseconds. -/
theorem Timestamp.eq_iff {t u : Timestamp} :
    t = u ↔ t.seconds = u.seconds ∧ t.nanos = u.nanos := by
  obtain ⟨seconds, nanos, isInstant⟩ := t
  obtain ⟨seconds', nanos', isInstant'⟩ := u
  simp

/-- An instant is left as it is when it is sent exactly if it is the start of a second. -/
theorem Timestamp.settled_eq_iff (t : Timestamp) : t.settled = t ↔ t.IsWhole := by
  rw [Timestamp.eq_iff, IsWhole]
  -- What is left is a second, a leap second, or the second after one that was overrun.
  rcases t.nanos_cases with within | leap | overrun
  · rw [(settled_of_lt within).1, (settled_of_lt within).2]
    omega
  · obtain ⟨long, ends⟩ := leap
    rw [(settled_of_isLeap ⟨long, ends⟩).1, (settled_of_isLeap ⟨long, ends⟩).2]
    omega
  · obtain ⟨long, inside⟩ := overrun
    rw [(settled_of_isOverrun ⟨long, inside⟩).1, (settled_of_isOverrun ⟨long, inside⟩).2]
    omega

/-- A value is left as it is when it is sent exactly if it is no instant within a second. -/
theorem Leaf.settled_eq_iff (l : Leaf) (value : l.Carrier) :
    l.settled value = value ↔ l.IsWhole value := by
  -- Only an instant may lose something, and does so if it is within a second.
  cases l with
  | instant =>
    cases value with
    | none => simp [settled, IsWhole]
    | some t => simp [settled, IsWhole, t.settled_eq_iff]
  | text | flag | count | word | days | grants | untyped | properties => simp [settled, IsWhole]

mutual

/-- A typed document is left as it is when it is sent exactly if no instant is within a second. -/
theorem Datum.settled_eq_iff : {s : Shape} → (d : Datum s) → (d.settled = d ↔ d.IsWhole)
  | _, .leaf (l := l) value => by simp [Datum.settled, Datum.IsWhole, l.settled_eq_iff]
  | _, .record fields => by simp [Datum.settled, Datum.IsWhole, fields.settled_eq_iff]
  | _, .item k fields => by simp [Datum.settled, Datum.IsWhole, fields.settled_eq_iff]

/-- Documents are left as they are when they are sent exactly if no instant is within a second. -/
theorem Items.settled_eq_iff : {s : Shape} → (items : Items s) →
    (items.settled = items ↔ items.IsWhole)
  | _, .nil => by simp [Items.settled, Items.IsWhole]
  | _, .cons first rest => by
    simp [Items.settled, Items.IsWhole, first.settled_eq_iff, rest.settled_eq_iff]

/-- A member is left as it is when it is sent exactly if no instant is within a second. -/
theorem Slot.settled_eq_iff : {m : Member} → (slot : Slot m) →
    (slot.settled = slot ↔ slot.IsWhole)
  -- What is held is left as it is if all of it is.
  | _, .absent => by simp [Slot.settled, Slot.IsWhole]
  | _, .given value => by simp [Slot.settled, Slot.IsWhole, value.settled_eq_iff]
  | _, .plain (l := l) value => by simp [Slot.settled, Slot.IsWhole, l.settled_eq_iff]
  | _, .entries items => by simp [Slot.settled, Slot.IsWhole, items.settled_eq_iff]
  | _, .omittable items => by simp [Slot.settled, Slot.IsWhole, items.settled_eq_iff]
  | _, .mandatory (l := l) value => by simp [Slot.settled, Slot.IsWhole, l.settled_eq_iff]

/-- A record is left as it is when it is sent exactly if no instant is within a second. -/
theorem Fields.settled_eq_iff : {ms : List Member} → (fields : Fields ms) →
    (fields.settled = fields ↔ fields.IsWhole)
  | _, .nil => by simp [Fields.settled, Fields.IsWhole]
  | _, .cons slot rest => by
    simp [Fields.settled, Fields.IsWhole, slot.settled_eq_iff, rest.settled_eq_iff]

end

/-- A record on which an answer is overlaid that says nothing of it is read as what is left of it
when it is sent. -/
theorem Datum.ofJson_overlay_silent {k : Kind} (typed : k.isTyped = true) {answer : Json}
    (silent : answer.Silent k) (d : Datum (.record k)) :
    ofJson (.record k) (d.toJson.overlay answer) = .ok d.settled := by
  rcases silent with rfl | ⟨members, rfl, unsaid⟩
  · rw [Json.overlay, ofJson, toJson, d.read_write typed rfl]
  · cases d with
    | record fields =>
    rw [toJson, write, Json.overlay_object, ofJson, settled]
    have merged := Members.ascending_overlay
      (Members.ascending_sorted (fields.write Members.sorted)) members
    -- A record is read if each of its members is, from what is found under its name.
    refine (readDatum_record_ok_iff rfl merged.distinct).mpr fun m p => ?_
    -- Whatever has the name of a member is null, so that the member is found as it was sent.
    have nulls : ∀ member ∈ members, member.1 = m.name → member.2 = .null := by
      intro member inside same
      exact (unsaid member inside).resolve_right fun foreign =>
        foreign (same ▸ List.mem_map_of_mem p.mem)
    rw [Members.find?_overlay_of_nulls nulls, find?_toJson k.members_distinct,
      Fields.get_settled]
    exact fields.readFrom_write (fun m member => Kind.isTyped_members typed member) p
      (Kind.room_memberMode rfl m)

namespace Draft

variable {r : Resource}

/-- Overlays an answer on a document about an object and drops the changes to every object in it. -/
def update (x : Draft (.record r.kind)) (answer : Json) : Except Fault (Draft (.record r.kind)) :=
  ofJson (.record r.kind) (x.toJson.overlay answer)

/-- A snapshot is updated as the document about its object is. -/
theorem snapshot_update (x : Draft (.record r.kind)) (answer : Json) :
    (x.update answer).map snapshot = x.snapshot.update answer := by
  rw [update, snapshot_ofJson, Snapshot.update, toJson_snapshot]

end Draft

namespace Snapshot

variable {r : Resource} {σ : Type}

/-- An answer that says nothing leaves of a snapshot what is left when it is sent. -/
theorem update_of_silent {answer : Json} (silent : answer.Silent r.kind) (s : Snapshot r) :
    s.update answer = .ok s.settled := by
  -- What is laid over by a silent answer is read back as what was sent.
  rw [update, ofJson, toJson, Datum.ofJson_overlay_silent r.isTyped_kind silent]
  rfl

/-- An answer of success that says nothing, or has no body, leaves of a snapshot what is left when
it is sent. -/
theorem afterAnswer_of_silent {answer : Json} (silent : answer.Silent r.kind)
    {response : Response} (success : response.isSuccess = true)
    (carries : response.isBlank = true ∨ response.json = .ok answer) (s : Snapshot r) :
    s.afterAnswer (some response) = .ok s.settled := by
  rw [afterAnswer, if_pos success]
  rcases carries with blank | read
  · -- Where there is no body, null is read.
    rw [Response.json, if_pos blank, Except.bind, update_of_silent (Or.inl rfl)]
    rfl
  · rw [read, Except.bind, update_of_silent silent]
    rfl

/-- An answer that says nothing changes nothing but the parts of seconds. It is always accepted, by
an update and by the changes that are sent; it empties the changes, those to objects inside the
snapshot too; and it leaves each member as it was exactly if no instant is within a second. -/
theorem update_silent {answer : Json} (silent : answer.Silent r.kind) :
    (∀ s : Snapshot r, s.update answer = .ok s.settled ∧
      (s.settled.fields = s.fields ↔ s.fields.IsWhole)) ∧
    (∀ x : Draft (.record r.kind), x.update answer = .ok x.settled ∧
      (x.update answer).map Draft.snapshot = x.snapshot.update answer) ∧
    ∀ (h : Handle r) (editable : r.isEditable = true) (url : Url) (s : Snapshot r)
      (transport : Transport σ) (world : σ) (response : Response),
      h.changeUrl editable = .ok url →
      (transport.exchange (h.changeRequest url s) world).1 = some response →
      response.isSuccess = true → (response.isBlank = true ∨ response.json = .ok answer) →
      h.sendChanges s transport world editable =
        (.ok (), s.settled, (transport.exchange (h.changeRequest url s) world).2) := by
  refine ⟨fun s => ⟨update_of_silent silent s, s.fields.settled_eq_iff⟩, fun x => ?_,
    fun h editable url s transport world response address answered success carries => ?_⟩
  -- An update of a draft goes by its record, so the changes at every depth are gone with it.
  · refine ⟨?_, x.snapshot_update answer⟩
    rw [Draft.update, Draft.ofJson, Draft.toJson,
      x.known.ofJson_overlay_silent r.isTyped_kind silent]
    rfl
  · rw [Handle.sendChanges_ok address]
    simp only [answered, afterAnswer_of_silent silent success carries]
    rfl

/-- The middle of the first second of the year 2020. -/
def halfSecond : Timestamp := ⟨1577836800, 500000000, by decide⟩

/-- A file that was made half a second into a year. -/
def datedFile : Snapshot .file where
  -- The seventh member of a file is when it was made.
  fields := (Fields.blank _).set (.ofIndex _ 6 rfl) (.plain (l := .instant) (some halfSecond))
  pending := [("name", .text "final")]

/-- An answer with a null name and a member that no file has is as good as none at all. -/
theorem update_datedFile :
    let answer := Json.object [("name", .null), ("unheard_of", .flag true)]
    answer.Silent .file ∧ datedFile.update answer = .ok datedFile.settled ∧
      (Calls.someFile.sendChanges datedFile Calls.answering [some ⟨204, []⟩]).2.1 =
        datedFile.settled := by
  intro answer
  -- One member is null, and no file has the other.
  have silent : answer.Silent Resource.file.kind :=
    Or.inr ⟨_, rfl, List.forall_mem_cons.mpr ⟨Or.inl rfl, List.forall_mem_cons.mpr
      ⟨Or.inr (by decide), nofun⟩⟩⟩
  obtain ⟨updated, -, sent⟩ := update_silent (r := .file) silent
  -- The address is computed once, and the answer without a body is read as null.
  obtain ⟨url, address⟩ : ∃ url, Calls.someFile.changeUrl rfl = .ok url := ⟨_, by cbv⟩
  have after := sent Calls.someFile rfl url datedFile Calls.answering [some ⟨204, []⟩] ⟨204, []⟩
    address rfl rfl (Or.inl rfl)
  exact ⟨silent, (updated datedFile).1, by rw [after]⟩

/-- Not even the empty object leaves an instant within a second as it was. -/
theorem update_datedFile_differs : ∃ s', datedFile.update (.object []) = .ok s' ∧
    s'.fields ≠ datedFile.fields := by
  refine ⟨datedFile.settled, update_of_silent (Or.inr ⟨[], rfl, nofun⟩) _, fun same => ?_⟩
  -- If all members were the same, so would be when the file was made.
  have made := congrArg (Fields.get (.ofIndex _ 6 rfl)) same
  cases made

end Snapshot

end ContentApi
