import ContentApi.Proofs.Calendar.Timestamps
import ContentApi.Proofs.Schema.Grants
import ContentApi.Proofs.Schema.Items
import ContentApi.Proofs.Schema.Writing

/-! A typed document is read back from what it is written as, with its instants to the second. -/

namespace ContentApi

/-- Whether every value of a leaf is sent, and none is sent as null. -/
def Leaf.isPresent : Leaf → Bool
  | .text | .flag | .count | .word _ => true
  | _ => false

/-- Whether a leaf has values of its own and not just any document. -/
def Leaf.isTyped : Leaf → Bool
  | .untyped | .properties => false
  | _ => true

mutual

/-- Whether a shape has no place for just any document. -/
def Shape.isTyped : Shape → Bool
  | .leaf l => l.isTyped
  | .record k => k.isTyped
  | .item => true

/-- Whether a kind of record has no place for just any document. -/
def Kind.isTyped : Kind → Bool
  | .collection entry | .offsetPage entry => entry.isTyped
  | .page _ => false
  | _ => true

end

/-- Whether what a record holds for a member can be told from what is sent for it. -/
def Member.isTyped : Member → Bool
  | .optional _ (.leaf l) | .mandatory _ l => l.isPresent
  | .optional _ shape | .entries _ shape | .omittable _ shape => shape.isTyped
  | .plain _ l => l.isTyped

/-- The members of a typed kind of record are typed. -/
theorem Kind.isTyped_members {k : Kind} (typed : k.isTyped = true) {m : Member}
    (member : m ∈ k.members) : m.isTyped = true := by
  -- The members of each kind are listed, so they are checked one by one.
  have all : ∀ n ∈ k.members, n.isTyped = true := by
    cases k <;> simp_all [Kind.members, Kind.extendsItem, Kind.ownMembers, itemMembers, textMember,
      flagMember, countMember, instantMember, wordMember, recordMember, Member.isTyped,
      Kind.isTyped, Shape.isTyped, Leaf.isTyped, Leaf.isPresent]
  exact all m member

/-- Items are typed. -/
theorem ItemKind.isTyped_kind (k : ItemKind) : k.kind.isTyped = true := by
  cases k <;> rfl

/-- What is left of a value when it is sent. -/
def Leaf.settled : (l : Leaf) → l.Carrier → l.Carrier
  | .instant, t => t.map Timestamp.settled
  | .text, value | .flag, value | .count, value | .word _, value | .days, value | .grants, value
  | .untyped, value | .properties, value => value

mutual

/-- What is left of a typed document when it is sent. -/
def Datum.settled : {s : Shape} → Datum s → Datum s
  | _, .leaf (l := l) value => .leaf (l.settled value)
  | _, .record fields => .record fields.settled
  | _, .item k fields => .item k fields.settled

/-- What is left of typed documents when they are sent. -/
def Items.settled : {s : Shape} → Items s → Items s
  | _, .nil => .nil
  | _, .cons first rest => .cons first.settled rest.settled

/-- What is left for a member when a record is sent. -/
def Slot.settled : {m : Member} → Slot m → Slot m
  | _, .absent => .absent
  | _, .given value => .given value.settled
  | _, .plain (l := l) value => .plain (l.settled value)
  | _, .entries items => .entries items.settled
  | _, .omittable items => .omittable items.settled
  | _, .mandatory (l := l) value => .mandatory (l.settled value)

/-- What is left of a record when it is sent. -/
def Fields.settled : {ms : List Member} → Fields ms → Fields ms
  | _, .nil => .nil
  | _, .cons slot rest => .cons slot.settled rest.settled

end

/-- What is left of a record when it is sent is what is left for each member. -/
@[simp] theorem Fields.get_settled {m : Member} : {ms : List Member} → (fields : Fields ms) →
    (p : Place m ms) → fields.settled.get p = (fields.get p).settled
  | _ :: _, .cons slot rest, .here => by rw [settled, get, get]
  | _ :: _, .cons slot rest, .there p => by rw [settled, get, get, get_settled rest p]

/-- What is left of a value when it is sent is sent the same way. -/
theorem Leaf.write_settled : (l : Leaf) → (value : l.Carrier) →
    l.write (l.settled value) = l.write value
  -- Only an instant loses something when it is sent, and what is left of it is sent alike.
  | .instant, none => rfl
  | .instant, some t => by
    have same : t.settled.format = t.format := t.format_settled
    simp [settled, write, same]
  | .text, _ | .flag, _ | .count, _ | .word _, _ | .days, _ | .grants, _ | .untyped, _
  | .properties, _ => rfl

section

variable {arrange : Members → Members}

mutual

/-- What is left of a typed document when it is sent is sent the same way. -/
theorem Datum.write_settled : {s : Shape} → (d : Datum s) →
    d.settled.write arrange = d.write arrange
  | _, .leaf (l := l) value => by rw [Datum.settled, Datum.write, Datum.write, l.write_settled]
  | _, .record fields => by rw [Datum.settled, Datum.write, Datum.write, fields.write_settled]
  | _, .item k fields => by rw [Datum.settled, Datum.write, Datum.write, fields.write_settled]

/-- What is left of typed documents when they are sent is sent the same way. -/
theorem Items.write_settled : {s : Shape} → (items : Items s) →
    items.settled.write arrange = items.write arrange
  | _, .nil => rfl
  | _, .cons first rest => by
    rw [Items.settled, Items.write, Items.write, first.write_settled, rest.write_settled]

/-- What is left for a member when a record is sent is sent the same way. -/
theorem Slot.write_settled : {m : Member} → (slot : Slot m) →
    slot.settled.write arrange = slot.write arrange
  -- What is held is written as a document of its own, or left out.
  | _, .absent => rfl
  | _, .given value => by rw [Slot.settled, Slot.write, Slot.write, value.write_settled]
  | _, .plain (l := l) value => by rw [Slot.settled, Slot.write, Slot.write, l.write_settled]
  | _, .entries items => by rw [Slot.settled, Slot.write, Slot.write, items.write_settled]
  | _, .omittable items => by rw [Slot.settled, Slot.write, Slot.write, items.write_settled]
  | _, .mandatory (l := l) value => by rw [Slot.settled, Slot.write, Slot.write, l.write_settled]

/-- What is left of a record when it is sent is sent the same way. -/
theorem Fields.write_settled : {ms : List Member} → (fields : Fields ms) →
    fields.settled.write arrange = fields.write arrange
  | _, .nil => rfl
  | _, .cons slot rest => by
    rw [Fields.settled, Fields.write, Fields.write, slot.write_settled, rest.write_settled]

end

end

namespace Leaf

/-- A value that is never sent as null is sent. -/
theorem exists_write {l : Leaf} (present : l.isPresent = true) (value : l.Carrier) :
    ∃ written, l.write value = some written ∧ written ≠ .null := by
  -- A leaf whose value may be missing is no present one, and the others write their value.
  cases l with
  | text | flag | count | word => exact ⟨_, rfl, Json.noConfusion⟩
  | instant | days | grants | untyped | properties => cases present

/-- A leaf all of whose values are sent is typed. -/
theorem isTyped_of_isPresent {l : Leaf} (present : l.isPresent = true) : l.isTyped = true := by
  cases l with
  | text | flag | count | word => rfl
  | instant | days | grants | untyped | properties => cases present

/-- A value that is left out is the absent one. -/
theorem settled_of_write {l : Leaf} {value : l.Carrier} (left : l.write value = none) :
    l.settled value = l.absent := by
  -- Only three leaves are ever left out, and each of them is then the absent one.
  cases l with
  | instant | days | grants =>
    cases value with
    | none => rfl
    | some value => cases left
  | text | flag | count | word | untyped | properties => cases left

variable {mode : Mode}

/-- A count is read back from the number that it is sent as. -/
theorem readCount_ofNat (n : UInt64) :
    readCount (Doc.ofJson (.number (.integer n.toNat))) = .ok n := by
  -- The greatest number that is counted fits what it is read into.
  have inRange : 0 ≤ (n.toNat : Int) ∧ (n.toNat : Int) < (Nat.pow 2 64 : Nat) := by
    have small := n.toNat_lt
    show 0 ≤ (n.toNat : Int) ∧ (n.toNat : Int) < (18446744073709551616 : Nat)
    omega
  rw [Doc.ofJson, readCount, if_pos inRange, Int.toNat_natCast, UInt64.ofNat_toNat]

variable (mode) in
/-- A number of days is read back from the number that it is sent as. -/
theorem readDays_ofNat (n : UInt32) :
    readDays mode (Doc.ofJson (.number (.integer n.toNat))) = .ok (some n) := by
  -- The number of days fits, so that it is not taken for another one.
  have inRange : 0 ≤ (n.toNat : Int) ∧ (n.toNat : Int) < (Nat.pow 2 32 : Nat) := by
    have small := n.toNat_lt
    show 0 ≤ (n.toNat : Int) ∧ (n.toNat : Int) < (4294967296 : Nat)
    omega
  simp only [Doc.ofJson, readDays, Doc.toJson, daysOf?]
  rw [if_pos inRange, Int.toNat_natCast, UInt32.ofNat_toNat]

variable (mode) in
/-- A word is read back from its text, however it is read. -/
theorem readWord_text {v : Vocabulary} (w : Word v) :
    readWord v mode (Doc.ofJson (.text w.text)) = .ok w := by
  rw [Doc.ofJson, readWord, Word.ofText_text]

/-- An instant is read back to the second from its text. -/
theorem readInstant_text (t : Timestamp) :
    readInstant (Doc.ofJson (.text t.format)) = .ok (some t.settled) := by
  -- The text is not empty, so it is parsed as an instant.
  simp [Doc.ofJson, readInstant, readText, t.isEmpty_format, t.parse_format, Bind.bind, Except.bind,
    Pure.pure, Except.pure]

/-- A value is read back from what it is sent as, or from null if it is left out. -/
theorem read_write (unlimited : mode.room = none) {l : Leaf} (typed : l.isTyped = true)
    (value : l.Carrier) :
    l.read mode (Doc.ofJson ((l.write value).getD .null)) = .ok (l.settled value) := by
  -- Each leaf has its own reader, which undoes its own writer.
  cases l with
  | text | flag => rfl
  | count => exact readCount_ofNat value
  | word v => exact readWord_text mode value
  | instant =>
    cases value with
    | none => rfl
    | some t => exact readInstant_text t
  | days =>
    cases value with
    | none => simp [write, Doc.ofJson, read, readDays, Doc.toJson, daysOf?, settled]
    | some n => exact readDays_ofNat mode n
  | grants =>
    cases value with
    | none => rfl
    | some g =>
      simp [write, Doc.ofJson, read, readGrants, settled, Mode.enter_of_unlimited unlimited,
        g.readGrantMembers_toMembers, discard, Functor.discard, Functor.mapConst, Except.map,
        Function.comp, Bind.bind, Except.bind, Pure.pure, Except.pure]
  | untyped | properties => cases typed

end Leaf

/-- A document that an optional member holds is not sent as null. -/
theorem Datum.write_ne_null {name : String} {s : Shape}
    (typed : (Member.optional name s).isTyped = true) (d : Datum s) :
    d.write Members.sorted ≠ .null := by
  -- Records and items are sent as objects.
  cases d with
  | leaf value =>
    obtain ⟨written, sent, notNull⟩ := Leaf.exists_write typed value
    rw [Datum.write, sent]
    exact notNull
  | record fields => exact Json.noConfusion
  | item k fields => exact Json.noConfusion

/-- The shape of an optional member that is typed is typed. -/
theorem Member.isTyped_shape {name : String} {s : Shape}
    (typed : (Member.optional name s).isTyped = true) : s.isTyped = true := by
  -- More is asked of a leaf here, as null would stand for the absence of the member.
  cases s with
  | leaf l => exact Leaf.isTyped_of_isPresent typed
  | record k => exact typed
  | item => rfl

/-- What is set aside is read without a limit, as the rest is. -/
theorem Kind.room_memberMode {k : Kind} {mode : Mode} (unlimited : mode.room = none) (m : Member) :
    (k.memberMode mode m).room = none := by
  -- What is set aside has no limit of its own.
  rw [Kind.memberMode]
  split
  · rfl
  · exact unlimited

/-- The type of an item is not one of its members. -/
theorem ItemKind.type_not_mem (k : ItemKind) : "type" ∉ k.kind.members.map Member.name := by
  cases k <;> decide

/-- An item whose type is written before its members is written with distinct names. -/
theorem ItemKind.distinct_write (k : ItemKind) (fields : Fields k.kind.members) :
    Members.Distinct (("type", .text k.tag) :: fields.write Members.sorted) :=
  -- No member of an item is called by the name that its type is written under.
  List.nodup_cons.mpr ⟨fun written => k.type_not_mem (fields.names_write.subset written),
    fields.distinct_write k.kind.members_distinct⟩

/-- Under the name of a member of an item stands what is written for it. -/
theorem ItemKind.find?_write (k : ItemKind) (fields : Fields k.kind.members) {m : Member}
    (p : Place m k.kind.members) :
    Members.find? m.name (Members.sorted (("type", .text k.tag) :: fields.write Members.sorted)) =
      (fields.get p).write Members.sorted := by
  -- The type, which is written in front, is no member of its own.
  have differs : "type" ≠ m.name := fun same =>
    k.type_not_mem (same ▸ List.mem_map_of_mem p.mem)
  rw [Members.find?_sorted m.name (k.distinct_write fields), Members.find?_cons, if_neg differs,
    fields.find?_write k.kind.members_distinct]

/-- Under the name of its type stands the tag of an item. -/
theorem ItemKind.find?_type (k : ItemKind) (fields : Fields k.kind.members) :
    Members.find? "type" (Members.sorted (("type", .text k.tag) :: fields.write Members.sorted)) =
      some (.text k.tag) := by
  -- Sorting keeps what is found under a name, as the names are distinct.
  rw [Members.find?_sorted "type" (k.distinct_write fields), Members.find?_cons, if_pos rfl]

/-- A leaf is read by its own reader, whatever stands there. -/
theorem readDatum_leaf (mode : Mode) (l : Leaf) (doc : Doc) :
    readDatum mode (.leaf l) doc = (l.read mode doc).map .leaf := by
  cases doc <;> simp [readDatum]

/-- A list is read item by item. -/
theorem readItems_array {mode : Mode} (unlimited : mode.room = none) (s : Shape)
    (values : List Json) :
    readItems mode s (Doc.ofJson (.array values)) = readEach mode s (DocItems.ofJson values) := by
  -- Without a limit there is always room for one level more.
  rw [Doc.ofJson, readItems, Mode.enter_of_unlimited unlimited]
  rfl

mutual

/-- A typed document is read back from what it is sent as, with its instants to the second. -/
theorem Datum.read_write : {s : Shape} → (d : Datum s) → s.isTyped = true → {mode : Mode} →
    mode.room = none → readDatum mode s (Doc.ofJson (d.write Members.sorted)) = .ok d.settled
  | _, .leaf value, typed, mode, unlimited => by
    rw [Datum.write, Datum.settled, readDatum_leaf, Leaf.read_write unlimited typed value]
    rfl
  | _, .record (k := k) fields, typed, mode, unlimited => by
    rw [Datum.write, Datum.settled]
    -- A record is sent in the order of its names, and read by them, so that the order does not
    -- matter.
    refine (readDatum_record_ok_iff unlimited (Members.ascending_sorted _).distinct).mpr
      fun m p => ?_
    rw [Datum.find?_toJson k.members_distinct, Fields.get_settled]
    exact fields.readFrom_write (fun m member => Kind.isTyped_members typed member) p
      (Kind.room_memberMode unlimited m)
  | _, .item k fields, typed, mode, unlimited => by
    rw [Datum.write, Datum.settled]
    -- The type of an item is sent with its members, and is what decides how they are read.
    refine (readDatum_item_ok_iff unlimited (Members.ascending_sorted _).distinct).mpr
      ⟨k.find?_type fields, fun m p => ?_⟩
    rw [k.find?_write, Fields.get_settled]
    exact fields.readFrom_write (fun m member => Kind.isTyped_members k.isTyped_kind member) p rfl

/-- Typed documents are read back from what they are sent as. -/
theorem Items.read_write : {s : Shape} → (items : Items s) → s.isTyped = true → {mode : Mode} →
    mode.room = none →
    readEach mode s (DocItems.ofJson (items.write Members.sorted)) = .ok items.settled
  -- The recursion is on the items, each of which is read where it was written.
  | _, .nil, _, mode, _ => by
    simp [Items.write, DocItems.ofJson, readEach, Stop.read, Cut.lift, Items.settled, Bind.bind,
      Except.bind, Pure.pure, Except.pure]
  | _, .cons first rest, typed, mode, unlimited => by
    simp [Items.write, DocItems.ofJson, readEach, Items.settled, first.read_write typed unlimited,
      rest.read_write typed unlimited, Bind.bind, Except.bind, Pure.pure, Except.pure]

/-- What a record holds for a member is read back from what is sent for it. -/
theorem Slot.readFrom_write : {m : Member} → (slot : Slot m) → m.isTyped = true → {mode : Mode} →
    mode.room = none → slot.settled.ReadFrom mode (slot.write Members.sorted)
  | _, .absent, _, _, _ => ⟨rfl, rfl⟩
  | _, .given value, typed, mode, unlimited => by
    have read := value.read_write (Member.isTyped_shape typed) unlimited
    have notNull := Datum.write_ne_null typed value
    rw [Slot.write, Slot.ReadFrom, readMember, Slot.settled]
    -- Only null would stand for the absence of the member.
    cases written : value.write Members.sorted with
    | null => exact absurd written notNull
    | flag | number | text | array | object =>
      rw [written] at read
      simp only [Doc.ofJson] at read ⊢
      simp only [readSlot, read, Except.map]
  | _, .plain (l := l) value, typed, mode, unlimited => by
    have read := Leaf.read_write unlimited typed value
    rw [Slot.write, Slot.settled]
    cases written : l.write value with
    | none => exact ⟨rfl, by rw [Leaf.settled_of_write written]; rfl⟩
    | some sent =>
      rw [written, Option.getD_some] at read
      simp only [Slot.ReadFrom, readMember, readSlot, read, Except.map]
  | _, .entries items, typed, mode, unlimited => by
    have read := items.read_write typed unlimited
    simp only [Slot.write, Slot.settled, Slot.ReadFrom, readMember, readSlot,
      readItems_array unlimited, read, Except.map]
  | _, .omittable items, typed, mode, unlimited => by
    have read := items.read_write typed unlimited
    rw [Slot.write, Slot.settled]
    cases items with
    | nil => exact ⟨rfl, rfl⟩
    | cons first rest =>
      rw [Items.write] at read ⊢
      simp only [Slot.ReadFrom, readMember, readSlot, readItems_array unlimited, read, Except.map]
      rfl
  | _, .mandatory value, typed, mode, unlimited => by
    have read := Leaf.read_write unlimited (Leaf.isTyped_of_isPresent typed) value
    obtain ⟨written, sent, -⟩ := Leaf.exists_write typed value
    rw [sent, Option.getD_some] at read
    simp only [Slot.write, sent, Slot.settled, Slot.ReadFrom, readMember, readSlot, read,
      Except.map]

/-- What a record holds for each member is read back from what is sent for it. -/
theorem Fields.readFrom_write {m : Member} : {ms : List Member} → (fields : Fields ms) →
    (∀ m ∈ ms, m.isTyped = true) → (p : Place m ms) → {mode : Mode} → mode.room = none →
    (fields.get p).settled.ReadFrom mode ((fields.get p).write Members.sorted)
  -- The place is followed to the member, whose value is read back by itself.
  | _ :: _, .cons slot _, typed, .here, _, unlimited =>
    slot.readFrom_write (typed _ List.mem_cons_self) unlimited
  | _ :: _, .cons _ rest, typed, .there p, _, unlimited =>
    rest.readFrom_write (fun m member => typed m (List.mem_cons_of_mem _ member)) p unlimited

end

end ContentApi
