import ContentApi.Proofs.Schema.Agreement
import ContentApi.Proofs.Schema.Nulls

/-! What a reader makes nothing of, unknown members and nulls that stand for absence, may be left
out of a document at every depth. -/

namespace ContentApi

/-- Whether a member may be missing, and may as well be null. -/
def Member.isOptional (m : Member) : Bool :=
  m.ignoresNull && !m.isMandatory

/-- What a value is read as: a document of a shape, or a list of them. -/
inductive Expected where
  | one (s : Shape)
  | list (s : Shape)

/-- What the value of a member is read as. -/
def Member.expected : Member → Expected
  | .optional _ s => .one s
  | .plain _ l | .mandatory _ l => .one (.leaf l)
  | .entries _ s | .omittable _ s => .list s

/-- The kind of item that a value names. -/
def Json.itemKind? : Json → Option ItemKind
  | .text tag => ItemKind.ofTag? tag
  | _ => none

/-- The members that are read of an item: its type, and those of the record that it is. -/
def ItemKind.taggedMembers (k : ItemKind) : List Member :=
  .mandatory "type" .text :: k.kind.members

mutual

/-- A document without what is not looked at when it is read: wherever an object is read as a
record, the members that the record does not know are left out, and so are nulls of members that
may be absent. Nothing else is left out. -/
def Json.pruned (expected : Expected) : Json → Json
  | .object members =>
    match expected with
    | .one (.record k) => .object (Members.pruned k.members members)
    | .one .item =>
      match (Members.find? "type" members).bind Json.itemKind? with
      | some k => .object (Members.pruned k.taggedMembers members)
      -- What is not known to be an item is read as no record.
      | none => .object members
    | _ => .object members
  | .array items =>
    match expected with
    | .one (.record k) =>
      if k.extendsItem then .array items else .array (Json.prunedRow k.members items)
    | .list s => .array (Json.prunedItems s items)
    | _ => .array items
  | value => value

/-- The items of a list of documents of a shape, each of them pruned. -/
def Json.prunedItems (s : Shape) : List Json → List Json
  | [] => []
  | item :: rest => item.pruned (.one s) :: Json.prunedItems s rest

/-- The values of a row, each of them pruned for the member at its place. -/
def Json.prunedRow : List Member → List Json → List Json
  | m :: ms, item :: rest => item.pruned m.expected :: Json.prunedRow ms rest
  | _, items => items

/-- The members of an object that a record knows and that tell it something, pruned themselves. -/
def Members.pruned (ms : List Member) : Members → Members
  | [] => []
  | (name, value) :: rest =>
    match locate? name ms with
    | none => Members.pruned ms rest
    | some found =>
      if value.isNull && found.member.isOptional then Members.pruned ms rest
      else (name, value.pruned found.member.expected) :: Members.pruned ms rest

end

/-- What is left of the value of a member, which is nothing of a null that stands for absence. -/
def Member.told? (m : Member) (value : Json) : Option Json :=
  if value.isNull && m.isOptional then none else some (value.pruned m.expected)

/-- A document is null once it is pruned only if it was. -/
theorem Json.isNull_pruned (expected : Expected) (value : Json) :
    (value.pruned expected).isNull = value.isNull := by
  -- Only arrays and objects change, and they stay what they are.
  cases value with
  | null | flag | number | text => simp [pruned]
  | array items =>
    rcases expected with (l | k | _) | s <;> simp only [pruned] <;> try rfl
    split <;> rfl
  | object members =>
    rcases expected with (l | k | _) | s <;> simp only [pruned] <;> try rfl
    split <;> rfl

/-- Nothing inside a leaf is left out. -/
theorem Json.pruned_leaf (l : Leaf) (value : Json) : value.pruned (.one (.leaf l)) = value := by
  cases value <;> simp [pruned]

namespace Members

/-- Among pruned members stand those that the record knows, as far as they tell it something. -/
theorem find?_pruned {ms : List Member} {members : Members} (distinct : members.Distinct)
    {name : String} {found : Located ms} (located : locate? name ms = some found) :
    find? name (pruned ms members) = (find? name members).bind found.member.told? := by
  induction members with
  | nil => rw [pruned]; rfl
  | cons member rest ih =>
    obtain ⟨key, value⟩ := member
    obtain ⟨single, others⟩ := List.nodup_cons.mp distinct
    rw [pruned, find?_cons]
    by_cases same : key = name
    · subst same
      rw [if_pos rfl, located, Option.bind_some, Member.told?]
      simp only
      split
      · -- What is left out here does not stand further on.
        rw [ih others, find?_eq_none single]
        rfl
      · rw [find?_cons, if_pos rfl]
    · rw [if_neg same]
      -- A member of another name is not found, whether it is left out or not.
      split
      · exact ih others
      · split
        · exact ih others
        · rw [find?_cons, if_neg same, ih others]

/-- The names of pruned members are among those of all members, in their order. -/
theorem names_pruned (ms : List Member) (members : Members) :
    ((pruned ms members).map Prod.fst).Sublist (members.map Prod.fst) := by
  -- The induction is on the members, each of which is kept or left out in its place.
  induction members with
  | nil => simp [pruned]
  | cons member rest ih =>
    obtain ⟨name, value⟩ := member
    rw [pruned]
    split
    · exact ih.cons _
    · split
      · exact ih.cons _
      · exact ih.cons_cons _

/-- Pruned members have names as distinct as before. -/
theorem Distinct.pruned {members : Members} (distinct : members.Distinct) (ms : List Member) :
    (pruned ms members).Distinct :=
  List.Nodup.sublist (names_pruned ms members) distinct

end Members

/-- Whether a value is read the same once it is pruned for what it is read as. -/
structure Json.ReadsPruned (value : Json) : Prop where
  datum : ∀ (mode : Mode) (s : Shape) (d : Datum s), mode.room = none →
    (readDatum mode s (Doc.ofJson value) = .ok d ↔
      readDatum mode s (Doc.ofJson (value.pruned (.one s))) = .ok d)
  items : ∀ (mode : Mode) (s : Shape) (items : Items s), mode.room = none →
    (readItems mode s (Doc.ofJson value) = .ok items ↔
      readItems mode s (Doc.ofJson (value.pruned (.list s))) = .ok items)

section

variable {mode : Mode} {value : Json} {members : Members}

/-- A member is read the same from its value once that is pruned. -/
theorem readMember_pruned (reads : value.ReadsPruned) (unlimited : mode.room = none) {m : Member}
    (slot : Slot m) :
    readMember mode value m = .ok slot ↔
      readMember mode (value.pruned m.expected) m = .ok slot := by
  cases m with
  | optional name s =>
    by_cases null : value.isNull = true
    · rw [Json.isNull_iff.mp null]
      simp only [Json.pruned]
    -- What is not null is read as a document.
    have notNull := Bool.eq_false_iff.mpr null
    obtain ⟨hold, given⟩ := exists_readMember_eq_map (m := .optional name s) rfl
    rw [given mode value notNull, given mode _ ((value.isNull_pruned _).trans notNull), map_ok_iff,
      map_ok_iff]
    simp only [reads.datum mode s _ unlimited, Member.expected]
  | plain name l | mandatory name l => rw [Member.expected, Json.pruned_leaf]
  | entries name s =>
    simp only [readMember, readSlot, map_ok_iff, reads.items mode s _ unlimited, Member.expected]
  | omittable name s =>
    have same := reads.items mode s
    cases value with
    | null | flag | number | text => simp only [Json.pruned]
    | array items =>
      simp only [readMember, readSlot, Doc.ofJson, Member.expected, Json.pruned, map_ok_iff]
        at same ⊢
      simp only [same _ unlimited]
    | object members => simp only [Member.expected, Json.pruned]

/-- What a record holds for a member is read the same from what its value tells. -/
theorem Slot.readFrom_told? {m : Member} {slot : Slot m} {found : Option Json}
    (reads : ∀ value, found = some value → value.ReadsPruned) (unlimited : mode.room = none) :
    slot.ReadFrom mode found ↔ slot.ReadFrom mode (found.bind m.told?) := by
  -- A member that is missing tells nothing on either side.
  cases found with
  | none => rfl
  | some value =>
    rw [Option.bind_some, Member.told?]
    split
    · -- A null that is left out stands where the member may be missing.
      next absent =>
      obtain ⟨null, ignored, optional⟩ := (Bool.and_eq_true_iff.trans
        (and_congr_right fun _ => Bool.and_eq_true_iff)).mp absent
      rw [Json.isNull_iff.mp null]
      exact readMember_null_of_optional (Bool.not_eq_true' _ ▸ optional) ignored
    · exact readMember_pruned (reads value rfl) unlimited slot

/-- A record is read the same from an object that is pruned for it. -/
theorem readDatum_record_pruned (distinct : members.Distinct)
    (reads : ∀ member ∈ members, member.2.ReadsPruned) (unlimited : mode.room = none) {k : Kind}
    (d : Datum (.record k)) :
    readDatum mode (.record k) (Doc.ofJson (.object members)) = .ok d ↔
      readDatum mode (.record k) (Doc.ofJson (.object (Members.pruned k.members members))) =
        .ok d := by
  -- Both sides are taken apart name by name, and what stands under each name tells the same.
  obtain ⟨fields⟩ := d
  rw [readDatum_record_ok_iff unlimited distinct,
    readDatum_record_ok_iff unlimited (distinct.pruned k.members)]
  refine forall_congr' fun m => forall_congr' fun p => ?_
  rw [Members.find?_pruned distinct (locate?_place k.members_distinct p)]
  exact Slot.readFrom_told? (fun value found => reads _ (Members.mem_of_find? found))
    (Kind.room_memberMode unlimited m)

/-- A value names a kind of item if it is the tag of that. -/
theorem Json.itemKind?_eq_some {k : ItemKind} : value.itemKind? = some k ↔ value = .text k.tag := by
  -- Of the values only a text is looked up as a tag.
  cases value with
  | text tag => rw [itemKind?, ItemKind.ofTag?_eq_some, Json.text.injEq]
  | null | flag | number | array | object => simp [itemKind?]

/-- The members of an item are found behind its type. -/
theorem ItemKind.locate?_taggedMembers (k : ItemKind) {m : Member} (p : Place m k.kind.members) :
    locate? m.name k.taggedMembers = some ⟨m, .there p⟩ := by
  -- No member of an item has the name of its type, so that the type is passed by.
  have differs : "type" ≠ m.name := fun same => k.type_not_mem (same ▸ List.mem_map_of_mem p.mem)
  refine (if_neg differs).trans ?_
  rw [locate?_place k.kind.members_distinct p]
  rfl

/-- An item is read the same from an object that is pruned for it. -/
theorem readDatum_item_pruned (distinct : members.Distinct)
    (reads : ∀ member ∈ members, member.2.ReadsPruned) (unlimited : mode.room = none)
    (d : Datum .item) :
    readDatum mode .item (Doc.ofJson (.object members)) = .ok d ↔
      readDatum mode .item (Doc.ofJson ((Json.object members).pruned (.one .item))) = .ok d := by
  cases d with | item k fields =>
  rw [Json.pruned]
  split
  · next named tagged =>
    obtain ⟨type, found, kind⟩ := Option.bind_eq_some_iff.mp tagged
    cases Json.itemKind?_eq_some.mp kind
    -- The type is told as it stands, and the record does not know it.
    have typeTold : Members.find? "type" (Members.pruned named.taggedMembers members) =
        some (.text named.tag) := by
      have located : locate? "type" named.taggedMembers =
          some ⟨.mandatory "type" .text, .here⟩ := rfl
      rw [Members.find?_pruned distinct located, found, Option.bind_some]
      exact congrArg some (Json.pruned_leaf .text _)
    rw [readDatum_item_ok_iff unlimited distinct,
      readDatum_item_ok_iff unlimited (distinct.pruned named.taggedMembers), typeTold, found]
    refine and_congr_right fun same => ?_
    obtain rfl : named = k := ItemKind.tag_inj (Json.text.inj (Option.some.inj same))
    refine forall_congr' fun m => forall_congr' fun p => ?_
    rw [Members.find?_pruned distinct (named.locate?_taggedMembers p)]
    exact Slot.readFrom_told? (fun value found => reads _ (Members.mem_of_find? found)) rfl
  · rfl

variable {items : List Json}

/-- A list is read the same once its items are pruned. -/
theorem readEach_pruned (reads : ∀ item ∈ items, item.ReadsPruned) (unlimited : mode.room = none)
    {s : Shape} (read : Items s) : readEach mode s (DocItems.ofJson items) = .ok read ↔
      readEach mode s (DocItems.ofJson (Json.prunedItems s items)) = .ok read := by
  -- The induction is on the items, which keep their places.
  induction items generalizing read with
  | nil => rw [Json.prunedItems]
  | cons item rest ih =>
    obtain ⟨first, others⟩ := List.forall_mem_cons.mp reads
    rw [Json.prunedItems, DocItems.ofJson, DocItems.ofJson, readEach, readEach]
    simp only [Bind.bind, bind_ok_iff, first.datum mode s _ unlimited, ih others]

/-- A row of values is read the same once each value is pruned for the member at its place. -/
theorem readRow_pruned (reads : ∀ item ∈ items, item.ReadsPruned) (unlimited : mode.room = none)
    {k : Kind} {total other index : Nat} {ms : List Member} (fields : Fields ms) :
    readRow mode k total index ms (DocItems.ofJson items) = .ok fields ↔
      readRow mode k other index ms (DocItems.ofJson (Json.prunedRow ms items)) = .ok fields := by
  induction items generalizing ms index with
  | nil => cases ms <;> rw [Json.prunedRow] <;> simp [DocItems.ofJson, readRow, readRowEnd]
  | cons item rest ih =>
    obtain ⟨first, others⟩ := List.forall_mem_cons.mp reads
    cases ms with
    | nil =>
      -- A value too many is a fault, whatever it is.
      simp only [Json.prunedRow, DocItems.ofJson]
      cases mode with
      | text room => cases unlimited
      | value | aside => simp [readRow, readRowEnd, Bind.bind, Except.bind]
    | cons m ms =>
      have same := readMember_pruned (m := m) first unlimited
      simp only [readMember] at same
      rw [Json.prunedRow, DocItems.ofJson, DocItems.ofJson, readRow, readRow]
      simp only [Bind.bind, bind_ok_iff, same, ih others]

/-- An array is read the same once it is pruned, if its items are. -/
theorem Json.readsPruned_array (reads : ∀ item ∈ items, item.ReadsPruned) :
    (Json.array items).ReadsPruned := by
  refine ⟨fun mode s d unlimited => ?_, fun mode s read unlimited => ?_⟩
  · -- A leaf keeps all of an array, and so does what refuses it in any case.
    cases s with
    | leaf l => rw [Json.pruned_leaf]
    | item => simp only [Json.pruned]
    | record k =>
      rw [Json.pruned]
      split
      · rfl
      · next whole =>
        rw [Doc.ofJson, Doc.ofJson, readDatum, readDatum]
        simp only [if_neg whole, Bind.bind, bind_ok_iff, Mode.enter_of_unlimited unlimited,
          Except.ok.injEq, exists_eq_left']
        exact exists_congr fun fields => and_congr_left fun _ =>
          readRow_pruned reads unlimited fields
  · rw [Json.pruned]
    rw [readItems_array unlimited, readItems_array unlimited]
    exact readEach_pruned reads unlimited read

/-- An object is read the same once it is pruned, if the values of its members are. -/
theorem Json.readsPruned_object (distinct : members.Distinct)
    (reads : ∀ member ∈ members, member.2.ReadsPruned) : (Json.object members).ReadsPruned := by
  refine ⟨fun mode s d unlimited => ?_, fun mode s read unlimited => by simp only [Json.pruned]⟩
  -- Each shape prunes an object in its own way: not at all, for its kind, or for the kind it names.
  cases s with
  | leaf l => rw [Json.pruned_leaf]
  | record k =>
    rw [Json.pruned]
    exact readDatum_record_pruned distinct reads unlimited d
  | item => exact readDatum_item_pruned distinct reads unlimited d

end

mutual

/-- An ordered value is read the same once it is pruned. -/
theorem Json.readsPruned : (value : Json) → value.Ordered → value.ReadsPruned
  -- The recursion is on the value; what has nothing inside is left as it is.
  | .null, _ | .flag _, _ | .number _, _ | .text _, _ =>
    ⟨fun _ _ _ _ => by simp only [Json.pruned], fun _ _ _ _ => by simp only [Json.pruned]⟩
  | .array items, ordered => Json.readsPruned_array (Json.readsPruned_items items ordered)
  | .object members, ordered =>
    Json.readsPruned_object ordered.1.distinct (Json.readsPruned_members members ordered.2)

/-- Ordered items are read the same once they are pruned. -/
theorem Json.readsPruned_items : (items : List Json) → Json.OrderedItems items →
    ∀ item ∈ items, item.ReadsPruned
  | [], _ => fun _ inside => nomatch inside
  | first :: rest, ordered => List.forall_mem_cons.mpr
      ⟨Json.readsPruned first ordered.1, Json.readsPruned_items rest ordered.2⟩

/-- The values of ordered members are read the same once they are pruned. -/
theorem Json.readsPruned_members : (members : Members) → Json.OrderedMembers members →
    ∀ member ∈ members, member.2.ReadsPruned
  | [], _ => fun _ inside => nomatch inside
  | (_, first) :: rest, ordered => List.forall_mem_cons.mpr
      ⟨Json.readsPruned first ordered.1, Json.readsPruned_members rest ordered.2⟩

end

/-- Members that a record does not know, and nulls that stand for absence, are as good as left out
at every depth: a value gives the same typed document with and without them, and the same snapshot,
or both times none. -/
theorem Snapshot.ofJson_pruned {value : Json} (ordered : value.Ordered) :
    (∀ s, (Datum.ofJson s value).toOption = (Datum.ofJson s (value.pruned (.one s))).toOption) ∧
    ∀ r, (Snapshot.ofJson r value).toOption =
      (Snapshot.ofJson r (value.pruned (.one (.record r.kind)))).toOption := by
  -- Read from a value there is no limit, so that the same documents come of both.
  have same : ∀ s (d : Datum s),
      Datum.ofJson s value = .ok d ↔ Datum.ofJson s (value.pruned (.one s)) = .ok d :=
    fun s d => value.readsPruned ordered |>.datum .value s d rfl
  constructor
  · exact fun s => toOption_congr (same s)
  · intro r
    refine toOption_congr fun snapshot => ?_
    simp only [Snapshot.ofJson, map_ok_iff, same]

/-- An assignment of a task to which nulls and members that no record knows were added. -/
def clutteredAssignment : Json :=
  .object [("assigned_at", .null),
    ("item", .object [("id", .text "7"), ("lock", .null),
      ("owned_by", .object [("login", .null), ("status", .text "active")]),
      ("shown", .flag true), ("type", .text "file")]),
    ("kind", .object [("id", .null)])]

/-- Of the cluttered assignment the file and its owner are left, and that there is one. -/
theorem Snapshot.ofJson_clutteredAssignment :
    clutteredAssignment.pruned (.one (.record .taskAssignment)) =
      .object [("item", .object
        [("id", .text "7"), ("owned_by", .object []), ("type", .text "file")])] ∧
    ∃ s, Snapshot.ofJson .taskAssignment clutteredAssignment = .ok s ∧
      Snapshot.ofJson .taskAssignment
        (clutteredAssignment.pruned (.one (.record .taskAssignment))) = .ok s := by
  -- The names of each object are in order, and no item is out of place.
  have ordered : clutteredAssignment.Ordered := by
    refine ⟨by decide, trivial, ⟨by decide, trivial, trivial, ?_, trivial, trivial, trivial⟩,
      ⟨by decide, trivial, trivial⟩, trivial⟩
    exact ⟨by decide, trivial, trivial, trivial⟩
  obtain ⟨s, read⟩ : ∃ s, Snapshot.ofJson .taskAssignment clutteredAssignment = .ok s := ⟨_, rfl⟩
  refine ⟨by cbv, s, read, ?_⟩
  have same := (Snapshot.ofJson_pruned ordered).2 .taskAssignment
  rw [read] at same
  exact toOption_eq_some.mp same.symm

end ContentApi
