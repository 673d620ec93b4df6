import ContentApi.Json.Scan
import ContentApi.Proofs.Json.Reordered
import ContentApi.Proofs.Schema.Nulls
import ContentApi.Snapshot.Basic
import Mathlib

/-! A typed document is read from a text as it is from the value that the text is. -/

namespace ContentApi

/-- How what is left to read of a text is read once it is a value. -/
def Mode.parsed : Mode → Mode
  | .text _ => .value
  | mode => mode

@[simp] theorem Mode.room_parsed (mode : Mode) : mode.parsed.room = none := by
  cases mode <;> rfl

/-- Where there is room for what is inside an array or object, it is entered. -/
theorem Mode.exists_enter {mode : Mode} {room : Room} (entered : mode.room.enter = .ok room) :
    ∃ inner : Mode, mode.enter = .ok inner ∧ inner.room = room ∧ inner.parsed = mode.parsed := by
  -- Only a text has a limit, which is one level less inside.
  cases mode with
  | text n =>
    rw [Mode.room, Room.enter] at entered
    split at entered
    · cases entered
    · next deep =>
      cases entered
      exact ⟨.text (n - 1), if_neg deep, rfl, rfl⟩
  | value | aside =>
    cases entered
    exact ⟨_, rfl, rfl, rfl⟩

/-- What is set aside of a text is read as it is of a value. -/
theorem Kind.parsed_memberMode (k : Kind) (mode : Mode) (m : Member) :
    (k.memberMode mode m).parsed = k.memberMode mode.parsed m := by
  -- Setting members aside depends on the kind only.
  rw [memberMode, memberMode]
  split <;> rfl

/-- A value that fits where it stands fits where it is set aside too. -/
theorem Json.FitsIn.memberMode {mode : Mode} {value : Json} (fits : value.FitsIn mode.room)
    (k : Kind) (m : Member) : value.FitsIn (k.memberMode mode m).room := by
  rw [Kind.memberMode]
  -- What is set aside has no limit, and the rest keeps the one there is.
  split
  · exact value.fitsIn_of_unlimited rfl
  · exact fits

/-- Whether a value is read alike before it is arranged and after, in every shape. -/
structure Json.ReadsAlike (mode : Mode) (value : Json) : Prop where
  datum : ∀ s (d : Datum s), readDatum mode s (Doc.ofJson value) = .ok d ↔
    readDatum mode.parsed s (Doc.ofJson value.arranged) = .ok d
  items : ∀ s (items : Items s), readItems mode s (Doc.ofJson value) = .ok items ↔
    readItems mode.parsed s (Doc.ofJson value.arranged) = .ok items

/-- Whether a value is read alike wherever it fits. -/
def Json.ReadsOneWay (value : Json) : Prop :=
  ∀ mode : Mode, value.FitsIn mode.room → value.ReadsAlike mode

section

variable {mode : Mode} {value : Json} {members : Members}

/-- What a value says of a permission does not depend on any order. -/
theorem grantOf?_arranged (value : Json) : grantOf? value.arranged = grantOf? value := by
  cases value <;> rfl

/-- Flags are read as a set from distinct members that say the same under each name. -/
theorem readGrantMembers_of_alike {others : Members} (distinct : members.Distinct)
    (distinctOthers : others.Distinct)
    (alike : ∀ name, (Members.find? name members).map grantOf? =
      (Members.find? name others).map grantOf?) {g read : Grants}
    (ok : readGrantMembers g (DocMembers.ofJson members) = .ok read) :
    readGrantMembers g (DocMembers.ofJson others) = .ok read := by
  -- Every other member is found under its name, where the members that were read say the same.
  have flags : ∀ name value, (name, value) ∈ others →
      ∃ granted, grantOf? value = some granted := by
    intro name value inside
    have said := alike name
    rw [Members.find?_of_mem distinctOthers inside, Option.map_some] at said
    obtain ⟨known, found, same⟩ := Option.map_eq_some_iff.mp said
    exact same ▸ grantOf?_of_readGrantMembers ok name known (Members.mem_of_find? found)
  obtain ⟨other, otherRead⟩ := exists_readGrantMembers flags g
  -- The two sets grant each permission alike.
  have same : other = read := Grants.ext fun p => by
    have said : (Members.find? p.name members).bind grantOf? =
        (Members.find? p.name others).bind grantOf? := by
      simpa only [Option.bind_map, Function.id_comp] using congrArg (·.bind id) (alike p.name)
    rw [allows_of_readGrantMembers distinctOthers otherRead,
      allows_of_readGrantMembers distinct ok, said]
  rw [otherRead, same]

/-- Distinct flags are read as the same set once they are arranged. -/
theorem readGrantMembers_arranged (distinct : members.Distinct) (g read : Grants) :
    readGrantMembers g (DocMembers.ofJson members) = .ok read ↔
      readGrantMembers g (DocMembers.ofJson (Members.sorted (Json.arrangedMembers members))) =
        .ok read := by
  -- Both orders hold the same flags under the same names, and names are all that a set looks at.
  have ascending := Members.ascending_sorted (Json.arrangedMembers members)
  have alike : ∀ name, (Members.find? name members).map grantOf? =
      (Members.find? name (Members.sorted (Json.arrangedMembers members))).map grantOf? := by
    intro name
    rw [Json.find?_sorted_arranged name distinct]
    cases Members.find? name members <;> simp [grantOf?_arranged]
  exact ⟨readGrantMembers_of_alike distinct ascending.distinct alike,
    readGrantMembers_of_alike ascending.distinct distinct fun name => (alike name).symm⟩

/-- An object that has no members once it is arranged has none. -/
theorem Members.eq_nil_of_arranged (distinct : members.Distinct)
    (none : Members.sorted (Json.arrangedMembers members) = []) : members = [] := by
  -- Arranging changes values and order, but not how many members there are.
  have same := Members.sorted_perm (Json.distinct_arrangedMembers distinct)
  rw [none] at same
  cases members with
  | nil => rfl
  | cons member rest => cases same.nil_eq

/-- An object that has one member once it is arranged has one. -/
theorem Members.eq_singleton_of_arranged (distinct : members.Distinct) {name : String}
    (single : Members.sorted (Json.arrangedMembers members) = [(name, value)]) :
    ∃ known, members = [(name, known)] ∧ known.arranged = value := by
  -- Distinct members are only put in order, so there are as many of them.
  have same := Members.sorted_perm (Json.distinct_arrangedMembers distinct)
  rw [single, List.singleton_perm] at same
  rcases members with _ | ⟨⟨key, known⟩, _ | ⟨second, rest⟩⟩
  · cases same
  · cases same
    exact ⟨known, rfl, rfl⟩
  · cases same

/-- What stands beside a word does so once it is arranged too. -/
theorem readUnit_arranged (unrepeated : (Doc.ofJson value).Unrepeated) :
    readUnit mode (Doc.ofJson value) = .ok () ↔
      readUnit mode.parsed (Doc.ofJson value.arranged) = .ok () := by
  constructor
  · intro unit
    rcases readUnit_ok unit with rfl | rfl
    · cases mode <;> rfl
    · cases mode with
      | text => cases unit
      | value | aside => exact unit
  · intro unit
    cases value with
    | null => cases mode <;> rfl
    | object members =>
      -- Only an object without members stands for null, and only where it is set aside.
      rcases readUnit_ok unit with impossible | empty
      · cases impossible
      · cases Members.eq_nil_of_arranged (Doc.unrepeated_object.mp unrepeated).1
          (Json.object.inj empty)
        cases mode with
        | text => cases unit
        | value | aside => exact unit
    | flag | number | text | array => rcases readUnit_ok unit with impossible | impossible <;>
        cases impossible

/-- An object is read as a word exactly if it is once it is arranged. -/
theorem readWord_object_arranged (fits : (Json.object members).FitsIn mode.room)
    (unrepeated : (Doc.ofJson (.object members)).Unrepeated) {v : Vocabulary} (w : Word v) :
    readWord v mode (Doc.ofJson (.object members)) = .ok w ↔
      readWord v mode.parsed (Doc.ofJson (Json.object members).arranged) = .ok w := by
  obtain ⟨distinct, inside⟩ := Doc.unrepeated_object.mp unrepeated
  obtain ⟨room, roomEntered, -⟩ := fits.members
  obtain ⟨inner, entered, -, -⟩ := Mode.exists_enter roomEntered
  -- On both sides the object is entered, and has one member that is named by the word.
  rw [Json.arranged, readWord_object_ok_iff entered,
    readWord_object_ok_iff (Mode.enter_of_unlimited mode.room_parsed)]
  constructor
  · rintro ⟨name, value, rfl, unit, rfl⟩
    exact ⟨name, value.arranged, rfl,
      (readUnit_arranged (inside _ List.mem_cons_self)).mp unit, rfl⟩
  · rintro ⟨name, value, single, unit, rfl⟩
    obtain ⟨known, rfl, rfl⟩ := Members.eq_singleton_of_arranged distinct single
    exact ⟨name, known, rfl, (readUnit_arranged (inside _ List.mem_cons_self)).mpr unit, rfl⟩

/-- An object that fits is read as its members in their order. -/
theorem readProperties_object (fits : (Json.object members).FitsIn mode.room) :
    readProperties mode (Doc.ofJson (.object members)) =
      .ok (Members.sorted (Json.arrangedMembers members)) := by
  -- All of the object is read at once, in the room that there is for it.
  rw [Json.FitsIn, Doc.ofJson, Doc.toJson, Json.arranged] at fits
  obtain ⟨room, roomEntered, ok⟩ := bind_ok_iff.mp fits
  obtain ⟨read, membersRead, same⟩ := bind_ok_iff.mp ok
  obtain ⟨inner, entered, rfl, -⟩ := Mode.exists_enter roomEntered
  cases same
  simp [readProperties, Doc.ofJson, entered, membersRead, Bind.bind, Except.bind]

/-- A value is read alike by the reader of a leaf before it is arranged and after. -/
theorem Leaf.read_arranged {l : Leaf} (fits : value.FitsIn mode.room)
    (unrepeated : (Doc.ofJson value).Unrepeated) (read : l.Carrier) :
    l.read mode (Doc.ofJson value) = .ok read ↔
      l.read mode.parsed (Doc.ofJson value.arranged) = .ok read := by
  have fitsParsed : value.arranged.FitsIn mode.parsed.room :=
    value.arranged.fitsIn_of_unlimited mode.room_parsed
  cases l with
  | text | flag | count | instant =>
    cases value with
    | null | flag | number | text => exact Iff.rfl
    -- No array and no object is read as one of these.
    | array | object =>
      simp [Leaf.read, readText, readFlag, readCount, readInstant, Doc.ofJson, Json.arranged,
        Doc.mismatch, Doc.unexpected, Bind.bind, Except.bind]
  | word v =>
    cases value with
    | text => exact Iff.rfl
    | object members => exact readWord_object_arranged fits unrepeated read
    | null | flag | number | array =>
      cases mode <;> simp [Leaf.read, readWord, Doc.ofJson, Json.arranged, Mode.parsed,
        Doc.mismatch, Doc.unexpected]
  | days =>
    rw [Leaf.read, Leaf.read, readDays_ofJson fits, readDays_ofJson fitsParsed,
      Json.arranged_arranged]
  | grants =>
    cases value with
    | null => exact Iff.rfl
    | object members =>
      obtain ⟨room, roomEntered, -⟩ := fits.members
      obtain ⟨inner, entered, -, -⟩ := Mode.exists_enter roomEntered
      have same := readGrantMembers_arranged (Doc.unrepeated_object.mp unrepeated).1 Grants.none
      simp only [Leaf.read, readGrants, Doc.ofJson, Json.arranged, entered,
        Mode.enter_of_unlimited mode.room_parsed, discard, Functor.discard, Functor.mapConst,
        Function.comp, Except.map, Bind.bind, bind_ok_iff, same]
    | flag | number | text | array =>
      simp [Leaf.read, readGrants, Doc.ofJson, Json.arranged, Doc.mismatch, Doc.unexpected]
  | untyped =>
    rw [Json.FitsIn] at fits fitsParsed
    simp only [Leaf.read, readUntyped, fits, fitsParsed, Json.arranged_arranged]
  | properties =>
    cases value with
    | object members =>
      -- Properties are kept arranged, which they stay when they are arranged again.
      have again := Json.object.inj (Json.arranged_arranged (.object members))
      rw [Json.arranged] at fitsParsed ⊢
      rw [Leaf.read, Leaf.read, readProperties_object fits, readProperties_object fitsParsed,
        again]
    | null | flag | number | text | array =>
      simp [Leaf.read, readProperties, Doc.ofJson, Json.arranged, Doc.mismatch, Doc.unexpected]

/-- What is read alike in every shape is read alike by the reader of a leaf. -/
theorem Json.ReadsAlike.leaf (alike : value.ReadsAlike mode) {l : Leaf} (read : l.Carrier) :
    l.read mode (Doc.ofJson value) = .ok read ↔
      l.read mode.parsed (Doc.ofJson value.arranged) = .ok read := by
  have same := alike.datum (.leaf l) (.leaf read)
  simpa [readDatum_leaf, map_ok_iff] using same

/-- A member is read alike if the value that stands for it is. -/
theorem readMember_arranged (alike : value.ReadsAlike mode) {m : Member} (slot : Slot m) :
    readMember mode value m = .ok slot ↔ readMember mode.parsed value.arranged m = .ok slot := by
  cases m with
  | optional name s =>
    have same := alike.datum s
    -- A null leaves the member out in either way of reading, and stays null when it is arranged.
    cases value with
    | null => exact Iff.rfl
    | flag | number | text | array | object =>
      simp only [readMember, readSlot, Doc.ofJson, Json.arranged, map_ok_iff] at same ⊢
      simp only [same]
  | plain name l | mandatory name l =>
    simp only [readMember, readSlot, map_ok_iff, alike.leaf]
  | entries name s =>
    simp only [readMember, readSlot, map_ok_iff, alike.items]
  | omittable name s =>
    have same := alike.items s
    cases value with
    | null => exact Iff.rfl
    | flag | number | text | array | object =>
      simp only [readMember, readSlot, Doc.ofJson, Json.arranged, map_ok_iff] at same ⊢
      simp only [same]

/-- What a record holds for a member is read alike if the value that stands for it is. -/
theorem Slot.readFrom_arranged {m : Member} {slot : Slot m} {found : Option Json}
    (alike : ∀ value, found = some value → value.ReadsAlike mode) :
    slot.ReadFrom mode found ↔ slot.ReadFrom mode.parsed (found.map Json.arranged) := by
  -- A member that is missing is missing in either order.
  cases found with
  | none => exact Iff.rfl
  | some value => exact readMember_arranged (alike value rfl) slot

/-- A record is read alike from an object if the values of its members are. -/
theorem readDatum_record_arranged {k : Kind} (fits : (Json.object members).FitsIn mode.room)
    (distinct : members.Distinct) (alike : ∀ member ∈ members, member.2.ReadsOneWay)
    (d : Datum (.record k)) :
    readDatum mode (.record k) (Doc.ofJson (.object members)) = .ok d ↔
      readDatum mode.parsed (.record k) (Doc.ofJson (Json.object members).arranged) = .ok d := by
  obtain ⟨fields⟩ := d
  obtain ⟨room, roomEntered, fits⟩ := fits.members
  obtain ⟨inner, entered, rfl, parsed⟩ := Mode.exists_enter roomEntered
  rw [readDatum_entered_ok_iff entered (fun _ => fits) distinct, Json.arranged,
    readDatum_record_ok_iff mode.room_parsed (Members.ascending_sorted _).distinct]
  refine forall_congr' fun m => forall_congr' fun p => ?_
  -- A member is read where it stands or set aside, and either way with room for its value.
  rw [Json.find?_sorted_arranged m.name distinct, ← parsed, ← Kind.parsed_memberMode]
  refine Slot.readFrom_arranged fun value found => ?_
  have inside := Members.mem_of_find? found
  exact alike _ inside _ ((fits _ inside).memberMode k m)

/-- An item is read alike from an object if the values of its members are. -/
theorem readDatum_item_arranged (fits : (Json.object members).FitsIn mode.room)
    (distinct : members.Distinct) (alike : ∀ member ∈ members, member.2.ReadsOneWay)
    (d : Datum .item) :
    readDatum mode .item (Doc.ofJson (.object members)) = .ok d ↔
      readDatum mode.parsed .item (Doc.ofJson (Json.object members).arranged) = .ok d := by
  obtain ⟨k, fields⟩ := d
  obtain ⟨room, roomEntered, fits⟩ := fits.members
  obtain ⟨inner, entered, rfl, -⟩ := Mode.exists_enter roomEntered
  -- The members of an item are read aside, once its type is known.
  rw [readDatum_item_entered_ok_iff entered fits distinct, Json.arranged,
    readDatum_item_ok_iff mode.room_parsed (Members.ascending_sorted _).distinct,
    Json.find?_sorted_arranged "type" distinct]
  refine and_congr ?_ (forall_congr' fun m => forall_congr' fun p => ?_)
  · -- Only a text is arranged as one.
    cases Members.find? "type" members with
    | none => exact Iff.rfl
    | some value => cases value <;> simp [Json.arranged]
  · rw [Json.find?_sorted_arranged m.name distinct]
    refine Slot.readFrom_arranged fun value found => ?_
    exact alike _ (Members.mem_of_find? found) .aside (value.fitsIn_of_unlimited rfl)

variable {items : List Json}

/-- A list is read alike item by item. -/
theorem readEach_arranged (alike : ∀ item ∈ items, item.ReadsAlike mode) {s : Shape}
    (read : Items s) : readEach mode s (DocItems.ofJson items) = .ok read ↔
      readEach mode.parsed s (DocItems.ofJson (Json.arrangedItems items)) = .ok read := by
  -- The induction is on the items, which keep their places.
  induction items generalizing read with
  | nil => exact Iff.rfl
  | cons item rest ih =>
    obtain ⟨first, others⟩ := List.forall_mem_cons.mp alike
    rw [Json.arrangedItems, DocItems.ofJson, DocItems.ofJson, readEach, readEach]
    simp only [Bind.bind, bind_ok_iff, first.datum, ih others]

/-- A row of values is read alike value by value. -/
theorem readRow_arranged (alike : ∀ item ∈ items, item.ReadsAlike mode) {k : Kind}
    {total other index : Nat} {ms : List Member} (fields : Fields ms) :
    readRow mode k total index ms (DocItems.ofJson items) = .ok fields ↔
      readRow mode.parsed k other index ms (DocItems.ofJson (Json.arrangedItems items)) =
        .ok fields := by
  induction items generalizing ms index with
  | nil => cases ms <;> exact Iff.rfl
  | cons item rest ih =>
    obtain ⟨first, others⟩ := List.forall_mem_cons.mp alike
    rw [Json.arrangedItems, DocItems.ofJson, DocItems.ofJson]
    cases ms with
    | nil =>
      -- A value too many is a fault in either way of reading.
      cases mode <;> simp [readRow, readRowEnd, Mode.parsed, Bind.bind, Except.bind]
    | cons m ms =>
      have same := readMember_arranged (m := m) first
      simp only [readMember] at same
      rw [readRow, readRow]
      simp only [Bind.bind, bind_ok_iff, same, ih others]

/-- No item is written as a list. -/
theorem readItemRow_ne_ok (items : DocItems) (d : Datum .item) :
    readItemRow mode items ≠ .ok d := by
  intro ok
  -- The first item would be the tag of the object, and what follows is none of its members.
  cases items with
  | nil stop =>
    rw [readItemRow] at ok
    obtain ⟨_, _, ok⟩ := bind_ok_iff.mp ok
    cases ok
  | cons first rest =>
    rw [readItemRow] at ok
    obtain ⟨_, _, ok⟩ := bind_ok_iff.mp ok
    obtain ⟨_, _, ok⟩ := bind_ok_iff.mp ok
    cases ok

/-- A value is read alike if it is as a record, as an item and as a list, since as a leaf it is. -/
theorem Json.readsAlike_of_inside (fits : value.FitsIn mode.room)
    (unrepeated : (Doc.ofJson value).Unrepeated)
    (record : ∀ k (d : Datum (.record k)), readDatum mode (.record k) (Doc.ofJson value) = .ok d ↔
      readDatum mode.parsed (.record k) (Doc.ofJson value.arranged) = .ok d)
    (item : ∀ d : Datum .item, readDatum mode .item (Doc.ofJson value) = .ok d ↔
      readDatum mode.parsed .item (Doc.ofJson value.arranged) = .ok d)
    (list : ∀ s (items : Items s), readItems mode s (Doc.ofJson value) = .ok items ↔
      readItems mode.parsed s (Doc.ofJson value.arranged) = .ok items) : value.ReadsAlike mode := by
  refine ⟨fun s d => ?_, list⟩
  -- Only leaves are known to be read alike by themselves.
  cases s with
  | leaf l => simp only [readDatum_leaf, map_ok_iff, Leaf.read_arranged fits unrepeated]
  | record k => exact record k d
  | item => exact item d

/-- An array is read alike if its items are. -/
theorem Json.readsAlike_array (fits : (Json.array items).FitsIn mode.room)
    (unrepeated : (Doc.ofJson (.array items)).Unrepeated)
    (alike : ∀ item ∈ items, item.ReadsOneWay) : (Json.array items).ReadsAlike mode := by
  obtain ⟨room, roomEntered, itemsFit⟩ := fits.items
  obtain ⟨inner, entered, rfl, parsed⟩ := Mode.exists_enter roomEntered
  have inside := fun item member => alike item member inner (itemsFit item member)
  refine Json.readsAlike_of_inside fits unrepeated (fun k d => ?_) (fun d => ?_)
    (fun s read => ?_)
  · rw [Doc.ofJson, Json.arranged, Doc.ofJson, readDatum, readDatum]
    -- A list stands for a record only if the record shares no members with items.
    split
    · simp
    · simp only [Bind.bind, bind_ok_iff, entered, ← parsed,
        Mode.enter_of_unlimited inner.room_parsed, Except.ok.injEq, exists_eq_left']
      exact exists_congr fun fields => and_congr_left fun _ => readRow_arranged inside fields
  · rw [Doc.ofJson, Json.arranged, Doc.ofJson, readDatum, readDatum]
    simp only [Bind.bind, bind_ok_iff, readItemRow_ne_ok, and_false, exists_false]
  · rw [Doc.ofJson, Json.arranged, Doc.ofJson, readItems, readItems, entered,
      Mode.enter_of_unlimited mode.room_parsed, ← parsed]
    exact readEach_arranged inside read

/-- An object is read alike if the values of its members are. -/
theorem Json.readsAlike_object (fits : (Json.object members).FitsIn mode.room)
    (unrepeated : (Doc.ofJson (.object members)).Unrepeated)
    (alike : ∀ member ∈ members, member.2.ReadsOneWay) : (Json.object members).ReadsAlike mode := by
  have distinct := (Doc.unrepeated_object.mp unrepeated).1
  refine Json.readsAlike_of_inside fits unrepeated
    (fun k d => readDatum_record_arranged fits distinct alike d)
    (fun d => readDatum_item_arranged fits distinct alike d) (fun s read => ?_)
  -- No object is read as a list.
  simp [Json.arranged, Doc.ofJson, readItems, Doc.mismatch, Doc.unexpected]

/-- A value that is neither an array nor an object is read alike. -/
theorem Json.readsAlike_scalar (fits : value.FitsIn mode.room)
    (unrepeated : (Doc.ofJson value).Unrepeated) (noItems : ∀ items, value ≠ .array items)
    (noMembers : ∀ members, value ≠ .object members) : value.ReadsAlike mode := by
  cases value with
  | array items => exact absurd rfl (noItems items)
  | object members => exact absurd rfl (noMembers members)
  -- A scalar has nothing inside that could be in another order.
  | null | flag | number | text =>
    exact Json.readsAlike_of_inside fits unrepeated (fun _ _ => Iff.rfl) (fun _ => Iff.rfl)
      (fun _ _ => Iff.rfl)

end

mutual

/-- A value in which no name is repeated is read alike wherever it fits. -/
theorem Json.readsOneWay : (value : Json) → (Doc.ofJson value).Unrepeated → value.ReadsOneWay
  -- The recursion is on the value, and each layer is read alike once what is inside it is.
  | .null, unrepeated, _, fits | .flag _, unrepeated, _, fits | .number _, unrepeated, _, fits
  | .text _, unrepeated, _, fits => Json.readsAlike_scalar fits unrepeated nofun nofun
  | .array items, unrepeated, _, fits =>
    Json.readsAlike_array fits unrepeated
      (Json.readsOneWay_items items (Doc.unrepeated_array.mp unrepeated))
  | .object members, unrepeated, _, fits =>
    Json.readsAlike_object fits unrepeated
      (Json.readsOneWay_members members (Doc.unrepeated_object.mp unrepeated).2)

/-- Items in which no name is repeated are read alike wherever they fit. -/
theorem Json.readsOneWay_items : (items : List Json) →
    (∀ item ∈ items, (Doc.ofJson item).Unrepeated) → ∀ item ∈ items, item.ReadsOneWay
  | [], _ => fun _ inside => nomatch inside
  | first :: rest, unrepeated => by
    -- An item is read alike by itself, as the others are by induction.
    obtain ⟨firstUnrepeated, others⟩ := List.forall_mem_cons.mp unrepeated
    exact List.forall_mem_cons.mpr
      ⟨Json.readsOneWay first firstUnrepeated, Json.readsOneWay_items rest others⟩

/-- Values of members in which no name is repeated are read alike wherever they fit. -/
theorem Json.readsOneWay_members : (members : Members) →
    (∀ member ∈ members, (Doc.ofJson member.2).Unrepeated) → ∀ member ∈ members,
    member.2.ReadsOneWay
  | [], _ => fun _ inside => nomatch inside
  | (_, first) :: rest, unrepeated => by
    -- A value is read alike by itself, as the others are by induction.
    obtain ⟨firstUnrepeated, others⟩ := List.forall_mem_cons.mp unrepeated
    exact List.forall_mem_cons.mpr
      ⟨Json.readsOneWay first firstUnrepeated, Json.readsOneWay_members rest others⟩

end

/-- A text is a value if its document is one and nothing follows it. -/
theorem Json.ofText_ok_iff {text : String} {value : Json} : Json.ofText text = .ok value ↔
    (WholeText.scan text).doc.toJson Room.ofText = .ok value ∧
      (WholeText.scan text).trailing = false := by
  rw [Json.ofText]
  simp only [Bind.bind, bind_ok_iff]
  -- What follows the document is looked at only after the document was read.
  cases (WholeText.scan text).trailing <;> simp [Pure.pure, Except.pure]

/-- A typed document is read from a text if nothing follows it. -/
theorem Datum.ofText_ok_iff {s : Shape} {text : String} {d : Datum s} :
    Datum.ofText s text = .ok d ↔
      readDatum (.text 128) s (WholeText.scan text).doc = .ok d ∧
        (WholeText.scan text).trailing = false := by
  rw [Datum.ofText]
  simp only [Bind.bind, bind_ok_iff]
  -- What follows the document is looked at only after the document was read.
  cases (WholeText.scan text).trailing <;>
    simp [Pure.pure, Except.pure, throw, throwThe, MonadExceptOf.throw]

/-- A typed document is read from a text in which no name is repeated exactly as it is from the
value that the text is. -/
theorem Datum.ofText_iff_ofJson {text : String} {value : Json}
    (written : Json.ofText text = .ok value) (unrepeated : (WholeText.scan text).doc.Unrepeated)
    (s : Shape) (d : Datum s) : Datum.ofText s text = .ok d ↔ Datum.ofJson s value = .ok d := by
  obtain ⟨read, ended⟩ := Json.ofText_ok_iff.mp written
  obtain ⟨raw, same, rfl⟩ := Doc.exists_ofJson _ read
  rw [same] at read unrepeated
  -- The value is the document of the text, arranged.
  have alike := Json.readsOneWay raw unrepeated (.text 128) read
  rw [Datum.ofText_ok_iff, ended, same, Datum.ofJson]
  exact (and_iff_left rfl).trans (alike.datum s d)

/-- A text in which no name is repeated is read exactly as the value that it is, as a typed document
of any shape and as a snapshot of any kind of object, in whatever order its members stand. -/
theorem readers_agree {text : String} {value : Json} (written : Json.ofText text = .ok value)
    (unrepeated : (WholeText.scan text).doc.Unrepeated) :
    (∀ s (d : Datum s), Datum.ofText s text = .ok d ↔ Datum.ofJson s value = .ok d) ∧
    (∀ r (snapshot : Snapshot r),
      Snapshot.ofText r text = .ok snapshot ↔ Snapshot.ofJson r value = .ok snapshot) ∧
    ∀ other, (WholeText.scan text).doc.Reordered (WholeText.scan other).doc →
      (WholeText.scan other).trailing = false →
      ∀ s (d : Datum s), Datum.ofText s other = .ok d ↔ Datum.ofText s text = .ok d := by
  have agree := Datum.ofText_iff_ofJson written unrepeated
  refine ⟨agree, fun r snapshot => ?_, fun other reordered ended s d => ?_⟩
  · simp only [Snapshot.ofText, Snapshot.ofJson, map_ok_iff, agree]
  · -- The reordered text is the same value.
    have read := reordered.toJson unrepeated (Json.ofText_ok_iff.mp written).1
    have otherWritten := Json.ofText_ok_iff.mpr ⟨read, ended⟩
    rw [Datum.ofText_iff_ofJson otherWritten (reordered.unrepeated unrepeated), agree]

/-- The text of a locked file whose type comes last. -/
def lockedText : String :=
  "\x7b\"lock\":\x7b\"id\":\"2\",\"is_download_prevented\":true\x7d,\"type\":\"file\"\x7d"

/-- The text of the locked file with the members of every object the other way round. -/
def turnedText : String :=
  "\x7b\"type\":\"file\",\"lock\":\x7b\"is_download_prevented\":true,\"id\":\"2\"\x7d\x7d"

/-- Both texts of the locked file and their value are read as one item. -/
theorem ofText_lockedText : ∃ value d, Json.ofText lockedText = .ok value ∧
    Datum.ofJson .item value = .ok d ∧ Datum.ofText .item lockedText = .ok d ∧
    Datum.ofText .item turnedText = .ok d := by
  have scanned : WholeText.scan lockedText = ⟨.object (.cons (some "lock") (.object
      (.cons (some "id") (.text (some "2")) (.cons (some "is_download_prevented")
        (.flag true) (.nil .closed))))
      (.cons (some "type") (.text (some "file")) (.nil .closed))), false⟩ := by cbv
  have turned : WholeText.scan turnedText = ⟨.object (.cons (some "type") (.text (some "file"))
      (.cons (some "lock") (.object (.cons (some "is_download_prevented")
        (.flag true) (.cons (some "id") (.text (some "2"))
          (.nil .closed)))) (.nil .closed))), false⟩ := by cbv
  have written : Json.ofText lockedText = .ok (.object [("lock", .object
      [("id", .text "2"), ("is_download_prevented", .flag true)]),
      ("type", .text "file")]) := by
    rw [Json.ofText, scanned]
    cbv
  have unrepeated : (WholeText.scan lockedText).doc.Unrepeated := by
    rw [scanned]
    exact ⟨by decide, ⟨by decide, trivial, trivial, trivial⟩, trivial, trivial⟩
  have reordered : (WholeText.scan lockedText).doc.Reordered (WholeText.scan turnedText).doc := by
    rw [scanned, turned]
    -- The members of the file change places first, and then those of its lock.
    exact .object (.trans (.swap ..) (.cons _ (.same _) (.cons _ (.object (.swap ..)) (.nil _))))
  obtain ⟨agree, -, order⟩ := @readers_agree lockedText _ written unrepeated
  obtain ⟨d, read⟩ : ∃ d, Datum.ofText .item lockedText = .ok d := by
    rw [Datum.ofText, scanned]
    exact ⟨_, rfl⟩
  exact ⟨_, d, written, (agree _ d).mp read, read,
    (order _ reordered (by rw [turned]) _ d).mpr read⟩

end ContentApi
