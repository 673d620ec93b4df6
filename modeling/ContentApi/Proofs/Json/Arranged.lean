import ContentApi.Proofs.Json.Ordered

/-! The value of a document, which shows the order of members only where a name is repeated. -/

namespace ContentApi

mutual

/-- A document with the members of every object in order, of whose repeated names the last is kept.
-/
def Json.arranged : Json → Json
  | .array items => .array (Json.arrangedItems items)
  | .object members => .object (Members.sorted (Json.arrangedMembers members))
  | value => value

/-- The documents of a list, each of them arranged. -/
def Json.arrangedItems : List Json → List Json
  | [] => []
  | item :: rest => item.arranged :: Json.arrangedItems rest

/-- The members with their values arranged, themselves in the order in which they stand. -/
def Json.arrangedMembers : Members → Members
  | [] => []
  | (name, value) :: rest => (name, value.arranged) :: Json.arrangedMembers rest

end

namespace Json

/-- Arranging the values of members changes no names. -/
@[simp] theorem names_arrangedMembers (members : Members) :
    (arrangedMembers members).map Prod.fst = members.map Prod.fst := by
  induction members with
  | nil => rfl
  | cons member rest ih => rw [arrangedMembers, List.map_cons, List.map_cons, ih]

/-- Arranging the values of members leaves their names distinct. -/
theorem distinct_arrangedMembers {members : Members} (distinct : members.Distinct) :
    (arrangedMembers members).Distinct := by
  rwa [Members.Distinct, names_arrangedMembers]

/-- Among members whose values are arranged each is found as before. -/
theorem find?_arrangedMembers (name : String) (members : Members) :
    Members.find? name (arrangedMembers members) = (Members.find? name members).map arranged := by
  -- Arranging the values leaves the names, by which members are found.
  induction members with
  | nil => rfl
  | cons member rest ih =>
    rw [arrangedMembers, Members.find?_cons, Members.find?_cons, ih]
    split <;> rfl

/-- In an arranged object each of distinct members is found, with its value arranged. -/
theorem find?_sorted_arranged (name : String) {members : Members} (distinct : members.Distinct) :
    Members.find? name (Members.sorted (arrangedMembers members)) =
      (Members.find? name members).map arranged := by
  -- Arranging keeps names distinct, so that sorting loses none of the values.
  rw [Members.find?_sorted name (distinct_arrangedMembers distinct), find?_arrangedMembers]

end Json

mutual

/-- A value is read however deep it is, and arranged. -/
theorem Doc.toJson_ofJson : (value : Json) → (Doc.ofJson value).toJson none = .ok value.arranged
  | .null | .flag _ | .number _ | .text _ => by simp [Doc.ofJson, Doc.toJson, Json.arranged]
  | .array items => by
    simp [Doc.ofJson, Doc.toJson, Room.enter, DocItems.toJson_ofJson items, Json.arranged,
      Bind.bind, Except.bind, Pure.pure, Except.pure]
  | .object members => by
    -- There is no room to run out of, so what is inside decides.
    simp [Doc.ofJson, Doc.toJson, Room.enter, DocMembers.toJson_ofJson members [], Json.arranged,
      Members.sorted, Bind.bind, Except.bind, Pure.pure, Except.pure]

/-- The items of a value are read however deep they are. -/
theorem DocItems.toJson_ofJson : (items : List Json) →
    (DocItems.ofJson items).toJson none = .ok (Json.arrangedItems items)
  -- The induction is on the items, and each of them is read without a limit.
  | [] => rfl
  | item :: rest => by
    simp [DocItems.ofJson, DocItems.toJson, Doc.toJson_ofJson item, DocItems.toJson_ofJson rest,
      Json.arrangedItems, Bind.bind, Except.bind, Pure.pure, Except.pure]

/-- The members of a value are gathered one by one behind those gathered before. -/
theorem DocMembers.toJson_ofJson : (members gathered : Members) →
    (DocMembers.ofJson members).toJson none gathered =
      .ok ((Json.arrangedMembers members).foldl
        (fun sorted member => Members.insert member.1 member.2 sorted) gathered)
  -- What is gathered is generalised, since each member is put among those before it.
  | [], _ => rfl
  | (name, value) :: rest, gathered => by
    simp [DocMembers.ofJson, DocMembers.toJson, Doc.toJson_ofJson value, Json.arrangedMembers,
      DocMembers.toJson_ofJson rest (Members.insert name value.arranged gathered), Bind.bind,
      Except.bind]

end

/-- Items that are read to their end without a break stop at their closing bracket. -/
theorem Stop.eq_closed_of_read {stop : Stop} (read : stop.read = .ok ()) : stop = .closed := by
  -- A list that breaks off, before or behind a comma, is no list to a reader.
  cases stop with
  | closed => rfl
  | cut => cases read
  | afterName name => cases name <;> cases read

mutual

/-- A document that is read as a value is one. -/
theorem Doc.exists_ofJson {room : Room} : (doc : Doc) → {read : Json} →
    doc.toJson room = .ok read → ∃ value, doc = Doc.ofJson value ∧ read = value.arranged
  | .null, _, ok => by cases ok; exact ⟨.null, rfl, rfl⟩
  | .flag value, _, ok => by cases ok; exact ⟨.flag value, rfl, rfl⟩
  | .number (some value), _, ok => by cases ok; exact ⟨.number value, rfl, rfl⟩
  | .text (some value), _, ok => by cases ok; exact ⟨.text value, rfl, rfl⟩
  -- Nothing is read of a number out of range, a text at fault or what is no document.
  | .number none, _, ok | .text none, _, ok | .broken _ _, _, ok => by cases ok
  | .array items, _, ok => by
    rw [Doc.toJson] at ok
    obtain ⟨inner, -, ok⟩ := bind_ok_iff.mp ok
    obtain ⟨read, itemsRead, same⟩ := bind_ok_iff.mp ok
    obtain ⟨values, rfl, rfl⟩ := DocItems.exists_ofJson items itemsRead
    cases same
    exact ⟨.array values, rfl, rfl⟩
  | .object members, _, ok => by
    rw [Doc.toJson] at ok
    obtain ⟨inner, -, ok⟩ := bind_ok_iff.mp ok
    obtain ⟨read, membersRead, same⟩ := bind_ok_iff.mp ok
    obtain ⟨values, rfl, rfl⟩ := DocMembers.exists_ofJson members membersRead
    cases same
    exact ⟨.object values, rfl, rfl⟩

/-- Items that are read as values are those of a value. -/
theorem DocItems.exists_ofJson {room : Room} : (items : DocItems) → {read : List Json} →
    items.toJson room = .ok read →
    ∃ values, items = DocItems.ofJson values ∧ read = Json.arrangedItems values
  | .nil stop, _, ok => by
    -- A list that is read has been closed, and so it is one that a value has.
    rw [DocItems.toJson] at ok
    obtain ⟨⟨⟩, ended, same⟩ := bind_ok_iff.mp ok
    cases same
    exact ⟨[], by rw [Stop.eq_closed_of_read ended]; rfl, rfl⟩
  | .cons item rest, _, ok => by
    rw [DocItems.toJson] at ok
    obtain ⟨first, firstRead, ok⟩ := bind_ok_iff.mp ok
    obtain ⟨others, othersRead, same⟩ := bind_ok_iff.mp ok
    -- The first item comes of a value, and so do those behind it.
    obtain ⟨value, rfl, rfl⟩ := Doc.exists_ofJson item firstRead
    obtain ⟨values, rfl, rfl⟩ := DocItems.exists_ofJson rest othersRead
    cases same
    exact ⟨value :: values, rfl, rfl⟩

/-- Members that are gathered as those of a value are those of a value. -/
theorem DocMembers.exists_ofJson {room : Room} : (members : DocMembers) →
    {gathered read : Members} → members.toJson room gathered = .ok read →
    ∃ values, members = DocMembers.ofJson values ∧
      read = (Json.arrangedMembers values).foldl
        (fun sorted member => Members.insert member.1 member.2 sorted) gathered
  | .nil stop, _, _, ok => by
    rw [DocMembers.toJson] at ok
    obtain ⟨⟨⟩, ended, same⟩ := bind_ok_iff.mp ok
    cases same
    exact ⟨[], by rw [Stop.eq_closed_of_read ended]; rfl, rfl⟩
  -- A name at fault is where gathering stops.
  | .cons none _ _, _, _, ok => by cases ok
  | .cons (some name) value rest, _, _, ok => by
    rw [DocMembers.toJson] at ok
    obtain ⟨first, firstRead, ok⟩ := bind_ok_iff.mp ok
    obtain ⟨known, rfl, rfl⟩ := Doc.exists_ofJson value firstRead
    obtain ⟨values, rfl, rfl⟩ := DocMembers.exists_ofJson rest ok
    exact ⟨(name, known) :: values, rfl, rfl⟩

end

/-- A value that is read comes out arranged, whatever the room. -/
theorem Json.eq_arranged {room : Room} {value read : Json}
    (ok : (Doc.ofJson value).toJson room = .ok read) : read = value.arranged := by
  -- What was read is arranged from some value of the same document, which is read alike.
  obtain ⟨other, same, rfl⟩ := Doc.exists_ofJson _ ok
  have again := Doc.toJson_ofJson value
  rw [same, Doc.toJson_ofJson other] at again
  exact Except.ok.inj again

/-- An arranged document is ordered. -/
theorem Json.ordered_arranged (value : Json) : value.arranged.Ordered :=
  Doc.ordered_toJson _ (Doc.toJson_ofJson value)

/-- Members in order stay where they are. -/
theorem Members.sorted_of_ascending {members : Members} (ascending : members.Ascending) :
    sorted members = members :=
  -- Members in order are known by what is found among them, and sorting changes nothing there.
  (ascending_sorted members).ext ascending fun name => find?_sorted name ascending.distinct

mutual

/-- An ordered document is arranged already. -/
theorem Json.Ordered.arranged_eq : (value : Json) → value.Ordered → value.arranged = value
  | .null, _ | .flag _, _ | .number _, _ | .text _, _ => rfl
  | .array items, ordered => by
    -- The items of a list keep their places.
    rw [Json.arranged, Json.OrderedItems.arranged_eq items ordered]
  | .object members, ordered => by
    rw [Json.arranged, Json.OrderedMembers.arranged_eq members ordered.2,
      -- Members are sorted again, which changes nothing where they ascend.
      Members.sorted_of_ascending ordered.1]

/-- Ordered documents of a list are arranged already. -/
theorem Json.OrderedItems.arranged_eq : (items : List Json) → Json.OrderedItems items →
    Json.arrangedItems items = items
  -- Each item is arranged by itself.
  | [], _ => rfl
  | item :: rest, ordered => by
    rw [Json.arrangedItems, Json.Ordered.arranged_eq item ordered.1,
      Json.OrderedItems.arranged_eq rest ordered.2]

/-- Ordered values of members are arranged already. -/
theorem Json.OrderedMembers.arranged_eq : (members : Members) → Json.OrderedMembers members →
    Json.arrangedMembers members = members
  -- Only values are arranged here, as the names are sorted by whoever calls.
  | [], _ => rfl
  | (_, value) :: rest, ordered => by
    rw [Json.arrangedMembers, Json.Ordered.arranged_eq value ordered.1,
      Json.OrderedMembers.arranged_eq rest ordered.2]

end

/-- Arranging twice is arranging once. -/
@[simp] theorem Json.arranged_arranged (value : Json) : value.arranged.arranged = value.arranged :=
  Json.Ordered.arranged_eq _ value.ordered_arranged

/-- Whether a value can be read with some room for nesting. -/
def Json.FitsIn (room : Room) (value : Json) : Prop :=
  (Doc.ofJson value).toJson room = .ok value.arranged

/-- Where there is no limit, every value fits. -/
theorem Json.fitsIn_of_unlimited {room : Room} (unlimited : room = none) (value : Json) :
    value.FitsIn room :=
  unlimited ▸ Doc.toJson_ofJson value

/-- The items of an array that fits do so in the room inside it. -/
theorem Json.FitsIn.items {room : Room} {items : List Json}
    (fits : (Json.array items).FitsIn room) :
    ∃ inner, room.enter = .ok inner ∧ ∀ item ∈ items, item.FitsIn inner := by
  rw [FitsIn, Doc.ofJson, Doc.toJson] at fits
  obtain ⟨inner, entered, ok⟩ := bind_ok_iff.mp fits
  obtain ⟨read, itemsRead, -⟩ := bind_ok_iff.mp ok
  refine ⟨inner, entered, ?_⟩
  clear fits ok entered
  -- The items are read one after another, each in the same room.
  induction items generalizing read with
  | nil => exact fun item inside => absurd inside List.not_mem_nil
  | cons item rest ih =>
    rw [DocItems.ofJson, DocItems.toJson] at itemsRead
    obtain ⟨first, firstRead, ok⟩ := bind_ok_iff.mp itemsRead
    obtain ⟨others, othersRead, -⟩ := bind_ok_iff.mp ok
    refine List.forall_mem_cons.mpr ⟨?_, ih others othersRead⟩
    rw [FitsIn, firstRead, Json.eq_arranged firstRead]

/-- The values of the members of an object that fits do so in the room inside it. -/
theorem Json.FitsIn.members {room : Room} {members : Members}
    (fits : (Json.object members).FitsIn room) :
    ∃ inner, room.enter = .ok inner ∧ ∀ member ∈ members, member.2.FitsIn inner := by
  rw [FitsIn, Doc.ofJson, Doc.toJson] at fits
  obtain ⟨inner, entered, ok⟩ := bind_ok_iff.mp fits
  obtain ⟨read, membersRead, -⟩ := bind_ok_iff.mp ok
  refine ⟨inner, entered, ?_⟩
  clear fits ok entered
  -- As for the items of an array, whatever has been gathered before.
  generalize [] = gathered at membersRead
  induction members generalizing gathered with
  | nil => exact fun member inside => absurd inside List.not_mem_nil
  | cons member rest ih =>
    rw [DocMembers.ofJson, DocMembers.toJson] at membersRead
    obtain ⟨first, firstRead, ok⟩ := bind_ok_iff.mp membersRead
    refine List.forall_mem_cons.mpr ⟨?_, ih _ ok⟩
    rw [FitsIn, firstRead, Json.eq_arranged firstRead]

end ContentApi
