import ContentApi.Json.Document
import ContentApi.Proofs.Json.Members
import ContentApi.Proofs.Results

/-! Every object of a document read from a text has its members in order. -/

namespace ContentApi

mutual

/-- Whether the members of every object in a document are in ascending order of names. -/
def Json.Ordered : Json → Prop
  | .array items => Json.OrderedItems items
  | .object members => Members.Ascending members ∧ Json.OrderedMembers members
  | _ => True

/-- Whether every document of a list is ordered. -/
def Json.OrderedItems : List Json → Prop
  | [] => True
  | item :: rest => item.Ordered ∧ Json.OrderedItems rest

/-- Whether the value of every member is ordered. -/
def Json.OrderedMembers : Members → Prop
  | [] => True
  | (_, value) :: rest => value.Ordered ∧ Json.OrderedMembers rest

end

/-- The value of a member of an ordered object is ordered. -/
theorem Json.OrderedMembers.find? {members : Members} (ordered : Json.OrderedMembers members)
    {name : String} {value : Json} (found : Members.find? name members = some value) :
    value.Ordered := by
  induction members with
  | nil => simp at found
  | cons member rest ih =>
    obtain ⟨key, first⟩ := member
    rw [Members.find?_cons] at found
    -- The member is the first one, or it is found among the rest.
    split at found
    · cases found
      exact ordered.1
    · exact ih ordered.2 found

/-- The values of members stay ordered when an ordered one is put in its place. -/
theorem Json.OrderedMembers.insert {members : Members} (ordered : Json.OrderedMembers members)
    (name : String) {value : Json} (valueOrdered : value.Ordered) :
    Json.OrderedMembers (Members.insert name value members) := by
  induction members with
  | nil => exact ⟨valueOrdered, trivial⟩
  | cons member rest ih =>
    obtain ⟨key, old⟩ := member
    -- The new value stands in the place of an old one, in front of it, or further on.
    unfold Members.insert
    split
    · exact ⟨valueOrdered, ordered.2⟩
    · split
      · exact ⟨valueOrdered, ordered⟩
      · exact ⟨ordered.1, ih ordered.2⟩

mutual

/-- A document is ordered once it has been read. -/
theorem Doc.ordered_toJson {room : Room} : (doc : Doc) → {value : Json} →
    doc.toJson room = .ok value → value.Ordered
  | .null, _, ok | .flag _, _, ok | .number (some _), _, ok | .text (some _), _, ok => by
    cases ok
    trivial
  | .number none, _, ok | .text none, _, ok | .broken _ _, _, ok => by cases ok
  | .array items, _, ok => by
    rw [Doc.toJson] at ok
    obtain ⟨inner, -, ok⟩ := bind_ok_iff.mp ok
    obtain ⟨values, read, same⟩ := bind_ok_iff.mp ok
    cases same
    exact DocItems.ordered_toJson items read
  | .object members, _, ok => by
    rw [Doc.toJson] at ok
    obtain ⟨inner, -, ok⟩ := bind_ok_iff.mp ok
    obtain ⟨values, read, same⟩ := bind_ok_iff.mp ok
    cases same
    -- The gathering of members starts from none, which are in order.
    exact DocMembers.ordered_toJson members read List.Pairwise.nil trivial

/-- Every document of a list is ordered once the list has been read. -/
theorem DocItems.ordered_toJson {room : Room} : (items : DocItems) → {values : List Json} →
    items.toJson room = .ok values → Json.OrderedItems values
  | .nil stop, _, ok => by
    rw [DocItems.toJson] at ok
    obtain ⟨-, -, same⟩ := bind_ok_iff.mp ok
    cases same
    trivial
  | .cons item rest, _, ok => by
    rw [DocItems.toJson] at ok
    -- Each item is read by itself, and the rest only once it was.
    obtain ⟨first, firstRead, ok⟩ := bind_ok_iff.mp ok
    obtain ⟨others, othersRead, same⟩ := bind_ok_iff.mp ok
    cases same
    exact ⟨Doc.ordered_toJson item firstRead, DocItems.ordered_toJson rest othersRead⟩

/-- Members gathered in order stay so, whatever is read after them. -/
theorem DocMembers.ordered_toJson {room : Room} : (members : DocMembers) →
    {gathered read : Members} → members.toJson room gathered = .ok read → gathered.Ascending →
    Json.OrderedMembers gathered → (Json.object read).Ordered
  | .nil stop, _, _, ok, ascending, ordered => by
    rw [DocMembers.toJson] at ok
    obtain ⟨-, -, same⟩ := bind_ok_iff.mp ok
    cases same
    exact ⟨ascending, ordered⟩
  | .cons none _ _, _, _, ok, _, _ => by cases ok
  | .cons (some name) value rest, _, _, ok, ascending, ordered => by
    rw [DocMembers.toJson] at ok
    obtain ⟨first, firstRead, ok⟩ := bind_ok_iff.mp ok
    -- What has been gathered is in order, with the member that was just read too.
    exact DocMembers.ordered_toJson rest ok (Members.ascending_insert name first ascending)
      (ordered.insert name (Doc.ordered_toJson value firstRead))

end

end ContentApi
