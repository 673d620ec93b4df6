import ContentApi.Proofs.Json.Overlay
import ContentApi.Proofs.Schema.NormalForm

/-! Reading a document over which a newer one was laid keeps what the newer one does not touch. -/

namespace ContentApi

/-- What a record holds for an optional member that is there. -/
inductive Slot.Holds : {m : Member} → {s : Shape} → Slot m → Datum s → Prop where
  | given {name : String} {s : Shape} (d : Datum s) : Holds (m := .optional name s) (.given d) d

/-- The paths that lead below an item whose type a newer document changes. -/
inductive Datum.Retyped : {s : Shape} → Datum s → Json → List String → Prop where
  | here {k : ItemKind} {fields : Fields k.kind.members} {newer : Members} {name : String}
    {path : List String} {tag : Json} (typed : Members.find? "type" newer = some tag)
    (notNull : tag ≠ .null) (changed : tag ≠ .text k.tag) :
    Retyped (.item k fields) (.object newer) (name :: path)
  | inItem {k : ItemKind} {fields : Fields k.kind.members} {newer : Members} {name : String}
    {path : List String} {m : Member} (p : Place m k.kind.members) (named : m.name = name)
    {s : Shape} {inner : Datum s} (held : (fields.get p).Holds inner) {innerNewer : Json}
    (present : Members.find? name newer = some innerNewer)
    (below : Retyped inner innerNewer path) :
    Retyped (.item k fields) (.object newer) (name :: path)
  | inRecord {k : Kind} {fields : Fields k.members} {newer : Members} {name : String}
    {path : List String} {m : Member} (p : Place m k.members) (named : m.name = name)
    {s : Shape} {inner : Datum s} (held : (fields.get p).Holds inner) {innerNewer : Json}
    (present : Members.find? name newer = some innerNewer)
    (below : Retyped inner innerNewer path) :
    Retyped (.record fields) (.object newer) (name :: path)

/-- Whether no item is reached through the objects that documents of a shape are sent as. -/
def Shape.isItemFree : Shape → Bool
  | .item | .record .taskAssignment => false
  | _ => true

/-- Only assignments of tasks hold an item. -/
theorem Kind.isItemFree_shape {k : Kind} (free : (Shape.record k).isItemFree = true)
    {name : String} {s : Shape} (member : .optional name s ∈ k.members) : s.isItemFree = true := by
  -- The members of each kind are listed, so the shapes are looked through one by one.
  have all : ∀ m ∈ k.members, ∀ name s, m = .optional name s → s.isItemFree = true := by
    cases k with
    | taskAssignment => cases free
    | collection | page | offsetPage =>
      simp +contextual [Kind.members, Kind.extendsItem, Kind.ownMembers, countMember,
        Shape.isItemFree]
    | _ =>
      simp +contextual [Kind.members, Kind.extendsItem, Kind.ownMembers, itemMembers, textMember,
        flagMember, countMember, instantMember, wordMember, recordMember, Shape.isItemFree]
  exact all _ member name s rfl

/-- Only an optional member holds a document. -/
theorem Slot.Holds.member {m : Member} {slot : Slot m} {s : Shape} {d : Datum s}
    (held : slot.Holds d) : ∃ name, m = .optional name s := by
  -- Of the slots only one of an optional member says which document it holds.
  cases held
  exact ⟨_, rfl⟩

/-- Where no item is reached, none is below a path. -/
theorem Datum.not_retyped {s : Shape} (free : s.isItemFree = true) {d : Datum s} {newer : Json}
    {path : List String} : ¬ d.Retyped newer path := by
  intro retyped
  -- Each step of such a path enters a record without items, up to an item that is not there.
  induction retyped with
  | here => cases free
  | inItem => cases free
  | inRecord p named held present below ih =>
    obtain ⟨name, rfl⟩ := held.member
    exact ih (Kind.isItemFree_shape free p.mem)

/-- A value is read for a member in one way only. -/
theorem Slot.ReadFrom.unique {mode : Mode} {m : Member} {value : Option Json} {a b : Slot m}
    (first : a.ReadFrom mode value) (second : b.ReadFrom mode value) : a = b := by
  -- A missing value is read as the blank slot, and one that is there as what its reader gives.
  cases value with
  | none => exact first.2.trans second.2.symm
  | some value => exact Except.ok.inj (first.symm.trans second)

/-- What is sent for a member is read back where nothing but null is laid over it. -/
theorem Slot.eq_settled_of_untouched {m : Member} {slot read : Slot m} {newer : Option Json}
    {mode : Mode} (typed : m.isTyped = true) (unlimited : mode.room = none)
    (untouched : newer.getD .null = .null)
    (reads : read.ReadFrom mode (Json.overlaid (slot.write Members.sorted) newer)) :
    read = slot.settled := by
  -- Null leaves what was sent, which is read back in one way only.
  rw [Json.overlaid_of_untouched _ untouched] at reads
  exact reads.unique (slot.readFrom_write typed unlimited)

/-- Every member of a list has a place in it. -/
theorem Place.exists_of_mem {m : Member} {ms : List Member} (member : m ∈ ms) :
    Nonempty (Place m ms) := by
  -- The place is counted from the front of the list.
  induction ms with
  | nil => cases member
  | cons first rest ih =>
    rcases List.mem_cons.mp member with same | later
    · exact ⟨same ▸ .here⟩
    · exact (ih later).elim fun p => ⟨.there p⟩

/-- A set of permissions keeps the flags that a newer set leaves out. -/
theorem Grants.find?_of_untouched {g read : Grants} {newer : Members} (distinct : newer.Distinct)
    (ok : readGrantMembers .none (DocMembers.ofJson (Members.overlay g.toMembers newer)) = .ok read)
    {name : String} (untouched : (Members.find? name newer).getD .null = .null) :
    Members.find? name read.toMembers = Members.find? name g.toMembers := by
  have merged := Members.ascending_overlay g.ascending_toMembers newer
  cases named : FolderPermission.ofName? name with
  | some p =>
    have same := FolderPermission.ofName?_eq_some.mp named
    subst same
    -- A permission is read from the overlay, where the newer set has nothing to say of it.
    have allowed : read.allows p = g.allows p := by
      rw [allows_of_readGrantMembers merged.distinct ok p, Members.find?_overlay _ _ distinct,
        Json.overlaid_of_untouched _ untouched, g.find?_toMembers]
      cases granted : g.allows p <;> simp [grantOf?, Grants.none]
    rw [read.find?_toMembers, g.find?_toMembers, allowed]
  | none =>
    -- No flag is sent under a name that is not one of a permission.
    have foreign : ∀ h : Grants, Members.find? name h.toMembers = .none := by
      intro h
      cases found : Members.find? name h.toMembers with
      | none => rfl
      | some value =>
        obtain ⟨-, p, same⟩ := Grants.value_of_find?_toMembers found
        rw [FolderPermission.ofName?_eq_some.mpr same] at named
        cases named
    rw [foreign read, foreign g]

/-- What a path that spares a member or leads below it says of that member. -/
def SparesMember (known newer : Option Json) (path : List String) : Prop :=
  newer.getD .null = .null ∧ path = [] ∨
    ∃ inner innerNewer, known = some inner ∧ newer = some innerNewer ∧
      Json.Spares inner innerNewer path

/-- A path that spares a member begins with the name of one. -/
theorem Json.Spares.split {known newer : Json} {path : List String}
    (spared : Json.Spares known newer path) :
    ∃ knownMembers newerMembers name rest, known = .object knownMembers ∧
      newer = .object newerMembers ∧ path = name :: rest ∧
      SparesMember (Members.find? name knownMembers) (Members.find? name newerMembers) rest := by
  -- The path ends at the member, or both documents have one there and the path goes on in them.
  cases spared with
  | last untouched => exact ⟨_, _, _, _, rfl, rfl, rfl, Or.inl ⟨untouched, rfl⟩⟩
  | through present presentNewer rest =>
    exact ⟨_, _, _, _, rfl, rfl, rfl, Or.inr ⟨_, _, present, presentNewer, rest⟩⟩

/-- Below null there is nothing. -/
theorem Json.at?_getD (value : Option Json) (name : String) (path : List String) :
    (value.getD .null).at? (name :: path) = value.bind (Json.at? (name :: path)) := by
  -- Without a value both sides look below null or nothing, where nothing is found.
  cases value with
  | none => simp [Json.at?]
  | some value => rfl

/-- What is kept of a document of a shape below a path, when a newer one laid over it is read. -/
def KeptBelow (path : List String) : Prop :=
  ∀ {s : Shape} (d read : Datum s) (newer : Json) (mode : Mode), s.isTyped = true →
    mode.room = none → newer.Ordered → Json.Spares d.toJson newer path →
    ¬ d.Retyped newer path →
    readDatum mode s (Doc.ofJson (d.toJson.overlay newer)) = .ok read →
    read.toJson.at? path = d.toJson.at? path

/-- A member that a newer document spares is kept, if documents are kept below the rest of the
path. -/
theorem Slot.kept {m : Member} {slot read : Slot m} {newer : Option Json} {mode : Mode}
    {path : List String} (kept : KeptBelow path) (typed : m.isTyped = true)
    (unlimited : mode.room = none) (ordered : ∀ value, newer = some value → value.Ordered)
    (spared : SparesMember (slot.write Members.sorted) newer path)
    (sameType : ∀ {s : Shape} {inner : Datum s} {innerNewer : Json}, slot.Holds inner →
      newer = some innerNewer → ¬ inner.Retyped innerNewer path)
    (ok : read.ReadFrom mode (Json.overlaid (slot.write Members.sorted) newer)) :
    (read.write Members.sorted).bind (Json.at? path) =
      (slot.write Members.sorted).bind (Json.at? path) := by
  rcases spared with ⟨untouched, -⟩ | ⟨inner, innerNewer, written, present, spared⟩
  · -- What was written is read back, and written the same way again.
    rw [eq_settled_of_untouched typed unlimited untouched ok, slot.write_settled]
  · obtain ⟨knownMembers, newerMembers, name, rest, rfl, rfl, rfl, -⟩ := spared.split
    have inOrder := ordered _ present
    rw [written, present, Json.overlaid] at ok
    -- Only a record, an item or a set of permissions is written as an object.
    cases slot with
    | absent => cases written
    | entries items => cases written
    | omittable items =>
      cases items with
      | nil => cases written
      | cons first others => cases written
    | mandatory value =>
      rename_i l
      cases l with
      | text | flag | count | word => cases written
      | instant | days | grants | untyped | properties => cases typed
    | given value =>
      -- The document of an optional member is kept by the hypothesis for the rest of the path.
      have whole : value.toJson = .object knownMembers := Option.some.inj written
      obtain ⟨d, readOk, rfl⟩ := map_ok_iff.mp ok
      have same := kept value d (.object newerMembers) mode (Member.isTyped_shape typed) unlimited
        inOrder (whole ▸ spared) (sameType (.given value) present)
        (by rw [whole, Json.overlay_object]; exact readOk)
      simpa [Slot.write, Datum.toJson] using same
    | plain value =>
      rename_i l
      -- A plain member is a leaf, of which a set of permissions is the only object.
      have whole : (Datum.leaf value).toJson = .object knownMembers := by
        rw [Datum.toJson, Datum.write]
        exact congrArg (Option.getD · .null) written
      obtain ⟨v, readOk, rfl⟩ := map_ok_iff.mp ok
      have same := kept (.leaf value) (.leaf v) (.object newerMembers) mode typed unlimited
        inOrder (whole ▸ spared) (fun retyped => nomatch retyped)
        (by rw [whole, Json.overlay_object, readDatum_leaf, readOk]; rfl)
      simpa only [Slot.write, Datum.toJson, Datum.write, Json.at?_getD] using same

/-- Whether a record stands in members, with what is written for each of its own. -/
def Fields.StandsIn {ms : List Member} (fields : Fields ms) (members : Members) : Prop :=
  ∀ m (p : Place m ms), Members.find? m.name members = (fields.get p).write Members.sorted

/-- Members of a record are kept below a path if documents are kept below the rest of it. -/
theorem Fields.kept {ms : List Member} {fields read : Fields ms} {known written newer : Members}
    {mode : Member → Mode} {name : String} {path : List String} (kept : KeptBelow path)
    (typed : ∀ m ∈ ms, m.isTyped = true) (unlimited : ∀ m, (mode m).room = none)
    (ordered : (Json.object newer).Ordered) (knownStands : fields.StandsIn known)
    (writtenStands : read.StandsIn written)
    (foreign : name ∉ ms.map Member.name → Members.find? name written = Members.find? name known)
    (spared : SparesMember (Members.find? name known) (Members.find? name newer) path)
    (sameType : ∀ m (p : Place m ms) {s : Shape} {inner : Datum s} {innerNewer : Json},
      m.name = name → (fields.get p).Holds inner → Members.find? name newer = some innerNewer →
      ¬ inner.Retyped innerNewer path)
    (reads : ∀ m (p : Place m ms),
      (read.get p).ReadFrom (mode m) (Members.find? m.name (Members.overlay known newer))) :
    (Json.object written).at? (name :: path) = (Json.object known).at? (name :: path) := by
  rw [Json.at?_object, Json.at?_object]
  -- A member is kept by its slot; any other name is left to the one who asks.
  by_cases member : name ∈ ms.map Member.name
  · obtain ⟨m, inside, rfl⟩ := List.mem_map.mp member
    obtain ⟨p⟩ := Place.exists_of_mem inside
    -- Its value is the overlay of what was known of it and what is newer.
    have ok := reads m p
    rw [Members.find?_overlay _ _ ordered.1.distinct, knownStands m p] at ok
    rw [knownStands m p] at spared
    rw [writtenStands m p, knownStands m p]
    exact Slot.kept kept (typed m inside) (unlimited m)
      (fun value found => ordered.2.find? found) spared (sameType m p rfl) ok
  · rw [foreign member]

/-- A record stands in the members that it is sent with. -/
theorem Fields.standsIn_toJson {k : Kind} (fields : Fields k.members) :
    fields.StandsIn (Members.sorted (fields.write Members.sorted)) :=
  fun _ p => Datum.find?_toJson k.members_distinct fields p

/-- An item stands in the members that it is sent with. -/
theorem Fields.standsIn_item (k : ItemKind) (fields : Fields k.kind.members) :
    fields.StandsIn
      (Members.sorted (("type", .text k.tag) :: fields.write Members.sorted)) :=
  fun _ p => k.find?_write fields p

/-- Items of one tag are of one kind. -/
theorem ItemKind.tag_inj {j k : ItemKind} (same : j.tag = k.tag) : j = k := by
  -- A tag is looked up as one kind only.
  have found : ItemKind.ofTag? j.tag = some j := ofTag?_eq_some.mpr rfl
  rw [same, ofTag?_eq_some.mpr rfl] at found
  exact (Option.some.inj found).symm

/-- A set of permissions keeps what a newer document spares. -/
theorem Leaf.kept {l : Leaf} (typed : l.isTyped = true) {value held : l.Carrier} {mode : Mode}
    (unlimited : mode.room = none) {known newer : Members} {name : String} {path : List String}
    (whole : (l.write value).getD .null = .object known) (distinct : newer.Distinct)
    (spared : SparesMember (Members.find? name known) (Members.find? name newer) path)
    (ok : l.read mode (Doc.ofJson (.object (Members.overlay known newer))) = .ok held) :
    ((l.write held).getD .null).at? (name :: path) = (Json.object known).at? (name :: path) := by
  -- Of all leaves, only a set of permissions is sent as an object.
  cases l with
  | text | flag | count | word => cases whole
  | untyped | properties => cases typed
  | instant | days =>
    cases value with
    | none => cases whole
    | some value => cases whole
  | grants =>
    cases value with
    | none => cases whole
    | some g =>
      -- What is laid under the newer flags are those that the set was sent as.
      have knownIs : known = g.toMembers := (Json.object.inj whole).symm
      subst knownIs
      simp only [read, Doc.ofJson, readGrants, Mode.enter_of_unlimited unlimited] at ok
      cases readOk : readGrantMembers .none
          (DocMembers.ofJson (Members.overlay g.toMembers newer)) with
      | error fault =>
        rw [readOk] at ok
        cases ok
      | ok granted =>
        rw [readOk] at ok
        cases ok
        rcases spared with ⟨untouched, rfl⟩ | ⟨inner, innerNewer, found, -, spared⟩
        · have same := Grants.find?_of_untouched distinct readOk untouched
          rw [Leaf.write, Option.map_some, Option.getD_some, Json.at?_object, Json.at?_object, same]
        · -- No path leads below a flag.
          rw [(Grants.value_of_find?_toMembers found).1] at spared
          cases spared

/-- An item whose type a newer document does not change is read as an item of its kind. -/
theorem ItemKind.eq_of_overlay {j k : ItemKind} {fields : Fields k.kind.members} {newer : Members}
    {name : String} {path : List String} (distinct : newer.Distinct)
    (sameType : ¬ (Datum.item k fields).Retyped (.object newer) (name :: path))
    (named : Members.find? "type" (Members.overlay (Members.sorted
      (("type", .text k.tag) :: fields.write Members.sorted)) newer) = some (.text j.tag)) :
    j = k := by
  rw [Members.find?_overlay _ _ distinct, k.find?_type fields] at named
  -- The type of the newer document is missing, null, or the one that the item has.
  have untouched : (Members.find? "type" newer).getD .null = .null ∨
      Members.find? "type" newer = some (.text k.tag) := by
    cases found : Members.find? "type" newer with
    | none => exact Or.inl rfl
    | some tag =>
      by_cases null : tag = .null
      · exact Or.inl null
      · by_cases same : tag = .text k.tag
        · exact Or.inr (congrArg some same)
        · exact absurd (.here found null same) sameType
  rcases untouched with untouched | same
  · rw [Json.overlaid_of_untouched _ untouched] at named
    exact tag_inj (Json.text.inj (Option.some.inj named)).symm
  · rw [same, Json.overlaid] at named
    · exact tag_inj (Json.text.inj (Option.some.inj named)).symm
    · exact Json.noConfusion
    · exact fun _ _ impossible => nomatch impossible

/-- Reading a document over which a newer one was laid keeps what the newer one spares, except below
an item whose type it changes. -/
theorem Datum.kept (path : List String) : KeptBelow path := by
  -- The induction is on the path, for each of whose names one object is entered.
  induction path with
  | nil =>
    intro s d read newer mode typed unlimited ordered spared
    obtain ⟨_, _, _, _, _, _, impossible, _⟩ := spared.split
    cases impossible
  | cons name path ih =>
    intro s d read newer mode typed unlimited ordered spared sameType ok
    obtain ⟨known, newerMembers, _, _, whole, rfl, same, spares⟩ := spared.split
    cases same
    have distinct := ordered.1.distinct
    rw [whole, Json.overlay_object] at ok
    cases d with
    | leaf value =>
      rw [readDatum_leaf] at ok
      obtain ⟨held, readOk, rfl⟩ := map_ok_iff.mp ok
      rw [whole]
      -- A leaf is entered by one name and no further.
      exact Leaf.kept typed unlimited whole distinct spares readOk
    | record fields =>
      rename_i k
      cases read with
      | record held =>
      have knownIs : known = Members.sorted (fields.write Members.sorted) :=
        (Json.object.inj whole).symm
      subst knownIs
      have merged := Members.ascending_overlay
        (Members.ascending_sorted (fields.write Members.sorted)) newerMembers
      refine Fields.kept ih
        (fun m inside => Kind.isTyped_members typed inside)
        (fun m => Kind.room_memberMode unlimited m) ordered fields.standsIn_toJson
        held.standsIn_toJson (fun foreign => ?_) spares
        (fun m p _ _ _ same holds present retyped => sameType ?_)
        ((readDatum_record_ok_iff unlimited merged.distinct).mp ok)
      · -- A name that no member has stands in neither of the two.
        rw [Members.find?_sorted _ (held.distinct_write k.members_distinct),
          Members.find?_sorted _ (fields.distinct_write k.members_distinct),
          held.find?_write_foreign foreign, fields.find?_write_foreign foreign]
      · exact .inRecord p same holds present retyped
    | item k fields =>
      cases read with
      | item j held =>
      have knownIs : known =
          Members.sorted (("type", .text k.tag) :: fields.write Members.sorted) :=
        (Json.object.inj whole).symm
      subst knownIs
      -- Once its type is known to be the same, an item is a record of its kind.
      have merged := Members.ascending_overlay (Members.ascending_sorted
        (("type", .text k.tag) :: fields.write Members.sorted)) newerMembers
      obtain ⟨named, reads⟩ := (readDatum_item_ok_iff unlimited merged.distinct).mp ok
      have sameKind := ItemKind.eq_of_overlay distinct sameType named
      subst sameKind
      refine Fields.kept ih
        (fun m inside => Kind.isTyped_members j.isTyped_kind inside) (fun _ => rfl) ordered
        (fields.standsIn_item j) (held.standsIn_item j) (fun foreign => ?_) spares
        (fun m p _ _ _ same holds present retyped => sameType ?_) reads
      · rw [Members.find?_sorted _ (j.distinct_write held),
          Members.find?_sorted _ (j.distinct_write fields), Members.find?_cons, Members.find?_cons,
          held.find?_write_foreign foreign, fields.find?_write_foreign foreign]
      · exact .inItem p same holds present retyped

end ContentApi
