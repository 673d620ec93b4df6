import ContentApi.Proofs.Json.Arranged

/-! Documents in which no name is repeated have one value in whatever order their members stand. -/

namespace ContentApi

/-- The names of members as they stand in a text. -/
def DocMembers.names : DocMembers → List (Option String)
  | .nil _ => []
  | .cons name _ rest => name :: rest.names

mutual

/-- Whether no object in a document has two members of one name. -/
def Doc.Unrepeated : Doc → Prop
  | .array items => items.Unrepeated
  | .object members => members.names.Nodup ∧ members.Unrepeated
  | _ => True

/-- Whether no object in a list of documents has two members of one name. -/
def DocItems.Unrepeated : DocItems → Prop
  | .nil _ => True
  | .cons item rest => item.Unrepeated ∧ rest.Unrepeated

/-- Whether no object in the values of members has two members of one name. -/
def DocMembers.Unrepeated : DocMembers → Prop
  | .nil _ => True
  | .cons _ value rest => value.Unrepeated ∧ rest.Unrepeated

end

/-- The names of the members of a value are all there. -/
theorem DocMembers.names_ofJson (members : Members) :
    (DocMembers.ofJson members).names = (members.map Prod.fst).map some := by
  induction members with
  | nil => rfl
  | cons member rest ih => rw [DocMembers.ofJson, names, ih, List.map_cons, List.map_cons]

/-- The members of a value are distinct in a text exactly if they are. -/
theorem DocMembers.nodup_names_ofJson {members : Members} :
    (DocMembers.ofJson members).names.Nodup ↔ members.Distinct := by
  -- All names of a value are whole, and so they are distinct as texts.
  rw [names_ofJson, List.Nodup, List.pairwise_map]
  simp only [ne_eq, Option.some.injEq]
  exact Iff.rfl

/-- In an array that is a value no name is repeated exactly if none is in any item. -/
theorem Doc.unrepeated_array {items : List Json} :
    (Doc.ofJson (.array items)).Unrepeated ↔ ∀ item ∈ items, (Doc.ofJson item).Unrepeated := by
  rw [Doc.ofJson, Unrepeated]
  -- The induction is on the items, as the document lists them one by one.
  induction items with
  | nil => simp [DocItems.ofJson, DocItems.Unrepeated]
  | cons item rest ih => rw [DocItems.ofJson, DocItems.Unrepeated, ih, List.forall_mem_cons]

/-- In an object that is a value no name is repeated exactly if its own are distinct and none is
repeated in the value of any member. -/
theorem Doc.unrepeated_object {members : Members} :
    (Doc.ofJson (.object members)).Unrepeated ↔
      members.Distinct ∧ ∀ member ∈ members, (Doc.ofJson member.2).Unrepeated := by
  rw [Doc.ofJson, Unrepeated]
  -- The names of the object are compared as they are, and only its values are followed.
  refine and_congr DocMembers.nodup_names_ofJson ?_
  induction members with
  | nil => simp [DocMembers.ofJson, DocMembers.Unrepeated]
  | cons member rest ih =>
    rw [DocMembers.ofJson, DocMembers.Unrepeated, ih, List.forall_mem_cons]

mutual

/-- Documents that differ only in the order in which members stand, at any depth. -/
inductive Doc.Reordered : Doc → Doc → Prop where
  | same (doc : Doc) : Doc.Reordered doc doc
  | array {items others : DocItems} (inside : DocItems.Reordered items others) :
    Doc.Reordered (.array items) (.array others)
  | object {members others : DocMembers} (inside : DocMembers.Reordered members others) :
    Doc.Reordered (.object members) (.object others)

/-- Items that differ only in the order of members inside them. -/
inductive DocItems.Reordered : DocItems → DocItems → Prop where
  | nil (stop : Stop) : DocItems.Reordered (.nil stop) (.nil stop)
  | cons {item other : Doc} {rest others : DocItems} (first : Doc.Reordered item other)
    (later : DocItems.Reordered rest others) :
    DocItems.Reordered (.cons item rest) (.cons other others)

/-- Members that differ only in their order and in the order of members inside them. -/
inductive DocMembers.Reordered : DocMembers → DocMembers → Prop where
  | nil (stop : Stop) : DocMembers.Reordered (.nil stop) (.nil stop)
  | cons (name : Option String) {value other : Doc} {rest others : DocMembers}
    (first : Doc.Reordered value other) (later : DocMembers.Reordered rest others) :
    DocMembers.Reordered (.cons name value rest) (.cons name other others)
  | swap (name key : Option String) (value other : Doc) (rest : DocMembers) :
    DocMembers.Reordered (.cons name value (.cons key other rest))
      (.cons key other (.cons name value rest))
  | trans {members others further : DocMembers} (first : DocMembers.Reordered members others)
    (second : DocMembers.Reordered others further) : DocMembers.Reordered members further

end

/-- The names of reordered members are the same in another order. -/
theorem DocMembers.Reordered.names_perm : {members others : DocMembers} →
    DocMembers.Reordered members others → members.names.Perm others.names
  -- The relation is followed rule by rule, and only the exchange of neighbours moves names.
  | _, _, .nil _ => .nil
  | _, _, .cons name _ later => later.names_perm.cons name
  | _, _, .swap name key _ _ _ => .swap key name _
  | _, _, .trans first second => first.names_perm.trans second.names_perm

mutual

/-- Reordering repeats no name. -/
theorem Doc.Reordered.unrepeated : {doc other : Doc} → Doc.Reordered doc other →
    doc.Unrepeated → other.Unrepeated
  -- The names of an object are the same, and so there is none twice among them.
  | _, _, .same _, unrepeated => unrepeated
  | _, _, .array inside, unrepeated => inside.unrepeated unrepeated
  | _, _, .object inside, unrepeated =>
    ⟨inside.names_perm.nodup_iff.mp unrepeated.1, inside.unrepeated unrepeated.2⟩

/-- Reordering repeats no name in an item. -/
theorem DocItems.Reordered.unrepeated : {items others : DocItems} →
    DocItems.Reordered items others → items.Unrepeated → others.Unrepeated
  -- Items keep their places, and only what is inside them is reordered.
  | _, _, .nil _, unrepeated => unrepeated
  | _, _, .cons first later, unrepeated =>
    ⟨first.unrepeated unrepeated.1, later.unrepeated unrepeated.2⟩

/-- Reordering repeats no name in the value of a member. -/
theorem DocMembers.Reordered.unrepeated : {members others : DocMembers} →
    DocMembers.Reordered members others → members.Unrepeated → others.Unrepeated
  -- Two neighbours that change places keep their own values.
  | _, _, .nil _, unrepeated => unrepeated
  | _, _, .cons _ first later, unrepeated =>
    ⟨first.unrepeated unrepeated.1, later.unrepeated unrepeated.2⟩
  | _, _, .swap .., unrepeated => ⟨unrepeated.2.1, unrepeated.1, unrepeated.2.2⟩
  | _, _, .trans first second, unrepeated => second.unrepeated (first.unrepeated unrepeated)

end

/-- Two members of different names are put in their places in either order. -/
theorem Members.insert_comm {name key : String} (differs : name ≠ key) (value other : Json)
    {members : Members} (ascending : members.Ascending) :
    insert key other (insert name value members) =
      insert name value (insert key other members) := by
  refine Ascending.ext (ascending_insert _ _ (ascending_insert _ _ ascending))
    (ascending_insert _ _ (ascending_insert _ _ ascending)) fun asked => ?_
  -- Whatever is asked for is one of the two, or stood among the members before.
  simp only [find?_insert]
  by_cases first : name = asked
  · have second : key ≠ asked := fun same => differs (first.trans same.symm)
    simp only [if_pos first, if_neg second]
  · simp only [if_neg first]

mutual

/-- A document is read as the same value when its members are reordered. -/
theorem Doc.Reordered.toJson {room : Room} : {doc other : Doc} → Doc.Reordered doc other →
    doc.Unrepeated → {read : Json} → doc.toJson room = .ok read → other.toJson room = .ok read
  | _, _, .same _, _, _, ok => ok
  | _, _, .array inside, unrepeated, _, ok => by
    rw [Doc.toJson] at ok ⊢
    obtain ⟨inner, entered, ok⟩ := bind_ok_iff.mp ok
    obtain ⟨read, itemsRead, same⟩ := bind_ok_iff.mp ok
    -- The items are read in the same room, one level further down.
    exact bind_ok_iff.mpr ⟨inner, entered,
      bind_ok_iff.mpr ⟨read, inside.toJson unrepeated itemsRead, same⟩⟩
  | _, _, .object inside, unrepeated, _, ok => by
    rw [Doc.toJson] at ok ⊢
    obtain ⟨inner, entered, ok⟩ := bind_ok_iff.mp ok
    obtain ⟨read, membersRead, same⟩ := bind_ok_iff.mp ok
    exact bind_ok_iff.mpr ⟨inner, entered, bind_ok_iff.mpr
      -- Nothing was gathered before the first member, so no name is there that could be repeated.
      ⟨read, inside.toJson unrepeated.1 unrepeated.2 List.Pairwise.nil membersRead, same⟩⟩

/-- Items are read as the same values when members inside them are reordered. -/
theorem DocItems.Reordered.toJson {room : Room} : {items others : DocItems} →
    DocItems.Reordered items others → items.Unrepeated → {read : List Json} →
    items.toJson room = .ok read → others.toJson room = .ok read
  | _, _, .nil _, _, _, ok => ok
  | _, _, .cons first later, unrepeated, _, ok => by
    rw [DocItems.toJson] at ok ⊢
    obtain ⟨value, firstRead, ok⟩ := bind_ok_iff.mp ok
    obtain ⟨values, othersRead, same⟩ := bind_ok_iff.mp ok
    -- Items keep their places, and only what is inside them is reordered.
    exact bind_ok_iff.mpr ⟨value, first.toJson unrepeated.1 firstRead,
      bind_ok_iff.mpr ⟨values, later.toJson unrepeated.2 othersRead, same⟩⟩

/-- Reordered members are gathered as the same ones, behind any that were gathered in order. -/
theorem DocMembers.Reordered.toJson {room : Room} : {members others : DocMembers} →
    DocMembers.Reordered members others → members.names.Nodup → members.Unrepeated →
    {gathered read : Members} → gathered.Ascending → members.toJson room gathered = .ok read →
    others.toJson room gathered = .ok read
  | _, _, .nil _, _, _, _, _, _, ok => ok
  | _, _, .cons none _ _, _, _, _, _, _, ok => by cases ok
  -- What is gathered stays in order, which is what the members behind it ask for.
  | _, _, .cons (some name) first later, distinct, unrepeated, _, _, ascending, ok => by
    rw [DocMembers.toJson] at ok ⊢
    obtain ⟨value, firstRead, ok⟩ := bind_ok_iff.mp ok
    exact bind_ok_iff.mpr ⟨value, first.toJson unrepeated.1 firstRead,
      later.toJson (List.nodup_cons.mp distinct).2 unrepeated.2
        (Members.ascending_insert name value ascending) ok⟩
  -- A name at fault stops gathering on either side, so there is nothing to compare.
  | _, _, .swap none _ _ _ _, _, _, _, _, _, ok => by cases ok
  | _, _, .swap (some _) none _ _ _, _, _, _, _, _, ok => by
    rw [DocMembers.toJson] at ok
    obtain ⟨_, _, ok⟩ := bind_ok_iff.mp ok
    cases ok
  | _, _, .swap (some name) (some key) _ _ _, distinct, _, _, _, ascending, ok => by
    rw [DocMembers.toJson] at ok ⊢
    obtain ⟨value, valueRead, ok⟩ := bind_ok_iff.mp ok
    rw [DocMembers.toJson] at ok
    obtain ⟨other, otherRead, ok⟩ := bind_ok_iff.mp ok
    -- Both are put in their places, as they have different names.
    have differs : name ≠ key := fun same =>
      (List.nodup_cons.mp distinct).1 (same ▸ List.mem_cons_self)
    rw [Members.insert_comm differs value other ascending] at ok
    refine bind_ok_iff.mpr ⟨other, otherRead, ?_⟩
    rw [DocMembers.toJson]
    exact bind_ok_iff.mpr ⟨value, valueRead, ok⟩
  -- The members in between are distinct too, as they have the same names.
  | _, _, .trans first second, distinct, unrepeated, _, _, ascending, ok =>
    second.toJson (first.names_perm.nodup_iff.mp distinct) (first.unrepeated unrepeated) ascending
      (first.toJson distinct unrepeated ascending ok)

end

end ContentApi
