import ContentApi.Proofs.Schema.Reading

/-! An item is read as the kind that its type names, with every member set aside till then. -/

namespace ContentApi

/-- The kind of an item is known by its tag and no other text. -/
theorem ItemKind.ofTag?_eq_some {tag : String} {k : ItemKind} :
    ItemKind.ofTag? tag = some k ↔ tag = k.tag := by
  constructor
  · intro found
    -- Whatever the search finds has the tag that was searched for.
    have tagged := List.find?_some found
    exact (beq_iff_eq.mp tagged).symm
  · intro same
    subst same
    cases k <;> rfl

/-- The type of an item is read from its tag and no other value. -/
theorem readTag_ok_iff {value : Json} {k : ItemKind} :
    readTag (Doc.ofJson value) = .ok k ↔ value = .text k.tag := by
  -- A tag is a text, and no two types have the same one.
  cases value with
  | text tag =>
    rw [Doc.ofJson, readTag, Json.text.injEq, ← ItemKind.ofTag?_eq_some]
    cases ItemKind.ofTag? tag <;> simp
  | null | flag | number | array | object =>
    simp [Doc.ofJson, readTag, Doc.mismatch, Doc.unexpected]

/-- What is set aside stays aside, whether items share it or not. -/
theorem Kind.memberMode_aside (k : Kind) (m : Member) : k.memberMode .aside m = .aside :=
  ite_self _

section

variable {mode : Mode} {members : Members} {k : ItemKind}

/-- The kind of an item is settled by the one member that names it. -/
theorem readItemKind_seen (fits : ∀ member ∈ members, member.2.FitsIn mode.room) (seen : ItemKind)
    (single : "type" ∉ members.map Prod.fst) :
    readItemKind mode (some seen) (DocMembers.ofJson members) = .ok seen := by
  induction members with
  | nil =>
    simp [DocMembers.ofJson, readItemKind, Stop.read, Cut.lift, Bind.bind, Except.bind, Pure.pure,
      Except.pure]
  | cons member rest ih =>
    obtain ⟨name, value⟩ := member
    obtain ⟨differs, later⟩ := List.ne_and_not_mem_of_not_mem_cons single
    obtain ⟨firstFits, othersFit⟩ := List.forall_mem_cons.mp fits
    -- No other member names a type, so each is only checked.
    rw [DocMembers.ofJson, readItemKind, if_neg (Ne.symm differs), Doc.check_ofJson firstFits]
    exact ih othersFit later

/-- The kind of an item is read from the member that names it, wherever that stands. -/
theorem readItemKind_ok_iff (fits : ∀ member ∈ members, member.2.FitsIn mode.room)
    (distinct : members.Distinct) :
    readItemKind mode none (DocMembers.ofJson members) = .ok k ↔
      Members.find? "type" members = some (.text k.tag) := by
  induction members with
  | nil =>
    simp [DocMembers.ofJson, readItemKind, Stop.read, Cut.lift, Bind.bind, Except.bind, throw,
      throwThe, MonadExceptOf.throw]
  | cons member rest ih =>
    obtain ⟨name, value⟩ := member
    obtain ⟨single, others⟩ := List.nodup_cons.mp distinct
    obtain ⟨firstFits, othersFit⟩ := List.forall_mem_cons.mp fits
    rw [DocMembers.ofJson, readItemKind, Members.find?_cons]
    -- The type stands here, and then no second one follows, or it stands among the rest.
    by_cases typed : name = "type"
    · subst typed
      rw [if_pos rfl, if_pos rfl, Option.some.injEq, ← readTag_ok_iff]
      cases read : readTag (Doc.ofJson value) with
      | error fault => simp [Bind.bind, Except.bind]
      | ok seen => simp [Bind.bind, Except.bind, readItemKind_seen othersFit seen single]
    · rw [if_neg typed, if_neg typed, Doc.check_ofJson firstFits]
      exact ih othersFit others

/-- An object in which another mode is entered reads as the item of the kind it names whose members
read on their own, all of them set aside till the kind was known. -/
theorem readDatum_item_entered_ok_iff {inner : Mode} (entered : mode.enter = .ok inner)
    (fits : ∀ member ∈ members, member.2.FitsIn inner.room) (distinct : members.Distinct)
    {fields : Fields k.kind.members} :
    readDatum mode .item (Doc.ofJson (.object members)) = .ok (.item k fields) ↔
      Members.find? "type" members = some (.text k.tag) ∧ ∀ m (p : Place m k.kind.members),
        (fields.get p).ReadFrom .aside (Members.find? m.name members) := by
  -- Once aside, nothing has a limit, so the members read as those of any record.
  have record : readDatum .aside (.record k.kind) (Doc.ofJson (.object members)) =
      .ok (.record fields) ↔ _ := readDatum_record_ok_iff rfl distinct
  simp only [Kind.memberMode_aside] at record
  rw [← readItemKind_ok_iff fits distinct, ← record, Doc.ofJson, readDatum, readDatum]
  simp only [Bind.bind, bind_ok_iff, Pure.pure, Except.pure, entered]
  -- Reading an item is to find its kind and then to read its members as a record of that kind.
  constructor
  · rintro ⟨_, same, found, named, held, read, whole⟩
    cases same
    cases whole
    exact ⟨named, .aside, rfl, fields, read, rfl⟩
  · rintro ⟨named, _, same, held, read, whole⟩
    cases same
    cases whole
    exact ⟨inner, rfl, k, named, fields, read, rfl⟩

/-- A value that is an object reads as the item of the kind it names whose members read on their
own, all of them set aside till the kind was known. -/
theorem readDatum_item_ok_iff (unlimited : mode.room = none) (distinct : members.Distinct)
    {fields : Fields k.kind.members} :
    readDatum mode .item (Doc.ofJson (.object members)) = .ok (.item k fields) ↔
      Members.find? "type" members = some (.text k.tag) ∧ ∀ m (p : Place m k.kind.members),
        (fields.get p).ReadFrom .aside (Members.find? m.name members) :=
  -- Without a limit every member fits, so that what is set aside is read as it is.
  readDatum_item_entered_ok_iff (Mode.enter_of_unlimited unlimited)
    (fun member _ => member.2.fitsIn_of_unlimited unlimited) distinct

/-- An item is read as a record of the kind that its type names. -/
theorem readDatum_item_ok_iff_record (unlimited : mode.room = none) (distinct : members.Distinct)
    {fields : Fields k.kind.members} :
    readDatum mode .item (Doc.ofJson (.object members)) = .ok (.item k fields) ↔
      Members.find? "type" members = some (.text k.tag) ∧
        readDatum .aside (.record k.kind) (Doc.ofJson (.object members)) =
          .ok (.record fields) := by
  -- Set aside means the same for all members, whichever of them the record has.
  rw [readDatum_item_ok_iff unlimited distinct, readDatum_record_ok_iff rfl distinct]
  simp only [Kind.memberMode_aside]

end

end ContentApi
