import ContentApi.Proofs.Json.Nulls
import ContentApi.Proofs.Schema.Frame
import ContentApi.Schema.View

/-! Which nulls of a document count when it is read; without all others it reads the same. -/

namespace ContentApi

/-- Whether null is read as the value of a leaf that is not there. -/
def Leaf.readsNull : Leaf → Bool
  | .instant | .days | .grants | .untyped => true
  | .text | .flag | .count | .word _ | .properties => false

/-- Whether a member that is null is as good as one that is missing. -/
def Member.ignoresNull : Member → Bool
  -- A member that must be there is at fault either way.
  | .optional _ _ | .omittable _ _ | .mandatory _ _ => true
  | .plain _ l => l.readsNull
  | .entries _ _ => false

/-- The shape of the document that a member is, if it is not a list. -/
def Member.shape? : Member → Option Shape
  | .optional _ s => some s
  | .plain _ l | .mandatory _ l => some (.leaf l)
  | .entries _ _ | .omittable _ _ => none

/-- The documents of a shape with a null that counts: a member that is null where that is not as
good as to be missing, in the record itself or further down, or a null inside a word that is an
object. -/
inductive Json.NullCounts : Shape → Json → Prop where
  | member {k : Kind} {members : Members} {m : Member} (listed : m ∈ k.members)
    (counts : m.ignoresNull = false) (null : Members.find? m.name members = some .null) :
    NullCounts (.record k) (.object members)
  | nested {k : Kind} {members : Members} {m : Member} {s : Shape} {value : Json}
    (listed : m ∈ k.members) (shaped : m.shape? = some s)
    (found : Members.find? m.name members = some value) (inner : NullCounts s value) :
    NullCounts (.record k) (.object members)
  | item {k : ItemKind} {members : Members}
    (tagged : Members.find? "type" members = some (.text k.tag))
    (inner : NullCounts (.record k.kind) (.object members)) : NullCounts .item (.object members)
  | word {v : Vocabulary} {members : Members} (nulls : Members.withoutNulls members ≠ members) :
    NullCounts (.leaf (.word v)) (.object members)

/-- A null counts inside an object, and not by itself. -/
theorem Json.NullCounts.isNull_eq_false {s : Shape} {value : Json}
    (counts : Json.NullCounts s value) : value.isNull = false := by
  cases counts <;> rfl

/-- A null counts only where there is one. -/
theorem Json.NullCounts.withoutNulls_ne {s : Shape} {value : Json}
    (counts : Json.NullCounts s value) (ordered : value.Ordered) : value.withoutNulls ≠ value := by
  intro same
  -- Down to where the null stands, each member would be the same without nulls.
  induction counts with
  | @member k members m listed counts null =>
    have left := Members.find?_withoutNulls m.name ordered.1.distinct
    rw [Json.withoutNulls, Json.object.injEq] at same
    rw [same, null] at left
    cases left
  | @nested k members m s value listed shaped found inner ih =>
    have left := Members.find?_withoutNulls m.name ordered.1.distinct
    rw [Json.withoutNulls, Json.object.injEq] at same
    rw [same, found, Option.bind_some, Json.given?, inner.isNull_eq_false] at left
    exact ih (ordered.2.find? found) (Option.some.inj left).symm
  | item tagged inner ih => exact ih ordered same
  | word nulls =>
    rw [Json.withoutNulls, Json.object.injEq] at same
    exact nulls same

/-- The shape of a typed member is typed. -/
theorem Member.isTyped_of_shape? {m : Member} {s : Shape} (typed : m.isTyped = true)
    (shaped : m.shape? = some s) : s.isTyped = true := by
  -- Each member that has a shape is typed by the shape, and lists have none.
  cases m with
  | optional name shape =>
    cases shaped
    exact Member.isTyped_shape typed
  | plain name l =>
    cases shaped
    exact typed
  | mandatory name l =>
    cases shaped
    exact Leaf.isTyped_of_isPresent typed
  | entries | omittable => cases shaped

/-- Whatever says something of a permission says the same without the nulls inside it. -/
theorem grantOf?_withoutNulls (value : Json) : grantOf? value.withoutNulls = grantOf? value := by
  cases value <;> simp [Json.withoutNulls, grantOf?]

/-- A null among the flags of a set refuses a permission that was not granted anyway. -/
theorem readGrantMembers_withoutNulls {members : Members} (distinct : members.Distinct)
    {g read : Grants} (fresh : ∀ p : FolderPermission, p.name ∈ members.map Prod.fst →
      g.allows p = false) :
    readGrantMembers g (DocMembers.ofJson members) = .ok read ↔
      readGrantMembers g (DocMembers.ofJson (Members.withoutNulls members)) = .ok read := by
  -- The set grants nothing yet that a later member has the name of.
  induction members generalizing g with
  | nil => rw [Members.withoutNulls]
  | cons member rest ih =>
    obtain ⟨name, value⟩ := member
    obtain ⟨single, others⟩ := List.nodup_cons.mp distinct
    rw [readGrantMembers_ok_iff, Members.withoutNulls]
    by_cases null : value.isNull = true
    · rw [if_pos null, Json.isNull_iff.mp null]
      have same : g.setNamed name false = g := Grants.ext fun p => by
        rw [Grants.allows_setNamed]
        split
        · next named => exact (fresh p (named ▸ List.mem_cons_self)).symm
        · rfl
      simp only [grantOf?, Option.some.injEq, exists_eq_left', same]
      exact ih others fun p inside => fresh p (List.mem_cons_of_mem _ inside)
    · rw [if_neg null, readGrantMembers_ok_iff, grantOf?_withoutNulls]
      refine exists_congr fun granted => and_congr_right fun _ => ih others fun p inside => ?_
      -- The permission that is set now is not one of a later member.
      have differs : name ≠ p.name := fun same => single (same ▸ inside)
      rw [Grants.allows_setNamed, if_neg differs]
      exact fresh p (List.mem_cons_of_mem _ inside)

section

variable {mode : Mode}

/-- A value that fits is read as the days that it is once it is arranged. -/
theorem readDays_ofJson {value : Json} (fits : value.FitsIn mode.room) :
    readDays mode (Doc.ofJson value) = .ok (daysOf? value.arranged) := by
  -- A reader of days takes every kind of value, so the kinds are gone through.
  rw [Json.FitsIn] at fits
  cases value <;> simp_all [readDays, Doc.ofJson]

/-- A value is read as a leaf the same without its nulls, unless one of them counts. -/
theorem Leaf.read_withoutNulls {l : Leaf} (typed : l.isTyped = true) (unlimited : mode.room = none)
    {value : Json} (ordered : value.Ordered) (discounted : ¬ Json.NullCounts (.leaf l) value)
    (read : l.Carrier) : l.read mode (Doc.ofJson value) = .ok read ↔
      l.read mode (Doc.ofJson value.withoutNulls) = .ok read := by
  cases value with
  | null | flag | number | text | array => rw [Json.withoutNulls_of_isObject rfl]
  | object members =>
    rw [Json.withoutNulls]
    cases l with
    -- No object is read as one of these.
    | text => simp [Leaf.read, readText, Doc.ofJson, Doc.mismatch, Doc.unexpected]
    | flag => simp [Leaf.read, readFlag, Doc.ofJson, Doc.mismatch, Doc.unexpected]
    | count => simp [Leaf.read, readCount, Doc.ofJson, Doc.mismatch, Doc.unexpected]
    | instant =>
      simp [Leaf.read, readInstant, readText, Doc.ofJson, Doc.mismatch, Doc.unexpected, Bind.bind,
        Except.bind]
    | word v =>
      have same : Members.withoutNulls members = members :=
        Decidable.byContradiction fun nulls => discounted (.word nulls)
      rw [same]
    | days =>
      rw [Leaf.read, Leaf.read, readDays_ofJson (Json.fitsIn_of_unlimited unlimited _),
        readDays_ofJson (Json.fitsIn_of_unlimited unlimited _)]
      simp only [Json.arranged, daysOf?]
    | grants =>
      have same : ∀ granted, readGrantMembers .none (DocMembers.ofJson members) = .ok granted ↔
          readGrantMembers .none (DocMembers.ofJson (Members.withoutNulls members)) =
            .ok granted :=
        fun granted => readGrantMembers_withoutNulls ordered.1.distinct fun _ _ => rfl
      simp only [Leaf.read, readGrants, Doc.ofJson, Mode.enter_of_unlimited unlimited, Bind.bind,
        bind_ok_iff, same]
    | untyped | properties => cases typed

/-- A leaf that has a value for null is not there if it is null. -/
theorem Leaf.read_null {l : Leaf} (ignored : l.readsNull = true) :
    l.read mode .null = .ok l.absent := by
  -- A text, a flag, a number, a word and an object want to be there.
  cases l with
  | text | flag | count | word | properties => cases ignored
  | instant | grants => rfl
  | days | untyped =>
    simp [Leaf.read, readDays, readUntyped, Doc.toJson, daysOf?, Leaf.absent]

/-- A member that may be missing, and that is null where that is as good, is read as if it were
missing. -/
theorem readMember_null_of_optional {m : Member} (optional : m.isMandatory = false)
    (ignored : m.ignoresNull = true) {slot : Slot m} :
    readMember mode .null m = .ok slot ↔ slot.ReadFrom mode none := by
  rw [readMember, Slot.ReadFrom, Doc.ofJson]
  -- The reader takes null for nothing, or the leaf does.
  cases m with
  | optional | omittable =>
    simp [readSlot, Member.isMandatory, Slot.blank, eq_comm]
  | entries => cases ignored
  | plain name l =>
    simp [readSlot, Leaf.read_null ignored, Member.isMandatory, Slot.blank, Except.map, eq_comm]
  | mandatory => cases optional

/-- A member that is null where that is as good as to be missing is read as if it were missing. -/
theorem readMember_null {m : Member} (typed : m.isTyped = true) (ignored : m.ignoresNull = true)
    {slot : Slot m} : readMember mode .null m = .ok slot ↔ slot.ReadFrom mode none := by
  -- A mandatory leaf refuses null just as it refuses to be missing.
  cases m with
  | mandatory name l =>
    rw [readMember, Slot.ReadFrom, Doc.ofJson]
    cases l with
    | instant | days | grants | untyped | properties => cases typed
    | text | flag | count =>
      simp [readSlot, Leaf.read, readText, readFlag, readCount, Doc.mismatch, Doc.unexpected,
        Member.isMandatory, Except.map]
    | word v =>
      cases mode <;> simp [readSlot, Leaf.read, readWord, Doc.mismatch, Doc.unexpected,
        Member.isMandatory, Except.map]
  | optional | plain | entries | omittable => exact readMember_null_of_optional rfl ignored

/-- A member that is null where that is not as good as to be missing is not read. -/
theorem readMember_null_ne_ok {m : Member} (counts : m.ignoresNull = false) (slot : Slot m) :
    readMember mode .null m ≠ .ok slot := by
  rw [readMember, Doc.ofJson]
  -- A list and a plain leaf are told apart, as either refuses null in its own reader.
  cases m with
  | optional | omittable | mandatory => cases counts
  | entries => simp [readSlot, readItems, Doc.mismatch, Doc.unexpected, Except.map]
  | plain name l =>
    cases l with
    | instant | days | grants | untyped => cases counts
    | text | flag | count | properties =>
      simp [readSlot, Leaf.read, readText, readFlag, readCount, readProperties, Doc.mismatch,
        Doc.unexpected, Except.map]
    | word v =>
      cases mode <;> simp [readSlot, Leaf.read, readWord, Doc.mismatch, Doc.unexpected, Except.map]

/-- A member that is not null and not a list is read as a document of its shape. -/
theorem exists_readMember_eq_map {m : Member} {s : Shape} (shaped : m.shape? = some s) :
    ∃ hold : Datum s → Slot m, ∀ mode value, value.isNull = false →
      readMember mode value m = (readDatum mode s (Doc.ofJson value)).map hold := by
  -- The member decides how the document is held, and null is the only value it takes for itself.
  cases m with
  | optional name s =>
    cases shaped
    refine ⟨.given, fun mode value notNull => ?_⟩
    cases value with
    | null => cases notNull
    | flag | number | text | array | object => simp [readMember, readSlot, Doc.ofJson]
  | plain name l =>
    cases shaped
    refine ⟨fun d => .plain d.value, fun mode value _ => ?_⟩
    rw [readDatum_leaf, readMember, readSlot]
    cases l.read mode (Doc.ofJson value) <;> rfl
  | mandatory name l =>
    cases shaped
    refine ⟨fun d => .mandatory d.value, fun mode value _ => ?_⟩
    rw [readDatum_leaf, readMember, readSlot]
    cases l.read mode (Doc.ofJson value) <;> rfl
  | entries | omittable => cases shaped

/-- A member that is not null is read the same without the nulls inside it, if a document of its
shape is. -/
theorem readMember_withoutNulls {m : Member} {value : Json} (notNull : value.isNull = false)
    (same : ∀ s, m.shape? = some s → ∀ d : Datum s, readDatum mode s (Doc.ofJson value) = .ok d ↔
      readDatum mode s (Doc.ofJson value.withoutNulls) = .ok d) {slot : Slot m} :
    readMember mode value m = .ok slot ↔ readMember mode value.withoutNulls m = .ok slot := by
  cases shape : m.shape? with
  | some s =>
    obtain ⟨hold, reads⟩ := exists_readMember_eq_map shape
    rw [reads mode value notNull, map_ok_iff,
      reads mode _ (value.isNull_withoutNulls.trans notNull), map_ok_iff]
    simp only [same s shape]
  | none =>
    -- No object is a list, and nothing else has nulls to lose.
    cases value with
    | object members =>
      cases m with
      | optional | plain | mandatory => cases shape
      | entries | omittable =>
        simp [Json.withoutNulls, readMember, readSlot, Doc.ofJson, readItems, Doc.mismatch,
          Doc.unexpected, Except.map]
    | null | flag | number | text | array => rw [Json.withoutNulls_of_isObject rfl]

/-- A member is read the same without nulls, if none of them counts. -/
theorem Slot.readFrom_withoutNulls {m : Member} (typed : m.isTyped = true) {value : Option Json}
    (discounted : value = some .null → m.ignoresNull = true)
    (same : ∀ s, m.shape? = some s → ∀ inner, value = some inner → ∀ d : Datum s,
      readDatum mode s (Doc.ofJson inner) = .ok d ↔
        readDatum mode s (Doc.ofJson inner.withoutNulls) = .ok d) {slot : Slot m} :
    slot.ReadFrom mode value ↔ slot.ReadFrom mode (value.bind Json.given?) := by
  -- A value that is null goes, and any other one stays, without the nulls inside.
  cases value with
  | none => rfl
  | some inner =>
    rw [Option.bind_some, Json.given?]
    split
    · next null =>
      cases Json.isNull_iff.mp null
      exact readMember_null typed (discounted rfl)
    · next visible =>
      exact readMember_withoutNulls (Bool.eq_false_iff.mpr visible) fun s shaped =>
        same s shaped inner rfl

end

/-- A document is read the same without its nulls, in every shape for which none of them counts. -/
def Json.SameWithoutNulls (value : Json) : Prop :=
  ∀ (s : Shape) (d : Datum s) (mode : Mode), s.isTyped = true → mode.room = none →
    ¬ Json.NullCounts s value →
    (readDatum mode s (Doc.ofJson value) = .ok d ↔
      readDatum mode s (Doc.ofJson value.withoutNulls) = .ok d)

section

variable {mode : Mode} {members : Members}

/-- A record is read the same without nulls if what it holds for each member is. -/
theorem readDatum_record_withoutNulls {k : Kind} (typed : k.isTyped = true)
    (unlimited : mode.room = none) (distinct : members.Distinct)
    (inner : ∀ name value, Members.find? name members = some value → value.SameWithoutNulls)
    (discounted : ¬ Json.NullCounts (.record k) (.object members)) (d : Datum (.record k)) :
    readDatum mode (.record k) (Doc.ofJson (.object members)) = .ok d ↔
      readDatum mode (.record k) (Doc.ofJson (.object (Members.withoutNulls members))) = .ok d := by
  obtain ⟨fields⟩ := d
  rw [readDatum_record_ok_iff unlimited distinct,
    readDatum_record_ok_iff unlimited distinct.withoutNulls]
  refine forall_congr' fun m => forall_congr' fun p => ?_
  have memberTyped := Kind.isTyped_members typed p.mem
  rw [Members.find?_withoutNulls m.name distinct]
  -- A null that counts for the member would count for the record.
  refine Slot.readFrom_withoutNulls memberTyped (fun null => ?_) fun s shaped value found d => ?_
  · exact eq_true_of_ne_false fun counts => discounted (.member p.mem counts null)
  · exact inner m.name value found s d _ (Member.isTyped_of_shape? memberTyped shaped)
      (Kind.room_memberMode unlimited m) fun counts =>
        discounted (.nested p.mem shaped found counts)

/-- What is read as an item is read as a record of the kind that its type names. -/
theorem exists_readDatum_record (unlimited : mode.room = none) (distinct : members.Distinct)
    {k : ItemKind} (tagged : Members.find? "type" members = some (.text k.tag)) {d : Datum .item}
    (ok : readDatum mode .item (Doc.ofJson (.object members)) = .ok d) :
    ∃ held, readDatum .aside (.record k.kind) (Doc.ofJson (.object members)) = .ok held := by
  -- The tag that was read is the one that is there, so that it names the same kind.
  obtain ⟨j, fields⟩ := d
  obtain ⟨named, read⟩ := (readDatum_item_ok_iff_record unlimited distinct).mp ok
  cases ItemKind.tag_inj (Json.text.inj (Option.some.inj (named.symm.trans tagged)))
  exact ⟨_, read⟩

end

mutual

/-- An ordered document is read the same without its nulls. -/
theorem Json.sameWithoutNulls : (value : Json) → value.Ordered → value.SameWithoutNulls
  | .null, _ | .flag _, _ | .number _, _ | .text _, _ | .array _, _ =>
    fun _ _ _ _ _ _ => by rw [Json.withoutNulls_of_isObject rfl]
  | .object members, ordered => by
    intro s d mode typed unlimited discounted
    have inner := Members.sameWithoutNulls members ordered.2
    have distinct := ordered.1.distinct
    rw [Json.withoutNulls]
    cases d with
    | leaf held =>
      rw [readDatum_leaf, readDatum_leaf, map_ok_iff, map_ok_iff]
      have same := Leaf.read_withoutNulls typed unlimited ordered discounted
      simp only [same, Json.withoutNulls]
    | record fields =>
      exact readDatum_record_withoutNulls typed unlimited distinct inner discounted _
    | item k fields =>
      rw [readDatum_item_ok_iff_record unlimited distinct,
        readDatum_item_ok_iff_record unlimited distinct.withoutNulls,
        Members.find?_withoutNulls_text distinct]
      -- What counts for the record of the kind that is named counts for the item.
      exact and_congr_right fun tagged => readDatum_record_withoutNulls k.isTyped_kind rfl distinct
        inner (fun counts => discounted (.item tagged counts)) _

/-- The members of an ordered document are read the same without nulls. -/
theorem Members.sameWithoutNulls : (members : Members) → Json.OrderedMembers members →
    (name : String) → (value : Json) → Members.find? name members = some value →
    value.SameWithoutNulls
  | [], _, _, _, found => nomatch found
  -- The induction is on the members, down to the one that is found.
  | (key, first) :: rest, ordered, name, value, found => by
    rw [Members.find?_cons] at found
    split at found
    · cases found
      exact Json.sameWithoutNulls first ordered.1
    · exact Members.sameWithoutNulls rest ordered.2 name value found

end

section

variable {mode : Mode} {members : Members}

/-- Beside a word stands null, or an object without members in place of it. -/
theorem readUnit_ok {value : Json} (ok : readUnit mode (Doc.ofJson value) = .ok ()) :
    value = .null ∨ value = .object [] := by
  -- An object with members is refused, and so is anything else.
  cases value with
  | null => exact Or.inl rfl
  | object inner =>
    cases inner with
    | nil => exact Or.inr rfl
    | cons member rest =>
      obtain ⟨name, value⟩ := member
      cases mode <;>
        simp [readUnit, Doc.ofJson, DocMembers.ofJson, Doc.mismatch, Doc.unexpected] at ok
  | flag | number | text | array =>
    cases mode <;> simp [readUnit, Doc.ofJson, Doc.mismatch, Doc.unexpected] at ok

/-- What stands beside a word in a text does not depend on the room there is. -/
theorem readUnit_text (room : Nat) (doc : Doc) :
    readUnit (.text room) doc = readUnit (.text 0) doc := by
  cases doc <;> simp [readUnit]

/-- An object is read as a word if its one member has the word for a name and the value that stands
beside a word. -/
theorem readWord_object_ok_iff {inner : Mode} (entered : mode.enter = .ok inner) {v : Vocabulary}
    {w : Word v} : readWord v mode (Doc.ofJson (.object members)) = .ok w ↔
      ∃ name value, members = [(name, value)] ∧ readUnit mode (Doc.ofJson value) = .ok () ∧
        Word.ofText v name = w := by
  -- From a text the member is looked at as it comes, and from a value once it is known to be one.
  rcases members with _ | ⟨⟨name, value⟩, _ | ⟨second, rest⟩⟩
  · cases mode <;> simp [readWord, Doc.ofJson, DocMembers.ofJson, entered, readWordMember, discard,
      Functor.discard, Functor.mapConst, Except.map, Function.comp, Bind.bind, Except.bind]
  · have alone : readWord v mode (Doc.ofJson (.object [(name, value)])) =
        (readUnit mode (Doc.ofJson value)).map fun _ => Word.ofText v name := by
      cases mode <;> simp only [readWord, Doc.ofJson, DocMembers.ofJson, entered, readWordMember,
        discard, Functor.discard, Functor.mapConst, Except.map, Function.comp, Bind.bind,
        Except.bind, Pure.pure, Except.pure, readUnit_text _]
    rw [alone, map_ok_iff]
    constructor
    · rintro ⟨⟨⟩, unit, rfl⟩
      exact ⟨name, value, rfl, unit, rfl⟩
    · rintro ⟨_, _, same, unit, rfl⟩
      cases same
      exact ⟨(), unit, rfl⟩
  · cases mode with
    | text room =>
      cases beside : readUnit (.text 0) (Doc.ofJson value) <;>
        simp [readWord, Doc.ofJson, DocMembers.ofJson, entered, readWordMember, discard,
          Functor.discard, Functor.mapConst, Except.map, Function.comp, Bind.bind, Except.bind,
          beside]
    | value | aside => simp [readWord, Doc.ofJson, DocMembers.ofJson]

/-- An object is read as a word only if its one member has the word for a name. -/
theorem readWord_object_ok (unlimited : mode.room = none) {v : Vocabulary} {w : Word v}
    (ok : readWord v mode (Doc.ofJson (.object members)) = .ok w) :
    ∃ name value, members = [(name, value)] ∧ (value = .null ∨ value = .object []) := by
  -- The object has just one member, whose value says nothing.
  obtain ⟨name, value, same, unit, -⟩ :=
    (readWord_object_ok_iff (Mode.enter_of_unlimited unlimited)).mp ok
  exact ⟨name, value, same, readUnit_ok unit⟩

/-- An object with nulls is not read as a word both with them and without. -/
theorem readWord_withoutNulls_ne_ok (unlimited : mode.room = none) {v : Vocabulary}
    (nulls : Members.withoutNulls members ≠ members) {a b : Word v}
    (ok : readWord v mode (Doc.ofJson (.object members)) = .ok a) :
    readWord v mode (Doc.ofJson (.object (Members.withoutNulls members))) ≠ .ok b := by
  intro okWithout
  obtain ⟨name, value, rfl, rfl | rfl⟩ := readWord_object_ok unlimited ok
  · -- Without its one member the object is no word.
    obtain ⟨_, _, impossible, _⟩ := readWord_object_ok unlimited okWithout
    simp [Members.withoutNulls, Json.isNull] at impossible
  · exact nulls (by simp [Members.withoutNulls, Json.isNull, Json.withoutNulls])

end

/-- Where a null counts, a document is not read both with its nulls and without. -/
theorem Json.NullCounts.not_both {s : Shape} {value : Json} (counts : Json.NullCounts s value)
    (ordered : value.Ordered) (typed : s.isTyped = true) {mode : Mode}
    (unlimited : mode.room = none) {a b : Datum s}
    (ok : readDatum mode s (Doc.ofJson value) = .ok a) :
    readDatum mode s (Doc.ofJson value.withoutNulls) ≠ .ok b := by
  intro okWithout
  -- The induction is on what makes the null count, down to the member or the word that has it.
  induction counts generalizing mode with
  | @member k members m listed counts null =>
    obtain ⟨fields⟩ := a
    obtain ⟨p⟩ := Place.exists_of_mem listed
    have reads := (readDatum_record_ok_iff unlimited ordered.1.distinct).mp ok m p
    rw [null] at reads
    exact readMember_null_ne_ok counts _ reads
  | @nested k members m s value listed shaped found inner ih =>
    obtain ⟨fields⟩ := a
    obtain ⟨others⟩ := b
    obtain ⟨p⟩ := Place.exists_of_mem listed
    obtain ⟨hold, reads⟩ := exists_readMember_eq_map shaped
    have distinct := ordered.1.distinct
    have left := (readDatum_record_ok_iff unlimited distinct).mp ok m p
    have right := (readDatum_record_ok_iff unlimited distinct.withoutNulls).mp okWithout m p
    have notNull := inner.isNull_eq_false
    rw [found] at left
    rw [Members.find?_withoutNulls m.name distinct, found, Option.bind_some, Json.given?,
      notNull] at right
    obtain ⟨_, innerOk, -⟩ := map_ok_iff.mp ((reads _ _ notNull).symm.trans left)
    obtain ⟨_, innerOkWithout, -⟩ := map_ok_iff.mp
      ((reads _ _ (value.isNull_withoutNulls.trans notNull)).symm.trans right)
    exact ih (ordered.2.find? found)
      (Member.isTyped_of_shape? (Kind.isTyped_members typed listed) shaped)
      (Kind.room_memberMode unlimited m) innerOk innerOkWithout
  | @item k members tagged inner ih =>
    have distinct := ordered.1.distinct
    rw [Json.withoutNulls] at okWithout
    -- Both readings are of the kind that the type names.
    obtain ⟨_, innerOk⟩ := exists_readDatum_record unlimited distinct tagged ok
    obtain ⟨_, innerOkWithout⟩ := exists_readDatum_record unlimited distinct.withoutNulls
      ((Members.find?_withoutNulls_text distinct).mpr tagged) okWithout
    exact ih ordered k.isTyped_kind rfl innerOk (by rwa [Json.withoutNulls])
  | @word v members nulls =>
    rw [Json.withoutNulls] at okWithout
    rw [readDatum_leaf, map_ok_iff] at ok okWithout
    obtain ⟨_, ok, -⟩ := ok
    obtain ⟨_, okWithout, -⟩ := okWithout
    exact readWord_withoutNulls_ne_ok unlimited nulls ok okWithout

end ContentApi
