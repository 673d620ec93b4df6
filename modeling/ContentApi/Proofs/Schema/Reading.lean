import ContentApi.Proofs.Json.Arranged
import ContentApi.Proofs.Schema.Places
import ContentApi.Schema.Reader

/-! A record is read from a value member by member, each from the value under its own name. -/

namespace ContentApi

mutual

/-- Nothing in a value breaks off for one who skips it. -/
theorem Doc.skip_ofJson : (value : Json) → (Doc.ofJson value).skip = .ok ()
  | .null | .flag _ | .number _ | .text _ => by simp [Doc.ofJson, Doc.skip]
  | .array items => by rw [Doc.ofJson, Doc.skip, DocItems.skip_ofJson items]
  | .object members => by rw [Doc.ofJson, Doc.skip, DocMembers.skip_ofJson members]

/-- Nothing in a list of values breaks off for one who skips it. -/
theorem DocItems.skip_ofJson : (items : List Json) → (DocItems.ofJson items).skip = .ok ()
  | [] => by simp [DocItems.ofJson, DocItems.skip, Stop.skip]
  | item :: rest => by
    simp [DocItems.ofJson, DocItems.skip, Doc.skip_ofJson item, DocItems.skip_ofJson rest,
      Bind.bind, Except.bind]

/-- Nothing in the members of a value breaks off for one who skips them. -/
theorem DocMembers.skip_ofJson : (members : Members) →
    (DocMembers.ofJson members).skip = .ok ()
  -- The recursion is on the members, behind the last of which the object is closed.
  | [] => by simp [DocMembers.ofJson, DocMembers.skip, Stop.skip]
  | (_, value) :: rest => by
    simp [DocMembers.ofJson, DocMembers.skip, Doc.skip_ofJson value, DocMembers.skip_ofJson rest,
      Bind.bind, Except.bind]

end

/-- A value that fits does not break off for one who reads it to its end. -/
theorem Doc.check_ofJson {room : Room} {value : Json} (fits : value.FitsIn room) :
    (Doc.ofJson value).check room = .ok () := by
  -- To check is to read and to drop what was read.
  rw [Json.FitsIn] at fits
  simp [Doc.check, fits, discard, Functor.discard, Functor.mapConst, Function.comp, Except.map]

/-- Inside a value the mode of reading stays the same. -/
theorem Mode.enter_of_unlimited {mode : Mode} (unlimited : mode.room = none) :
    mode.enter = .ok mode := by
  -- Only a text has a limit.
  cases mode with
  | text room => cases unlimited
  | value => rfl
  | aside => rfl

/-- A value that is skipped does not break off, however deep it is. -/
theorem Portion.pass_all (mode : Mode) (value : Json) :
    Portion.all.pass mode (Doc.ofJson value) = .ok () := by
  simp [Portion.pass, Doc.skip_ofJson, Cut.lift]

/-- Whatever a portion passes over, a value that fits does not break off there. -/
theorem Portion.pass_ofJson (portion : Portion) {mode : Mode} {value : Json}
    (fits : value.FitsIn mode.room) : portion.pass mode (Doc.ofJson value) = .ok () := by
  -- What is passed over is skipped, checked or not looked at, and a value that fits passes them
  -- all.
  cases portion with
  | all => exact pass_all mode value
  | own => simp [Portion.pass, Doc.check_ofJson fits, Cut.lift]
  | shared => rfl

/-- What a record holds for a member whose value is given. -/
def readMember (mode : Mode) (value : Json) (m : Member) : Except Fault (Slot m) :=
  readSlot (Doc.ofJson value) (fun s => readDatum mode s (Doc.ofJson value))
    (fun s => readItems mode s (Doc.ofJson value)) mode m

/-- What a record holds for a member after reading what an object has under its name, if anything.
A member that is not there is blank, unless it must be there. -/
def Slot.ReadFrom (mode : Mode) : {m : Member} → Option Json → Slot m → Prop
  | m, none, slot => m.isMandatory = false ∧ slot = Slot.blank m
  | m, some value, slot => readMember mode value m = .ok slot

/-- A record of which one member is read from something else has that member changed. -/
theorem Fields.readFrom_set {ms : List Member} {fields : Fields ms} {mode : Member → Mode}
    {m : Member} (distinct : (ms.map Member.name).Nodup) (found : String → Option Json)
    (reads : ∀ n (q : Place n ms), (fields.get q).ReadFrom (mode n) (found n.name))
    (p : Place m ms) {slot : Slot m} {newer : Option Json} (given : slot.ReadFrom (mode m) newer)
    {n : Member} (q : Place n ms) : ((fields.set p slot).get q).ReadFrom (mode n)
      (if m.name = n.name then newer else found n.name) := by
  by_cases same : m.name = n.name
  · -- A name has one place.
    cases place_unique distinct p q same.symm
    rw [if_pos rfl, get_set]
    exact given
  · rw [if_neg same, get_set_of_name_ne p q (Ne.symm same)]
    exact reads n q

/-- How the slot of a member changes while a portion of an object is read. -/
def Portion.Reads (portion : Portion) (mode : Mode) (k : Kind) (members : Members) {m : Member}
    (before after : Option (Slot m)) : Prop :=
  match if portion.takes k m.name then Members.find? m.name members else none with
  | none => after = before
  | some value => ∃ slot, readMember mode value m = .ok slot ∧ after = some slot

/-- The members of a record have distinct names. -/
theorem Kind.members_distinct (k : Kind) : (k.members.map Member.name).Nodup := by
  cases k <;> simp [Kind.members, Kind.extendsItem, Kind.ownMembers, itemMembers, textMember,
    flagMember, countMember, instantMember, wordMember, recordMember, Member.name]

section

variable {mode : Mode} {portion : Portion} {k : Kind} {slots : Slots k.members}

/-- A member that no place is found for is passed over. -/
theorem readMembers_passed {name : String} {value : Json}
    (passes : portion.pass mode (Doc.ofJson value) = .ok ()) (rest : Members)
    (passed : portion.locate? k name = none) :
    readMembers mode portion k slots (DocMembers.ofJson ((name, value) :: rest)) =
      readMembers mode portion k slots (DocMembers.ofJson rest) := by
  rw [DocMembers.ofJson, readMembers]
  -- Nothing is found for the name, so that the slots stay as they are.
  simp [passed, passes, Bind.bind, Except.bind]

/-- A member that a place is found for is read into it. -/
theorem readMembers_taken {name : String} (value : Json) (rest : Members)
    {found : Located k.members} (located : portion.locate? k name = some found)
    (fresh : slots.get found.place = none) :
    readMembers mode portion k slots (DocMembers.ofJson ((name, value) :: rest)) =
      (readMember mode value found.member).bind fun slot =>
        readMembers mode portion k (slots.put found.place slot) (DocMembers.ofJson rest) := by
  rw [DocMembers.ofJson, readMembers]
  -- The place is free, so that this is no repetition.
  simp [located, fresh, readMember, Bind.bind]

/-- A portion of an object is read name by name, into slots that nothing was read into yet. -/
theorem readMembers_ok_iff {members : Members}
    (passes : ∀ member ∈ members, portion.pass mode (Doc.ofJson member.2) = .ok ())
    (distinct : members.Distinct) {after : Slots k.members}
    (fresh : ∀ m (p : Place m k.members), portion.takes k m.name = true →
      m.name ∈ members.map Prod.fst → slots.get p = none) :
    readMembers mode portion k slots (DocMembers.ofJson members) = .ok after ↔
      ∀ m (p : Place m k.members), portion.Reads mode k members (slots.get p) (after.get p) := by
  -- The induction is on the members, since the slots fill up in their order.
  induction members generalizing slots with
  | nil =>
    have ended : readMembers mode portion k slots (DocMembers.ofJson []) = .ok slots := by
      simp [DocMembers.ofJson, readMembers, readMembersEnd, Stop.read, Cut.lift, Bind.bind,
        Except.bind, Pure.pure, Except.pure]
    rw [ended]
    simp only [Portion.Reads, Members.find?_nil, ite_self]
    refine ⟨fun same m p => ?_, fun agree => congrArg _ (Slots.ext fun m p => (agree m p).symm)⟩
    cases same
    rfl
  | cons member rest ih =>
    obtain ⟨name, value⟩ := member
    obtain ⟨single, others⟩ := List.nodup_cons.mp distinct
    obtain ⟨firstPasses, othersPass⟩ := List.forall_mem_cons.mp passes
    -- Places of members of other names see only the rest.
    have other : ∀ m (p : Place m k.members) (before : Option (Slot m)), m.name ≠ name →
        (portion.Reads mode k ((name, value) :: rest) before (after.get p) ↔
          portion.Reads mode k rest before (after.get p)) := by
      intro m p before differs
      rw [Portion.Reads, Portion.Reads, Members.find?_cons, if_neg (Ne.symm differs)]
    cases located : portion.locate? k name with
    | none =>
      rw [readMembers_passed firstPasses rest located, ih othersPass others fun m p takes inside =>
        fresh m p takes (List.mem_cons_of_mem _ inside)]
      refine forall_congr' fun m => forall_congr' fun p => ?_
      by_cases same : m.name = name
      · -- A member of this name would have been located, so the portion does not take it up.
        have passed : portion.takes k m.name = false := by
          rw [same]
          cases takes : portion.takes k name with
          | false => rfl
          | true =>
            rw [Portion.locate?, if_pos takes] at located
            exact absurd same (name_ne_of_locate?_none located p)
        simp [Portion.Reads, passed]
      · exact (other m p _ same).symm
    | some found =>
      have takes : portion.takes k name = true := by
        cases skipped : portion.takes k name with
        | true => rfl
        | false => simp [Portion.locate?, skipped] at located
      have locatedHere : locate? name k.members = some found := by
        rwa [Portion.locate?, if_pos takes] at located
      have named := locate?_name locatedHere
      have empty : slots.get found.place = none :=
        fresh _ _ (named ▸ takes) (named ▸ List.mem_cons_self)
      -- A member of this name has the place that was found.
      have placed : ∀ m (p : Place m k.members), m.name = name → found = ⟨m, p⟩ := by
        intro m p same
        have here := locate?_place k.members_distinct p
        rw [same, locatedHere] at here
        exact Option.some.inj here
      rw [readMembers_taken value rest located empty]
      have atPlace : portion.Reads mode k ((name, value) :: rest) (slots.get found.place)
          (after.get found.place) ↔ ∃ slot, readMember mode value found.member = .ok slot ∧
            after.get found.place = some slot := by
        rw [Portion.Reads, named, if_pos takes, Members.find?_cons, if_pos rfl]
      cases read : readMember mode value found.member with
      | error fault =>
        simp only [Except.bind, reduceCtorEq, false_iff]
        intro all
        obtain ⟨slot, impossible, _⟩ := atPlace.mp (all _ found.place)
        rw [read] at impossible
        cases impossible
      | ok slot =>
        simp only [Except.bind]
        rw [ih othersPass others]
        · refine forall_congr' fun m => forall_congr' fun p => ?_
          by_cases same : m.name = name
          · cases placed m p same
            rw [atPlace, Portion.Reads, named, if_pos takes, Members.find?_eq_none single,
              Slots.get_put, read]
            simp
          · rw [other m p _ same, Slots.get_put_of_name_ne _ _ (named ▸ same)]
        · intro m p taken inside
          have differs : m.name ≠ name := fun same => single (same ▸ inside)
          rw [Slots.get_put_of_name_ne _ _ (named ▸ differs)]
          exact fresh m p taken (List.mem_cons_of_mem _ inside)

end

/-- The slots of a record, of which those whose names pass a test are filled. -/
def Fields.toSlots (filled : String → Bool) : {ms : List Member} → Fields ms → Slots ms
  | _, .nil => .nil
  | m :: _, .cons slot rest =>
    .cons (if filled m.name then some slot else none) (rest.toSlots filled)

theorem Fields.get_toSlots (filled : String → Bool) {m : Member} : {ms : List Member} →
    (fields : Fields ms) → (p : Place m ms) →
    (fields.toSlots filled).get p = if filled m.name then some (fields.get p) else none
  | _ :: _, .cons _ _, .here => rfl
  | _ :: _, .cons _ rest, .there p => get_toSlots filled rest p

/-- Whether items share a member of a name. -/
def isSharedName (name : String) : Bool :=
  itemMembers.any (·.name == name)

theorem Portion.takes_own (k : Kind) (name : String) :
    Portion.own.takes k name = !isSharedName name := rfl

theorem Portion.takes_shared (k : Kind) (name : String) :
    Portion.shared.takes k name = (isSharedName name && k.extendsItem) := rfl

/-- Whether a member of a record is one that items share. -/
def Kind.shares (k : Kind) (name : String) : Bool :=
  k.extendsItem && isSharedName name

/-- How a member of a record is read: what items share is set aside until the rest is read. -/
def Kind.memberMode (k : Kind) (mode : Mode) (m : Member) : Mode :=
  if k.shares m.name then .aside else mode

/-- A record is read once slots are found that hold what each name reads as. -/
theorem finish_ok_iff_readFrom {k : Kind} {mode : Member → Mode} {members : Members}
    {fields : Fields k.members} :
    (∃ slots : Slots k.members,
      (∀ m (p : Place m k.members), match Members.find? m.name members with
        | none => slots.get p = none
        | some value => ∃ slot, readMember (mode m) value m = .ok slot ∧ slots.get p = some slot) ∧
        slots.finish = .ok fields) ↔
      ∀ m (p : Place m k.members),
        (fields.get p).ReadFrom (mode m) (Members.find? m.name members) := by
  constructor
  · rintro ⟨slots, holds, finished⟩ m p
    have held := holds m p
    -- An empty slot ends as a blank member, and a filled one as what it holds.
    have ended := Slots.finish_ok_iff.mp finished m p
    cases found : Members.find? m.name members with
    | none =>
      rw [found] at held
      rw [held] at ended
      simpa [Slot.ReadFrom] using ended
    | some value =>
      rw [found] at held
      obtain ⟨slot, read, kept⟩ := held
      rw [kept] at ended
      rw [Slot.ReadFrom, read]
      simpa using ended
  · intro reads
    -- The slots to be found are those of the record, as far as the object has a value for them.
    refine ⟨fields.toSlots fun name => (Members.find? name members).isSome,
      fun m p => ?_, Slots.finish_ok_iff.mpr fun m p => ?_⟩
    · have read := reads m p
      rw [Fields.get_toSlots]
      cases found : Members.find? m.name members with
      | none => simp
      | some value => simpa [found, Slot.ReadFrom] using read
    · have read := reads m p
      rw [Fields.get_toSlots]
      cases found : Members.find? m.name members with
      | none => simpa [found, Slot.ReadFrom] using read
      | some value => simp

section

variable {mode : Mode} {k : Kind} {members : Members} {fields : Fields k.members}

variable (mode fields) in
/-- An object whose members are all taken up at once is read name by name. -/
theorem readPasses_ok_iff_of_whole (distinct : members.Distinct)
    (whole : k.extendsItem = false) :
    readPasses mode k (fun mode portion slots =>
        readMembers mode portion k slots (DocMembers.ofJson members)) = .ok fields ↔
      ∀ m (p : Place m k.members),
        (fields.get p).ReadFrom (k.memberMode mode m) (Members.find? m.name members) := by
  rw [← finish_ok_iff_readFrom, readPasses]
  simp only [whole, Bool.false_eq_true, if_false, Bind.bind, bind_ok_iff, mapError_ok_iff]
  -- One pass over all members fills every slot from its own name.
  refine exists_congr fun slots => and_congr_left fun _ => ?_
  rw [readMembers_ok_iff (fun member _ => Portion.pass_all mode member.2) distinct
    fun m p _ _ => Slots.get_empty p]
  refine forall_congr' fun m => forall_congr' fun p => ?_
  simp [Portion.Reads, Portion.takes, Kind.memberMode, Kind.shares, whole]

/-- An object whose shared members are set aside is read name by name too. -/
theorem readPasses_ok_iff_of_parted (fits : ∀ member ∈ members, member.2.FitsIn mode.room)
    (distinct : members.Distinct) (parted : k.extendsItem = true) :
    readPasses mode k (fun mode portion slots =>
        readMembers mode portion k slots (DocMembers.ofJson members)) = .ok fields ↔
      ∀ m (p : Place m k.members),
        (fields.get p).ReadFrom (k.memberMode mode m) (Members.find? m.name members) := by
  rw [← finish_ok_iff_readFrom, readPasses]
  simp only [parted, if_true, Bind.bind, bind_ok_iff, mapError_ok_iff]
  -- The first pass checks what items share and reads the rest; the second one reads what is shared.
  have passes := fun member inside => Portion.pass_ofJson .own (fits member inside)
  have start : ∀ m (p : Place m k.members), Portion.own.takes k m.name = true →
      m.name ∈ members.map Prod.fst → (Slots.empty k.members).get p = none :=
    fun m p _ _ => Slots.get_empty p
  constructor
  · rintro ⟨own, ownRead, slots, sharedRead, finished⟩
    have ownReads := (readMembers_ok_iff passes distinct start).mp ownRead
    -- The first pass leaves the slots of shared members empty.
    have fresh : ∀ m (p : Place m k.members), Portion.shared.takes k m.name = true →
        m.name ∈ members.map Prod.fst → own.get p = none := by
      intro m p shared _
      have first := ownReads m p
      simp only [Portion.takes_shared, Bool.and_eq_true] at shared
      simpa [Portion.Reads, Portion.takes_own, shared.1] using first
    have sharedReads := (readMembers_ok_iff (fun _ _ => rfl) distinct fresh).mp sharedRead
    refine ⟨slots, fun m p => ?_, finished⟩
    have first := ownReads m p
    have second := sharedReads m p
    simp only [Portion.Reads, Portion.takes_own, Portion.takes_shared, parted, Bool.and_true,
      Slots.get_empty] at first second
    simp only [Kind.memberMode, Kind.shares, parted, Bool.true_and]
    -- A member of its own is settled by the first pass, and a shared one by the second.
    cases shared : isSharedName m.name with
    | false =>
      simp only [shared, Bool.not_false, if_true, Bool.false_eq_true, if_false] at first second ⊢
      rwa [second]
    | true =>
      simp only [shared, Bool.not_true, if_true, Bool.false_eq_true, if_false] at first second ⊢
      rwa [first] at second
  · rintro ⟨slots, holds, finished⟩
    have reads := finish_ok_iff_readFrom.mp ⟨slots, holds, finished⟩
    -- After the first pass just the slots of the members that are not shared are filled.
    let own := fields.toSlots fun name => !isSharedName name && (Members.find? name members).isSome
    refine ⟨own, ?_, slots, ?_, finished⟩
    · refine (readMembers_ok_iff passes distinct start).mpr fun m p => ?_
      have read := reads m p
      simp only [Portion.Reads, Portion.takes_own, Slots.get_empty, own, Fields.get_toSlots]
      simp only [Kind.memberMode, Kind.shares, parted, Bool.true_and] at read
      by_cases shared : isSharedName m.name = true
      · simp [shared]
      · cases found : Members.find? m.name members with
        | none => simp
        | some value => simpa [shared, found, Slot.ReadFrom] using read
    · refine (readMembers_ok_iff (fun _ _ => rfl) distinct fun m p taken _ => ?_).mpr
        fun m p => ?_
      · simp only [Portion.takes_shared, Bool.and_eq_true] at taken
        simp [own, Fields.get_toSlots, taken.1]
      · have held := holds m p
        have read := reads m p
        simp only [Portion.Reads, Portion.takes_shared, parted, Bool.and_true, own,
          Fields.get_toSlots]
        simp only [Kind.memberMode, Kind.shares, parted, Bool.true_and] at held read
        cases shared : isSharedName m.name with
        | true =>
          simp only [shared, if_true] at held ⊢
          cases found : Members.find? m.name members with
          | none => simpa [found] using held
          | some value => simpa [found] using held
        | false =>
          cases found : Members.find? m.name members with
          | none => simpa [shared, found] using held
          | some value =>
            simp only [found, shared, Bool.false_eq_true, if_false] at held
            obtain ⟨slot, same, kept⟩ := held
            simp only [shared, found, Slot.ReadFrom, Bool.false_eq_true, if_false] at read
            rw [read] at same
            cases same
            simpa using kept

/-- An object is read as a record name by name. What items share must be readable in the room there
is, since it is checked before it is set aside. -/
theorem readPasses_ok_iff
    (fits : k.extendsItem = true → ∀ member ∈ members, member.2.FitsIn mode.room)
    (distinct : members.Distinct) :
    readPasses mode k (fun mode portion slots =>
        readMembers mode portion k slots (DocMembers.ofJson members)) = .ok fields ↔
      ∀ m (p : Place m k.members),
        (fields.get p).ReadFrom (k.memberMode mode m) (Members.find? m.name members) := by
  -- The kind decides whether its members are read in one pass or in two.
  cases parted : k.extendsItem with
  | false => exact readPasses_ok_iff_of_whole mode fields distinct parted
  | true => exact readPasses_ok_iff_of_parted (fits parted) distinct parted

/-- An object in which another mode is entered reads as the record whose members read on their own.
-/
theorem readDatum_entered_ok_iff {inner : Mode} (entered : mode.enter = .ok inner)
    (fits : k.extendsItem = true → ∀ member ∈ members, member.2.FitsIn inner.room)
    (distinct : members.Distinct) :
    readDatum mode (.record k) (Doc.ofJson (.object members)) = .ok (.record fields) ↔
      ∀ m (p : Place m k.members),
        (fields.get p).ReadFrom (k.memberMode inner m) (Members.find? m.name members) := by
  rw [← readPasses_ok_iff fits distinct, Doc.ofJson, readDatum]
  simp only [Bind.bind, bind_ok_iff, Pure.pure, Except.pure, entered]
  -- Reading enters the object once and then reads its members.
  constructor
  · rintro ⟨_, same, held, read, whole⟩
    cases same
    cases whole
    exact read
  · intro read
    exact ⟨inner, rfl, fields, read, rfl⟩

/-- Nothing is set aside of a record that shares no members with items. -/
theorem Kind.memberMode_of_whole (whole : k.extendsItem = false) (mode : Mode) (m : Member) :
    k.memberMode mode m = mode := by
  -- What a kind shares with items it shares only if it extends one.
  rw [memberMode, shares, whole, Bool.false_and]
  rfl

/-- An object in which another mode is entered reads as the record whose members read on their own,
if all of them are taken up at once. -/
theorem readDatum_whole_ok_iff {inner : Mode} (entered : mode.enter = .ok inner)
    (distinct : members.Distinct) (whole : k.extendsItem = false) :
    readDatum mode (.record k) (Doc.ofJson (.object members)) = .ok (.record fields) ↔
      ∀ m (p : Place m k.members),
        (fields.get p).ReadFrom inner (Members.find? m.name members) := by
  -- Nothing is set aside here, so nothing is checked for it.
  have fits : k.extendsItem = true → ∀ member ∈ members, member.2.FitsIn inner.room :=
    fun parted => absurd parted (Bool.eq_false_iff.mp whole)
  simp only [readDatum_entered_ok_iff entered fits distinct, Kind.memberMode_of_whole whole]

/-- A value that is an object reads as the record whose members read on their own. -/
theorem readDatum_record_ok_iff (unlimited : mode.room = none) (distinct : members.Distinct) :
    readDatum mode (.record k) (Doc.ofJson (.object members)) = .ok (.record fields) ↔
      ∀ m (p : Place m k.members),
        (fields.get p).ReadFrom (k.memberMode mode m) (Members.find? m.name members) :=
  -- Inside the object the mode is the one outside, as there is no limit to depth.
  readDatum_entered_ok_iff (Mode.enter_of_unlimited unlimited)
    (fun _ member _ => member.2.fitsIn_of_unlimited unlimited) distinct

end

end ContentApi
