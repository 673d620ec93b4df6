import ContentApi.Proofs.Schema.Agreement
import ContentApi.Proofs.Schema.NormalForm

/-! What a text says of a fault is told by it as a whole: by an object with the three words of a
report, or by a row of them. -/

namespace ContentApi

mutual

/-- Whether nothing in a document breaks off. -/
def Doc.IsWhole : Doc → Prop
  | .array items => items.IsWhole
  | .object members => members.IsWhole
  | .broken _ _ => False
  | _ => True

/-- Whether items are there to their end, and whole. -/
def DocItems.IsWhole : DocItems → Prop
  | .nil stop => stop = .closed
  | .cons item rest => item.IsWhole ∧ rest.IsWhole

/-- Whether members are there to their end, and their values whole. -/
def DocMembers.IsWhole : DocMembers → Prop
  | .nil stop => stop = .closed
  | .cons _ value rest => value.IsWhole ∧ rest.IsWhole

end

/-- Only a bracket that closes lets one who skips pass. -/
theorem Stop.skip_ok_iff (stop : Stop) : stop.skip = .ok () ↔ stop = .closed := by
  cases stop <;> simp [Stop.skip]

mutual

/-- What is passed over is whole. -/
theorem Doc.skip_ok_iff : (doc : Doc) → (doc.skip = .ok () ↔ doc.IsWhole)
  | .array items => DocItems.skip_ok_iff items
  | .object members => DocMembers.skip_ok_iff members
  | .broken _ _ => ⟨nofun, nofun⟩
  | .null | .flag _ | .number _ | .text _ => ⟨fun _ => trivial, fun _ => rfl⟩

/-- Items that are passed over are whole. -/
theorem DocItems.skip_ok_iff : (items : DocItems) → (items.skip = .ok () ↔ items.IsWhole)
  | .nil stop => stop.skip_ok_iff
  | .cons item rest => by
    rw [DocItems.skip, DocItems.IsWhole, ← Doc.skip_ok_iff item, ← DocItems.skip_ok_iff rest]
    -- The items are skipped one after the other, and skipping gives nothing but that it succeeded.
    exact bind_ok_iff.trans Unique.exists_iff

/-- Members that are passed over are whole. -/
theorem DocMembers.skip_ok_iff : (members : DocMembers) → (members.skip = .ok () ↔ members.IsWhole)
  -- The recursion is on the members, up to where they end.
  | .nil stop => stop.skip_ok_iff
  | .cons _ value rest => by
    rw [DocMembers.skip, DocMembers.IsWhole, ← Doc.skip_ok_iff value,
      ← DocMembers.skip_ok_iff rest]
    exact bind_ok_iff.trans Unique.exists_iff

end

namespace DocMembers

/-- The values that stand under a name, in their order. -/
def under (name : String) : DocMembers → List Doc
  | .nil _ => []
  | .cons found value rest =>
    if found = some name then value :: rest.under name else rest.under name

/-- Whether every name is a text, and only values under names that pass a test break off. -/
def IsReadable (isKnown : String → Bool) : DocMembers → Prop
  | .nil stop => stop = .closed
  | .cons none _ _ => False
  | .cons (some name) value rest =>
    (isKnown name = false → value.IsWhole) ∧ rest.IsReadable isKnown

/-- Whether every name is a text. -/
def IsNamed : DocMembers → Prop
  | .nil _ => True
  | .cons name _ rest => name.isSome = true ∧ rest.IsNamed

/-- A value that stands first stands first under its name. -/
theorem under_cons_self (name : String) (value : Doc) (rest : DocMembers) :
    (cons (some name) value rest).under name = value :: rest.under name := by
  rw [under, if_pos rfl]

/-- A value does not stand under any other name. -/
theorem under_cons_of_ne {name other : String} (differs : name ≠ other) (value : Doc)
    (rest : DocMembers) : (cons (some other) value rest).under name = rest.under name := by
  rw [under, if_neg fun same => differs (Option.some.inj same).symm]

/-- Where known values are whole, members are readable exactly if they are named and whole. -/
theorem isReadable_iff {isKnown : String → Bool} : (members : DocMembers) →
    (∀ name, isKnown name = true → ∀ value ∈ members.under name, value.IsWhole) →
    (members.IsReadable isKnown ↔ members.IsWhole ∧ members.IsNamed)
  | .nil _, _ => (and_iff_left trivial).symm
  | .cons none _ _, _ => ⟨nofun, fun both => nomatch both.2.1⟩
  | .cons (some name) value rest, whole => by
    have others : ∀ other, isKnown other = true → ∀ later ∈ rest.under other, later.IsWhole := by
      intro other known later inside
      refine whole other known later ?_
      by_cases same : other = name
      · rw [same, under_cons_self]
        exact List.mem_cons_of_mem _ (same ▸ inside)
      · rwa [under_cons_of_ne same]
    -- A value is whole because it is known, or because it has to be.
    have first : (isKnown name = false → value.IsWhole) ↔ value.IsWhole := by
      refine ⟨fun unknown => ?_, fun isWhole _ => isWhole⟩
      cases known : isKnown name with
      | false => exact unknown known
      | true => exact whole name known value (by rw [under_cons_self]; exact List.mem_cons_self)
    rw [IsReadable, IsWhole, IsNamed, first, isReadable_iff rest others]
    exact ⟨fun ⟨here, later, named⟩ => ⟨⟨here, later⟩, rfl, named⟩,
      fun ⟨⟨here, later⟩, _, named⟩ => ⟨here, later, named⟩⟩

end DocMembers

/-- What a record holds for a member after all values under its name have been looked at: one that
is not there changes nothing, and more than one is a fault. -/
def Slot.TakenFrom (mode : Mode) {m : Member} (before after : Option (Slot m)) : List Doc → Prop
  | [] => after = before
  | [value] => before = none ∧ ∃ slot, readSlot value (fun s => readDatum mode s value)
      (fun s => readItems mode s value) mode m = .ok slot ∧ after = some slot
  | _ => False

namespace Slot

variable {mode : Mode} {m : Member} {before after : Option (Slot m)} {value : Doc}
  {later : List Doc}

/-- What has been read for a member is not read once more. -/
theorem not_takenFrom_some (slot : Slot m) :
    ¬ TakenFrom mode (some slot) after (value :: later) := by
  -- With one value left the slot is not empty, and with more of them the second read is refused.
  cases later with
  | nil => exact fun taken => nomatch taken.1
  | cons next rest => exact id

/-- What cannot be read for a member is not taken. -/
theorem readSlot_of_takenFrom (taken : TakenFrom mode before after (value :: later)) :
    ∃ slot, readSlot value (fun s => readDatum mode s value) (fun s => readItems mode s value) mode
      m = .ok slot := by
  -- Only a single value is taken, and that one was read.
  cases later with
  | nil =>
    obtain ⟨-, slot, read, -⟩ := taken
    exact ⟨slot, read⟩
  | cons next rest => exact absurd taken id

/-- A value that was read leaves nothing to be read under its name. -/
theorem takenFrom_cons_iff {slot : Slot m} (read : readSlot value (fun s => readDatum mode s value)
    (fun s => readItems mode s value) mode m = .ok slot) :
    TakenFrom mode none after (value :: later) ↔ TakenFrom mode (some slot) after later := by
  -- Behind a value that was read there may be no other one of its name.
  cases later with
  | nil =>
    rw [TakenFrom, TakenFrom, read]
    refine ⟨?_, fun same => ⟨rfl, slot, rfl, same⟩⟩
    rintro ⟨-, _, same, taken⟩
    cases same
    exact taken
  | cons next rest => exact ⟨False.elim, fun taken => not_takenFrom_some slot taken⟩

end Slot

section

variable {mode : Mode} {k : Kind} {slots after : Slots k.members}

/-- An object is read to its end only if that is there. -/
theorem readMembersEnd_ok_iff {portion : Portion} (stop : Stop) :
    readMembersEnd portion slots stop = .ok after ↔ stop = .closed ∧ after = slots := by
  cases stop with
  | closed => exact ⟨fun same => ⟨rfl, (Except.ok.inj same).symm⟩, fun both => both.2 ▸ rfl⟩
  | cut read skip afterComma found => exact ⟨nofun, fun both => nomatch both.1⟩
  | afterName name next =>
    refine ⟨fun ended => ?_, fun both => nomatch both.1⟩
    -- A name without a value is a fault, whether or not it was there before.
    cases name with
    | none => cases ended
    | some name =>
      rw [readMembersEnd] at ended
      simp only [Stop.read, Cut.lift] at ended
      split at ended
      · split at ended <;> cases ended
      · cases ended

/-- The members of an object are read into a record if they are readable and each of those that are
known is there once at most, and is what it should be. -/
theorem readMembers_all_ok_iff : (members : DocMembers) → {slots : Slots k.members} →
    (readMembers mode .all k slots members = .ok after ↔
      members.IsReadable (fun name => (locate? name k.members).isSome) ∧
      ∀ m (p : Place m k.members),
        Slot.TakenFrom mode (slots.get p) (after.get p) (members.under m.name))
  | .nil stop, slots => by
    rw [readMembers, readMembersEnd_ok_iff]
    exact and_congr_right fun _ => ⟨fun same m p => same ▸ rfl, fun same => Slots.ext same⟩
  | .cons none _ _, slots => by
    rw [readMembers]
    refine ⟨fun read => ?_, fun both => absurd both.1 id⟩
    cases read
  | .cons (some name) value rest, slots => by
    rw [readMembers, DocMembers.IsReadable, show Portion.all.locate? k name =
      locate? name k.members from rfl]
    cases located : locate? name k.members with
    | none =>
      have passes : Portion.all.pass mode value = .ok () ↔ value.IsWhole :=
        mapError_ok_iff.trans value.skip_ok_iff
      show Except.bind _ _ = _ ↔ _
      rw [bind_ok_iff, Unique.exists_iff, passes, readMembers_all_ok_iff rest, ← and_assoc]
      refine and_congr (and_congr_left fun _ => ⟨fun whole _ => whole, fun whole => whole rfl⟩)
        (forall_congr' fun m => forall_congr' fun p => ?_)
      rw [DocMembers.under_cons_of_ne (name_ne_of_locate?_none located p)]
    | some found =>
      have named := locate?_name located
      have fault : (∀ m (p : Place m k.members), Slot.TakenFrom mode (slots.get p) (after.get p)
          ((DocMembers.cons (some name) value rest).under m.name)) →
          Slot.TakenFrom mode (slots.get found.place) (after.get found.place)
            (value :: rest.under name) := by
        intro taken
        have here := taken _ found.place
        rwa [named, DocMembers.under_cons_self] at here
      cases filled : slots.get found.place with
      | some slot =>
        simp only [filled, Option.isSome_some, if_true]
        refine iff_of_false (fun read => by cases read) fun both => ?_
        have here := fault both.2
        rw [filled] at here
        exact absurd here (Slot.not_takenFrom_some slot)
      | none =>
        simp only [filled, Option.isSome_none, Bool.false_eq_true, if_false]
        show Except.bind _ _ = _ ↔ _
        cases read : readSlot value (fun s => readDatum mode s value)
            (fun s => readItems mode s value) mode found.member with
        | error cause =>
          refine iff_of_false (fun failed => by cases failed) fun both => ?_
          obtain ⟨slot, impossible⟩ := Slot.readSlot_of_takenFrom (fault both.2)
          rw [read] at impossible
          cases impossible
        | ok slot =>
          show readMembers mode .all k (slots.put found.place slot) rest = _ ↔ _
          rw [readMembers_all_ok_iff rest]
          refine and_congr ⟨fun readable => ⟨(by cases ·), readable⟩, And.right⟩
            (forall_congr' fun m => forall_congr' fun p => ?_)
          by_cases same : m.name = name
          · -- A member of this name has the place that was found.
            cases place_unique k.members_distinct p found.place (named.trans same.symm)
            rw [Slots.get_put, filled, same, DocMembers.under_cons_self,
              Slot.takenFrom_cons_iff read]
          · rw [Slots.get_put_of_name_ne _ _ (named ▸ same), DocMembers.under_cons_of_ne same]

end

/-- What a record holds for each of its members after a row of documents that has one for each. -/
def Fields.IsWholeRow (mode : Mode) : {ms : List Member} → Fields ms → DocItems → Prop
  | _, .nil, items => items = .nil .closed
  | _, .cons _ _, .nil _ => False
  | m :: _, .cons slot rest, .cons value others =>
    readSlot value (fun s => readDatum mode s value) (fun s => readItems mode s value) mode m =
      .ok slot ∧ rest.IsWholeRow mode others

/-- A row ends behind the last member only if it is closed there. -/
theorem readRowEnd_ok_iff {mode : Mode} {total width : Nat} {items : DocItems} :
    readRowEnd mode total width items = .ok () ↔ items = .nil .closed := by
  constructor
  · intro ended
    -- Each way of reading has a fault of its own for a row that goes on.
    rw [readRowEnd.eq_def] at ended
    split at ended
    · rfl
    · split at ended <;> cases ended
  · rintro rfl
    rw [readRowEnd]

/-- A row that must be whole is read only if it has a document for each member and ends there. -/
theorem readRow_whole_ok_iff {mode : Mode} {k : Kind} (whole : k.needsWholeRow = true) {total : Nat}
    {index : Nat} {ms : List Member} {fields : Fields ms} {items : DocItems} :
    readRow mode k total index ms items = .ok fields ↔ fields.IsWholeRow mode items := by
  -- Members and documents are used up together.
  induction ms generalizing index items with
  | nil =>
    cases fields
    have ended : (readRowEnd mode total index items).bind (fun _ => .ok Fields.nil) =
        .ok Fields.nil ↔ items = .nil .closed := by
      rw [bind_ok_iff, Unique.exists_iff, ← @readRowEnd_ok_iff mode]
      exact and_iff_left rfl
    cases items <;> exact ended
  | cons m ms ih =>
    cases fields with
    | cons slot rest =>
    cases items with
    | nil stop =>
      rw [readRow, Fields.IsWholeRow, readRowRest, whole]
      refine ⟨fun read => ?_, False.elim⟩
      obtain ⟨_, -, impossible⟩ := bind_ok_iff.mp read
      cases impossible
    | cons value others =>
      rw [readRow, Fields.IsWholeRow, ← @ih (index + 1)]
      simp only [Bind.bind, bind_ok_iff, Pure.pure, Except.pure]
      constructor
      · rintro ⟨_, read, _, later, same⟩
        cases same
        exact ⟨read, later⟩
      · rintro ⟨read, later⟩
        exact ⟨slot, read, rest, later, rfl⟩

/-- What a document says that is a text or null. -/
inductive Doc.IsWord : Doc → Option String → Prop where
  | null : IsWord .null none
  | text (words : String) : IsWord (.text (some words)) (some words)

/-- What a record holds for a text that is there or not. -/
def wordSlot (name : String) : Option String → Slot (textMember name)
  | none => .absent
  | some words => .given (.leaf (l := .text) words)

/-- A member that is a text is read from a text or from null. -/
theorem readSlot_word_ok_iff {mode : Mode} {name : String} {value : Doc}
    {slot : Slot (textMember name)} :
    readSlot value (fun s => readDatum mode s value) (fun s => readItems mode s value) mode
      (textMember name) = .ok slot ↔ ∃ word, value.IsWord word ∧ slot = wordSlot name word := by
  -- What is not null is read as a text, and nothing else is one.
  have reads (words : Option String) : readSlot (.text words)
      (fun s => readDatum mode s (.text words)) (fun s => readItems mode s (.text words)) mode
        (textMember name) =
          (readText (.text words)).map fun words => wordSlot name (some words) := by
    show (readDatum mode (.leaf .text) (.text words)).map Slot.given = _
    rw [readDatum_leaf]
    cases words <;> rfl
  constructor
  · intro read
    cases value with
    | null =>
      cases read
      exact ⟨none, .null, rfl⟩
    | text words =>
      rw [reads] at read
      cases words with
      | none => cases read
      | some words =>
        cases read
        exact ⟨some words, .text words, rfl⟩
    | number value => cases value <;> cases read
    | flag | array | object | broken => cases read
  · rintro ⟨word, isWord, rfl⟩
    cases isWord with
    | null => rfl
    | text words =>
      rw [reads]
      rfl

/-- What a report of a fault says. -/
structure FaultReport where
  /-- The code of the fault. -/
  code : Option String
  /-- The words for the fault. -/
  message : Option String
  /-- The name under which the server remembers the request. -/
  requestId : Option String

/-- What members say under a name: nothing, or what the one value there says. -/
def DocMembers.Says (members : DocMembers) (name : String) (word : Option String) : Prop :=
  (members.under name = [] ∧ word = none) ∨
    ∃ value, members.under name = [value] ∧ value.IsWord word

/-- Whether a document is a report of a fault. It is an object that is whole, in which the three
words of the report are there once at most and everything else does not matter, or a row of the
three words. -/
inductive Doc.Reports : Doc → FaultReport → Prop where
  | object {members : DocMembers} {report : FaultReport} (whole : members.IsWhole)
    (named : members.IsNamed) (code : members.Says "code" report.code)
    (message : members.Says "message" report.message)
    (requestId : members.Says "request_id" report.requestId) : Reports (.object members) report
  | row {code message requestId : Doc} {report : FaultReport} (isCode : code.IsWord report.code)
    (isMessage : message.IsWord report.message)
    (isRequestId : requestId.IsWord report.requestId) :
    Reports (.array (.cons code (.cons message (.cons requestId (.nil .closed))))) report

/-- Whether a text is a report of a fault as a whole, behind which nothing follows. -/
def FaultReport.IsToldBy (report : FaultReport) (text : String) : Prop :=
  (WholeText.scan text).doc.Reports report ∧ (WholeText.scan text).trailing = false

/-- A report as a typed document. -/
def FaultReport.datum (report : FaultReport) : Datum (.record .apiError) :=
  .record (.cons (wordSlot "code" report.code) (.cons (wordSlot "message" report.message)
    (.cons (wordSlot "request_id" report.requestId) .nil)))

/-- What is taken for a text from the values under its name is what the members say there. -/
theorem exists_takenFrom_iff {mode : Mode} {members : DocMembers} {name : String}
    {slot : Slot (textMember name)} :
    (∃ taken, Slot.TakenFrom mode none taken (members.under name) ∧
      (taken = some slot ∨ taken = none ∧ slot = .absent)) ↔
    ∃ word, members.Says name word ∧ slot = wordSlot name word := by
  -- None, one, or more values stand under the name, and more than one is a repetition.
  rcases found : members.under name with _ | ⟨value, _ | ⟨next, rest⟩⟩
  · constructor
    · rintro ⟨_, rfl, taken⟩
      rcases taken with impossible | ⟨-, rfl⟩
      · cases impossible
      · exact ⟨none, Or.inl ⟨found, rfl⟩, rfl⟩
    · rintro ⟨word, ⟨-, rfl⟩ | ⟨value, here, -⟩, rfl⟩
      · exact ⟨none, rfl, Or.inr ⟨rfl, rfl⟩⟩
      · rw [found] at here
        cases here
  · constructor
    · rintro ⟨_, ⟨-, read, ok, rfl⟩, taken⟩
      rcases taken with same | ⟨impossible, -⟩
      · cases same
        obtain ⟨word, isWord, rfl⟩ := readSlot_word_ok_iff.mp ok
        exact ⟨word, Or.inr ⟨value, found, isWord⟩, rfl⟩
      · cases impossible
    · rintro ⟨word, ⟨nothing, -⟩ | ⟨_, here, isWord⟩, rfl⟩
      · rw [found] at nothing
        cases nothing
      · rw [found] at here
        cases here
        exact ⟨_, ⟨rfl, _, readSlot_word_ok_iff.mpr ⟨word, isWord, rfl⟩, rfl⟩, Or.inl rfl⟩
  · constructor
    · rintro ⟨_, impossible, -⟩
      exact absurd impossible id
    · rintro ⟨word, ⟨nothing, -⟩ | ⟨_, here, -⟩, -⟩
      · rw [found] at nothing
        cases nothing
      · rw [found] at here
        cases here

/-- A word that a report has is whole, so what stands under its name is. -/
theorem DocMembers.Says.isWhole {members : DocMembers} {name : String} {word : Option String}
    (said : members.Says name word) : ∀ value ∈ members.under name, value.IsWhole := by
  -- A word is one value alone, a text or null, and both are whole.
  rcases said with ⟨nothing, -⟩ | ⟨value, here, isWord⟩
  · rw [nothing]
    exact fun _ inside => nomatch inside
  · rw [here]
    intro _ inside
    cases List.mem_singleton.mp inside
    cases isWord <;> trivial

/-- The members of an object are read as a report if they are readable and say its three words. -/
theorem readPasses_apiError_ok_iff {mode : Mode} {members : DocMembers}
    {fields : Record .apiError} :
    (readPasses mode .apiError fun mode portion slots =>
      readMembers mode portion .apiError slots members) = .ok fields ↔
    members.IsReadable (fun name => (locate? name Kind.apiError.members).isSome) ∧
      ∃ code message requestId, members.Says "code" code ∧ members.Says "message" message ∧
        members.Says "request_id" requestId ∧
        Datum.record fields = (FaultReport.mk code message requestId).datum := by
  have passes : (readPasses mode .apiError fun mode portion slots =>
      readMembers mode portion .apiError slots members) =
        (readMembers mode .all .apiError (Slots.empty Kind.apiError.members) members).bind
          fun slots => slots.finish.mapError fun name => .mismatch (.missing name) := rfl
  rw [passes, bind_ok_iff]
  simp only [mapError_ok_iff, readMembers_all_ok_iff, Slots.finish_ok_iff, Slots.get_empty]
  obtain _ | ⟨code, _ | ⟨message, _ | ⟨requestId, ⟨⟩⟩⟩⟩ := fields
  constructor
  · rintro ⟨after, ⟨readable, taken⟩, finished⟩
    -- Each of the three places is looked at on its own.
    have said (name : String) (p : Place (textMember name) Kind.apiError.members) :=
      exists_takenFrom_iff.mp
        ⟨after.get p, taken _ p, (finished _ p).imp_right fun blank => ⟨blank.1, blank.2.2⟩⟩
    obtain ⟨codeWord, saidCode, rfl⟩ := said "code" .here
    obtain ⟨messageWord, saidMessage, rfl⟩ := said "message" (.there .here)
    obtain ⟨idWord, saidId, rfl⟩ := said "request_id" (.there (.there .here))
    exact ⟨readable, codeWord, messageWord, idWord, saidCode, saidMessage, saidId, rfl⟩
  · rintro ⟨readable, codeWord, messageWord, idWord, saidCode, saidMessage, saidId, same⟩
    cases same
    obtain ⟨takenCode, ofCode, isCode⟩ :=
      (@exists_takenFrom_iff mode _ _ _).mpr ⟨codeWord, saidCode, rfl⟩
    obtain ⟨takenMessage, ofMessage, isMessage⟩ :=
      (@exists_takenFrom_iff mode _ _ _).mpr ⟨messageWord, saidMessage, rfl⟩
    obtain ⟨takenId, ofId, isId⟩ :=
      (@exists_takenFrom_iff mode _ _ _).mpr ⟨idWord, saidId, rfl⟩
    refine ⟨.cons takenCode (.cons takenMessage (.cons takenId .nil)), ⟨readable, ?_⟩, ?_⟩
    · intro m p
      rcases p with _ | (_ | (_ | ⟨⟨⟩⟩))
      · exact ofCode
      · exact ofMessage
      · exact ofId
    · intro m p
      rcases p with _ | (_ | (_ | ⟨⟨⟩⟩))
      · exact isCode.imp_right fun blank => ⟨blank.1, rfl, blank.2⟩
      · exact isMessage.imp_right fun blank => ⟨blank.1, rfl, blank.2⟩
      · exact isId.imp_right fun blank => ⟨blank.1, rfl, blank.2⟩

/-- Members with the words of a report are readable exactly if they are named and whole. -/
theorem DocMembers.isReadable_report_iff {members : DocMembers} {report : FaultReport}
    (code : members.Says "code" report.code) (message : members.Says "message" report.message)
    (requestId : members.Says "request_id" report.requestId) :
    members.IsReadable (fun name => (locate? name Kind.apiError.members).isSome) ↔
      members.IsWhole ∧ members.IsNamed := by
  refine members.isReadable_iff fun name known => ?_
  obtain ⟨found, located⟩ := Option.isSome_iff_exists.mp known
  -- What is located by a name is one of the three words.
  rw [← locate?_name located]
  rcases found with ⟨m, _ | (_ | (_ | ⟨⟨⟩⟩))⟩
  · exact code.isWhole
  · exact message.isWhole
  · exact requestId.isWhole

/-- A row is read as a report if it has its three words and nothing else. -/
theorem isWholeRow_apiError_iff {mode : Mode} {fields : Record .apiError} {items : DocItems} :
    fields.IsWholeRow mode items ↔
      ∃ report, (Doc.array items).Reports report ∧ Datum.record fields = report.datum := by
  -- The record has three slots, so that the row is compared with them one by one.
  obtain _ | ⟨code, _ | ⟨message, _ | ⟨requestId, ⟨⟩⟩⟩⟩ := fields
  constructor
  · intro row
    obtain _ | ⟨codeDoc, _ | ⟨messageDoc, _ | ⟨idDoc, rest⟩⟩⟩ := items
    · -- A row that is too short lacks one of the words.
      exact absurd row id
    · exact absurd row.2 id
    · exact absurd row.2.2 id
    · obtain ⟨readCode, readMessage, readId, ended⟩ := row
      obtain ⟨codeWord, isCode, rfl⟩ := readSlot_word_ok_iff.mp readCode
      obtain ⟨messageWord, isMessage, rfl⟩ := readSlot_word_ok_iff.mp readMessage
      obtain ⟨idWord, isId, rfl⟩ := readSlot_word_ok_iff.mp readId
      -- The third word is followed by the end of the row.
      have ended : rest = .nil .closed := ended
      subst ended
      exact ⟨⟨codeWord, messageWord, idWord⟩, .row isCode isMessage isId, rfl⟩
  · rintro ⟨report, reports, same⟩
    cases reports with
    | row isCode isMessage isId =>
      cases same
      exact ⟨readSlot_word_ok_iff.mpr ⟨_, isCode, rfl⟩,
        readSlot_word_ok_iff.mpr ⟨_, isMessage, rfl⟩,
        readSlot_word_ok_iff.mpr ⟨_, isId, rfl⟩, rfl⟩

/-- A document is read as a report exactly if it is one. -/
theorem readDatum_apiError_ok_iff {doc : Doc} {d : Datum (.record .apiError)} :
    readDatum (.text 128) (.record .apiError) doc = .ok d ↔
      ∃ report, doc.Reports report ∧ d = report.datum := by
  cases d with
  | record fields =>
  cases doc with
  | object members =>
    -- An object is entered once, and read name by name in what room is left.
    have read : readDatum (.text 128) (.record .apiError) (.object members) =
        (readPasses (.text 127) .apiError fun mode portion slots =>
          readMembers mode portion .apiError slots members).map .record := by
      rw [readDatum]
      rfl
    rw [read, map_ok_iff]
    constructor
    · rintro ⟨_, passes, same⟩
      cases same
      obtain ⟨readable, code, message, requestId, saidCode, saidMessage, saidId, same⟩ :=
        readPasses_apiError_ok_iff.mp passes
      obtain ⟨whole, named⟩ := (@DocMembers.isReadable_report_iff members ⟨code, message, requestId⟩
        saidCode saidMessage saidId).mp readable
      exact ⟨_, .object whole named saidCode saidMessage saidId, same⟩
    · rintro ⟨report, reports, same⟩
      cases reports with
      | object whole named code message requestId =>
        have readable := (members.isReadable_report_iff code message requestId).mpr ⟨whole, named⟩
        exact ⟨fields, readPasses_apiError_ok_iff.mpr
          ⟨readable, _, _, _, code, message, requestId, same⟩, rfl⟩
  | array items =>
    -- A row is read place by place, with the same room.
    have read : readDatum (.text 128) (.record .apiError) (.array items) =
        (readRow (.text 127) .apiError items.length 0 Kind.apiError.members items).map .record := by
      rw [readDatum]
      rfl
    rw [read, map_ok_iff, ← @isWholeRow_apiError_iff (.text 127)]
    constructor
    · rintro ⟨_, row, same⟩
      cases same
      exact (readRow_whole_ok_iff rfl).mp row
    · exact fun row => ⟨fields, (readRow_whole_ok_iff rfl).mpr row, rfl⟩
  -- Nothing but an object and a row is read as a record, and nothing else reports.
  | number value =>
    refine iff_of_false (fun read => ?_) ?_
    · cases value <;> cases read
    · rintro ⟨_, reports, -⟩
      cases reports
  | text value =>
    refine iff_of_false (fun read => ?_) ?_
    · cases value <;> cases read
    · rintro ⟨_, reports, -⟩
      cases reports
  | null | flag | broken =>
    refine iff_of_false (fun read => by cases read) ?_
    rintro ⟨_, reports, -⟩
    cases reports

/-- A text is read as a report exactly if it tells one as a whole. -/
theorem Datum.ofText_apiError_ok_iff {text : String} {d : Datum (.record .apiError)} :
    Datum.ofText (.record .apiError) text = .ok d ↔
      ∃ report : FaultReport, report.IsToldBy text ∧ d = report.datum := by
  -- The reader and the report both want the text to end behind the document.
  rw [Datum.ofText_ok_iff, readDatum_apiError_ok_iff]
  exact ⟨fun ⟨⟨report, told, same⟩, ended⟩ => ⟨report, ⟨told, ended⟩, same⟩,
    fun ⟨report, ⟨told, ended⟩, same⟩ => ⟨⟨report, told, same⟩, ended⟩⟩

end ContentApi
