import ContentApi.Proofs.Schema.Reading

/-! A record is read from a list of values too, each of which stands for the member at its place. -/

namespace ContentApi

/-- Whether a record is what a list of values stands for: each value is read for the member at its
place, and the members behind the last value are blank. -/
def Fields.IsRow (mode : Mode) : {ms : List Member} → Fields ms → List Json → Prop
  | ms, fields, [] => fields = .blank ms
  | [], _, _ :: _ => False
  | _ :: _, .cons slot rest, value :: values =>
    slot.ReadFrom mode (some value) ∧ rest.IsRow mode values

/-- What a record holds at a place is read from the value at that place in its list, if there is
one. -/
theorem Fields.IsRow.get_ofIndex {mode : Mode} {m : Member} {ms : List Member} {fields : Fields ms}
    {values : List Json} (row : fields.IsRow mode values) (free : m.isMandatory = false)
    (index : Nat) (listed : ms[index]? = some m) :
    (fields.get (.ofIndex ms index listed)).ReadFrom mode values[index]? := by
  -- The list and the members go on together, until the place is reached or the list ends.
  induction ms generalizing index values with
  | nil => cases listed
  | cons n ms ih =>
    cases values with
    | nil =>
      rw [Fields.IsRow] at row
      subst row
      exact ⟨free, Fields.get_blank _⟩
    | cons value values =>
      cases fields with
      | cons slot rest =>
        obtain ⟨read, row⟩ := row
        cases index with
        | zero =>
          cases listed
          exact read
        | succ index => exact ih row index listed

/-- A record of which nothing was read is blank, unless a member must be there. -/
theorem Slots.finish_empty {ms : List Member} (free : ∀ m ∈ ms, m.isMandatory = false) :
    (empty ms).finish = .ok (.blank ms) :=
  finish_ok_iff.mpr fun m p => .inr ⟨get_empty p, free m p.mem, Fields.get_blank p⟩

variable {mode : Mode} {k : Kind}

/-- A list of values is read value by value. -/
theorem readRow_ok_iff (unlimited : mode.room = none) (short : k.needsWholeRow = false)
    {total index : Nat} {values : List Json} {ms : List Member}
    (free : ∀ m ∈ ms, m.isMandatory = false) {fields : Fields ms} :
    readRow mode k total index ms (DocItems.ofJson values) = .ok fields ↔
      fields.IsRow mode values := by
  -- Members and values are used up together, and either of them may end first.
  induction values generalizing index ms with
  | nil =>
    rw [DocItems.ofJson, Fields.IsRow]
    cases ms with
    | nil =>
      cases fields
      exact ⟨fun _ => rfl, fun _ => rfl⟩
    | cons m ms =>
      have rest : readRow mode k total index (m :: ms) (.nil .closed) = .ok (.blank (m :: ms)) := by
        rw [readRow]
        show readRowRest k index (m :: ms) = _
        rw [readRowRest, short, Slots.finish_empty free]
        rfl
      rw [rest]
      exact ⟨fun same => (Except.ok.inj same).symm, fun same => congrArg Except.ok same.symm⟩
  | cons value values ih =>
    rw [DocItems.ofJson]
    cases ms with
    | nil =>
      -- A value too many is a fault.
      cases mode with
      | text room => cases unlimited
      | value | aside => simp [readRow, readRowEnd, Fields.IsRow, Bind.bind, Except.bind]
    | cons m ms =>
      obtain ⟨-, rest⟩ := List.forall_mem_cons.mp free
      cases fields with
      | cons slot others =>
        rw [readRow, Fields.IsRow, Slot.ReadFrom, readMember]
        simp only [Bind.bind, bind_ok_iff, ih rest, Pure.pure, Except.pure]
        constructor
        · rintro ⟨_, read, _, stands, same⟩
          cases same
          exact ⟨read, stands⟩
        · rintro ⟨read, stands⟩
          exact ⟨slot, read, others, stands, rfl⟩

/-- A list is read as a record if the record shares no members with items. -/
theorem readDatum_row_ok_iff (unlimited : mode.room = none) (short : k.needsWholeRow = false)
    (free : ∀ m ∈ k.members, m.isMandatory = false) {values : List Json}
    {fields : Fields k.members} :
    readDatum mode (.record k) (Doc.ofJson (.array values)) = .ok (.record fields) ↔
      k.extendsItem = false ∧ fields.IsRow mode values := by
  rw [Doc.ofJson, readDatum]
  cases k.extendsItem with
  | true => simp
  | false =>
    -- A value is entered without a limit, so only the row itself decides.
    simp only [Bool.false_eq_true, if_false, Mode.enter_of_unlimited unlimited, Bind.bind,
      bind_ok_iff, true_and, Pure.pure, Except.pure]
    rw [← readRow_ok_iff unlimited short free]
    constructor
    · rintro ⟨_, same, _, read, whole⟩
      cases same
      cases whole
      exact read
    · intro read
      exact ⟨mode, rfl, fields, read, rfl⟩

end ContentApi
