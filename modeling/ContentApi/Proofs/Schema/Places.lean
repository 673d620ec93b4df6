import ContentApi.Schema.Datum

/-! The places of members in records: each name has one, and what is put there is found there. -/

namespace ContentApi

variable {m : Member} {ms : List Member}

/-- A member that has a place is one of the members. -/
theorem Place.mem : {ms : List Member} → Place m ms → m ∈ ms
  | _ :: _, .here => List.mem_cons_self
  | _ :: _, .there p => List.mem_cons_of_mem _ p.mem

/-- What is located by a name has that name. -/
theorem locate?_name {name : String} {ms : List Member} {found : Located ms}
    (located : locate? name ms = some found) : found.member.name = name := by
  -- The search passes over members of other names.
  induction ms with
  | nil => simp [locate?] at located
  | cons first rest ih =>
    unfold locate? at located
    split at located
    · cases located
      assumption
    · obtain ⟨inner, innerLocated, rfl⟩ := Option.map_eq_some_iff.mp located
      exact ih innerLocated

/-- A name that is not located belongs to no member. -/
theorem name_ne_of_locate?_none {name : String} : {ms : List Member} →
    locate? name ms = none → Place m ms → m.name ≠ name
  | _ :: _, located, p => by
    unfold locate? at located
    split at located
    · cases located
    · rename_i differs
      -- The first member was passed over for its name, and the place of any other is in the rest.
      cases p with
      | here => exact differs
      | there inner => exact name_ne_of_locate?_none (Option.map_eq_none_iff.mp located) inner

/-- Where names are distinct, each member is located at its place. -/
theorem locate?_place : {ms : List Member} → (ms.map Member.name).Nodup → (p : Place m ms) →
    locate? m.name ms = some ⟨m, p⟩
  | _ :: _, _, .here => by rw [locate?, if_pos rfl]
  | first :: rest, distinct, .there p => by
    obtain ⟨single, others⟩ := List.nodup_cons.mp distinct
    -- A first member of the same name would stand twice among the members.
    have differs : first.name ≠ m.name := fun same =>
      single (same ▸ List.mem_map_of_mem p.mem)
    rw [locate?, if_neg differs, locate?_place others p]
    rfl

/-- Where names are distinct, a name has one place. -/
theorem place_unique {n : Member} (distinct : (ms.map Member.name).Nodup) (p : Place m ms)
    (q : Place n ms) (same : n.name = m.name) : (⟨n, q⟩ : Located ms) = ⟨m, p⟩ := by
  -- The search finds one place for a name, and either place is the one it finds.
  have first := locate?_place distinct q
  rw [same, locate?_place distinct p] at first
  exact (Option.some.inj first).symm

namespace Slots

/-- Nothing has been read into the empty slots. -/
@[simp] theorem get_empty : {ms : List Member} → (p : Place m ms) → (empty ms).get p = none
  | _ :: _, .here => rfl
  | _ :: _, .there p => get_empty p

/-- What is put at a place is found there. -/
@[simp] theorem get_put : {ms : List Member} → (p : Place m ms) → (slot : Slot m) →
    (slots : Slots ms) → (slots.put p slot).get p = some slot
  | _ :: _, .here, _, .cons _ _ => rfl
  | _ :: _, .there p, slot, .cons _ rest => get_put p slot rest

/-- What is put at a place leaves members of other names alone. -/
theorem get_put_of_name_ne {n : Member} {ms : List Member} (p : Place m ms) (q : Place n ms)
    (differs : n.name ≠ m.name) (slot : Slot m) (slots : Slots ms) :
    (slots.put p slot).get q = slots.get q := by
  -- The two places are walked together until one of them is reached.
  induction p with
  | here =>
    cases slots
    cases q with
    | here => exact absurd rfl differs
    | there q => rfl
  | there p ih =>
    cases slots with
    | cons first rest =>
      cases q with
      | here => rfl
      | there q => exact ih q rest

/-- Slots that agree at every place are the same. -/
theorem ext : {ms : List Member} → {a b : Slots ms} →
    (∀ m (p : Place m ms), a.get p = b.get p) → a = b
  -- The recursion is on the list of members, and each of them is looked up at its own place.
  | [], .nil, .nil, _ => rfl
  | _ :: _, .cons a as, .cons b bs, agree => by
    have first : a = b := agree _ .here
    have others : as = bs := ext fun m p => agree m (.there p)
    rw [first, others]

/-- A member that was read is kept when a record is finished. -/
theorem finish_cons_some (value : Slot m) (rest : Slots ms) :
    (cons (some value) rest).finish = rest.finish.map (Fields.cons value) := by
  -- Finishing fails at the first member that must be there, which may be one of the rest.
  cases finished : rest.finish <;>
    simp only [finish, finished, Bind.bind, Except.bind, Pure.pure, Except.pure, Except.map]

/-- A member that was not read is blank when a record is finished, unless it must be there. -/
theorem finish_cons_none (rest : Slots ms) :
    (cons (none : Option (Slot m)) rest).finish =
      if m.isMandatory then .error m.name else rest.finish.map (Fields.cons (Slot.blank m)) := by
  -- Whether the member must be there comes before whatever the rest is finished as.
  cases mandatory : m.isMandatory <;> cases finished : rest.finish <;>
    simp [finish, finished, mandatory, Bind.bind, Except.bind, Pure.pure, Except.pure, Except.map]

/-- A record is finished if each member was read, or is blank and need not be there. -/
theorem finish_ok_iff {slots : Slots ms} {fields : Fields ms} :
    slots.finish = .ok fields ↔ ∀ m (p : Place m ms),
      slots.get p = some (fields.get p) ∨
        slots.get p = none ∧ m.isMandatory = false ∧ fields.get p = Slot.blank m := by
  -- Each member is settled on its own, whatever the others are.
  induction ms with
  | nil =>
    cases slots
    cases fields
    exact ⟨fun _ m p => (nomatch p), fun _ => rfl⟩
  | cons first ms ih =>
    cases slots with
    | cons slot rest =>
    cases fields with
    | cons value others =>
    -- The first slot and the rest do not depend on each other.
    have split : (cons slot rest).finish = .ok (.cons value others) ↔
        (slot = some value ∨ slot = none ∧ first.isMandatory = false ∧ value = Slot.blank first) ∧
          rest.finish = .ok others := by
      cases slot with
      | some known =>
        rw [finish_cons_some]
        cases rest.finish <;> simp [Except.map]
      | none =>
        rw [finish_cons_none]
        cases first.isMandatory <;> cases rest.finish <;> simp [Except.map, eq_comm]
    -- The places are the first one and those of the rest.
    rw [split, ih]
    refine ⟨fun both m p => ?_, fun all => ⟨all _ .here, fun m p => all m (.there p)⟩⟩
    cases p with
    | here => exact both.1
    | there p => exact both.2 m p

end Slots

namespace Fields

/-- Every member of the blank record is blank. -/
@[simp] theorem get_blank : {ms : List Member} → (p : Place m ms) →
    (blank ms).get p = Slot.blank m
  | _ :: _, .here => rfl
  | _ :: _, .there p => get_blank p

/-- What a record is set to at a place is found there. -/
@[simp] theorem get_set : {ms : List Member} → (p : Place m ms) → (slot : Slot m) →
    (fields : Fields ms) → (fields.set p slot).get p = slot
  | _ :: _, .here, _, .cons _ _ => rfl
  | _ :: _, .there p, slot, .cons _ rest => get_set p slot rest

/-- Setting a record at a place leaves members of other names alone. -/
theorem get_set_of_name_ne {n : Member} {ms : List Member} (p : Place m ms) (q : Place n ms)
    (differs : n.name ≠ m.name) (slot : Slot m) (fields : Fields ms) :
    (fields.set p slot).get q = fields.get q := by
  -- As for the slots of a record that is being read.
  induction p with
  | here =>
    cases fields
    cases q with
    | here => exact absurd rfl differs
    | there q => rfl
  | there p ih =>
    cases fields with
    | cons first rest =>
      cases q with
      | here => rfl
      | there q => exact ih q rest

end Fields

end ContentApi
