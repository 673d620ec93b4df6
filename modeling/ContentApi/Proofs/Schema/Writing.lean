import ContentApi.Proofs.Json.Members
import ContentApi.Proofs.Schema.Places
import ContentApi.Schema.Writer

/-! A record is written member by member, each under its own name. -/

namespace ContentApi

namespace Fields

variable {arrange : Members → Members} {ms : List Member}

/-- The names that a record is written with are among those of its members, in their order. -/
theorem names_write : {ms : List Member} → (fields : Fields ms) →
    ((fields.write arrange).map Prod.fst).Sublist (ms.map Member.name)
  | _, .nil => by simp [write]
  | m :: _, .cons slot rest => by
    rw [write, List.map_cons]
    -- A member that is left out drops its name and changes no order.
    cases slot.write arrange with
    | none => exact List.Sublist.cons _ (names_write rest)
    | some value => exact List.Sublist.cons_cons _ (names_write rest)

/-- A record whose members have distinct names is written with distinct names. -/
theorem distinct_write (distinct : (ms.map Member.name).Nodup) (fields : Fields ms) :
    (fields.write arrange).Distinct :=
  List.Nodup.sublist fields.names_write distinct

/-- A name that no member has is not written. -/
theorem find?_write_foreign {name : String} (foreign : name ∉ ms.map Member.name)
    (fields : Fields ms) : Members.find? name (fields.write arrange) = none :=
  Members.find?_eq_none fun written => foreign (fields.names_write.subset written)

/-- Under the name of a member stands what is written for it. -/
theorem find?_write {m : Member} : {ms : List Member} → (ms.map Member.name).Nodup →
    (fields : Fields ms) → (p : Place m ms) →
    Members.find? m.name (fields.write arrange) = (fields.get p).write arrange
  | _ :: _, distinct, .cons slot rest, .here => by
    obtain ⟨single, others⟩ := List.nodup_cons.mp distinct
    rw [write, get]
    cases slot.write arrange with
    -- A member that is left out has no other of its name behind it.
    | none => exact rest.find?_write_foreign single
    | some value => rw [Members.find?_cons, if_pos rfl]
  | first :: _, distinct, .cons slot rest, .there p => by
    obtain ⟨single, others⟩ := List.nodup_cons.mp distinct
    -- What is written for the first member stands under another name.
    have differs : first.name ≠ m.name := fun same => single (same ▸ List.mem_map_of_mem p.mem)
    rw [write, get, ← find?_write others rest p]
    cases slot.write arrange with
    | none => rfl
    | some value => rw [Members.find?_cons, if_neg differs]

end Fields

/-- Under the name of a member of a record stands what is written for it. -/
theorem Datum.find?_toJson {k : Kind} (distinct : (k.members.map Member.name).Nodup)
    (fields : Fields k.members) {m : Member} (p : Place m k.members) :
    Members.find? m.name (Members.sorted (fields.write Members.sorted)) =
      (fields.get p).write Members.sorted := by
  -- The names are distinct, so sorting the members does not change what stands under one.
  rw [Members.find?_sorted m.name (fields.distinct_write distinct), fields.find?_write distinct p]

end ContentApi
