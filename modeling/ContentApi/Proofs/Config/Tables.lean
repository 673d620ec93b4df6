import ContentApi.Config.Layers

/-! What is found in a table of settings once one of them was laid over it. -/

namespace ContentApi

/-- What stands at the front of a path once a setting was laid over what is at its end. -/
def Setting.placed (value : Setting) (rest : List String) (old : Option Setting) : Setting :=
  match rest with
  | [] => Setting.laidOver old value
  | name :: rest => .table (SettingTable.setAt value (name :: rest) (Setting.members old))

/-- Whether a setting is no table. -/
def Setting.IsPlain (value : Setting) : Prop :=
  ∀ members, value ≠ .table members

/-- What is no table replaces whatever it is laid over. -/
theorem Setting.IsPlain.laidOver {value : Setting} (plain : value.IsPlain) (old : Option Setting) :
    Setting.laidOver old value = value := by
  cases value with
  | table members => exact absurd rfl (plain members)
  | flag | whole | real | text | list => rfl

namespace SettingTable

variable {table other : SettingTable} {name key : String} {value : Setting}

/-- What is put under a name is found under it, and nothing else changes. -/
theorem find?_put : (table.put name value).find? key =
    if key = name then some value else table.find? key := by
  induction table with
  | nil =>
    by_cases same : key = name
    · subst same
      simp [put, find?]
    · simp [put, find?, same, Ne.symm same]
  | cons pair rest ih =>
    obtain ⟨first, old⟩ := pair
    rw [put]
    -- The first pair with a name is both the one that is changed and the one that is found.
    by_cases here : first = name
    · subst here
      rw [if_pos rfl]
      by_cases same : key = first
      · subst same
        simp [find?]
      · simp [find?, same, Ne.symm same]
    · rw [if_neg here]
      by_cases same : key = first
      · subst same
        simp [find?, here]
      · simp only [find?] at ih
        simpa [find?, Ne.symm same] using ih

/-- What is laid over a path changes the front of that path and nothing else. -/
theorem find?_setAt (rest : List String) :
    (setAt value (name :: rest) table).find? key =
      if key = name then some (Setting.placed value rest (table.find? name))
      else table.find? key := by
  -- A path of one name ends in the value, a longer one in a table with what was there.
  cases rest with
  | nil => exact find?_put
  | cons next rest => exact find?_put

/-- What is found under a name stands in the table. -/
theorem mem_of_find? (found : table.find? name = some value) : (name, value) ∈ table := by
  -- Looking up finds the first entry with the name, and that is an entry.
  obtain ⟨pair, first, rfl⟩ := Option.map_eq_some_iff.mp found
  have named : pair.1 = name := by simpa using List.find?_some first
  exact named ▸ List.mem_of_find?_eq_some first

/-- Nothing is found under a name that nothing in the table has. -/
theorem find?_eq_none_iff :
    table.find? name = none ↔ ∀ pair ∈ table, pair.1 ≠ name := by
  rw [find?, Option.map_eq_none_iff, List.find?_eq_none]
  simp

/-- Where names are not repeated, what stands in a table is found under its name. -/
theorem find?_of_mem (distinct : (table.map Prod.fst).Nodup) (member : (name, value) ∈ table) :
    table.find? name = some value := by
  induction table with
  | nil => cases member
  | cons pair rest ih =>
    obtain ⟨other, later⟩ := List.nodup_cons.mp distinct
    -- The first member of the name is found, and there is none of it before the one that is meant.
    rcases List.mem_cons.mp member with rfl | inRest
    · simp [find?]
    · have differs : pair.1 ≠ name := fun same =>
        other (same ▸ List.mem_map_of_mem (f := Prod.fst) inRest)
      have found := ih later inRest
      rw [find?] at found ⊢
      rwa [List.find?_cons_of_neg (by simpa using differs)]

/-- What is no table is found in the place of what it was laid over, if no name is repeated. -/
theorem find?_laidOver {members : SettingTable} (distinct : (members.map Prod.fst).Nodup)
    (plain : ∀ pair ∈ members, pair.2.IsPlain) :
    (table.laidOver members).find? key = (members.find? key).or (table.find? key) := by
  induction members generalizing table with
  | nil => simp [laidOver, find?]
  | cons pair rest ih =>
    obtain ⟨other, later⟩ := List.nodup_cons.mp distinct
    obtain ⟨first, others⟩ := List.forall_mem_cons.mp plain
    rw [laidOver, ih later others, find?_put, first.laidOver]
    by_cases same : key = pair.1
    · -- Nothing that comes later has the name.
      subst same
      have none : find? pair.1 rest = none := find?_eq_none_iff.mpr fun later inside same =>
        other (same ▸ List.mem_map_of_mem (f := Prod.fst) inside)
      rw [none, if_pos rfl]
      simp [find?]
    · rw [if_neg same]
      simp [find?, Ne.symm same]

end SettingTable

end ContentApi
