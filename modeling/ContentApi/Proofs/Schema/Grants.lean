import ContentApi.Proofs.Json.Members
import ContentApi.Proofs.Results
import ContentApi.Schema.Leaf

/-! A set of permissions is told by the flags that it is sent as. -/

namespace ContentApi

/-- A permission is known by its name and no other text. -/
theorem FolderPermission.ofName?_eq_some {name : String} {p : FolderPermission} :
    FolderPermission.ofName? name = some p ↔ name = p.name := by
  constructor
  · intro found
    -- Whatever the search finds has the name that was searched for.
    have named := List.find?_some found
    exact (beq_iff_eq.mp named).symm
  · intro same
    subst same
    cases p <;> rfl

/-- Permissions of one name are the same. -/
theorem FolderPermission.name_inj {p q : FolderPermission} (same : p.name = q.name) : p = q := by
  -- A name is looked up as one permission only.
  have found : FolderPermission.ofName? p.name = some p := ofName?_eq_some.mpr rfl
  rw [same, ofName?_eq_some.mpr rfl] at found
  exact (Option.some.inj found).symm

/-- What a value says of a permission, where null stands for a refusal. -/
def grantOf? : Json → Option Bool
  | .null => some false
  | .flag granted => some granted
  | _ => none

/-- A set with what a value says of the permission of a name, if there is one. -/
def Grants.setNamed (g : Grants) (name : String) (granted : Bool) : Grants :=
  match FolderPermission.ofName? name with
  | some p => g.set p granted
  | .none => g

/-- A set is set under the name of a permission. -/
theorem Grants.allows_setNamed (g : Grants) (name : String) (granted : Bool)
    (p : FolderPermission) :
    (g.setNamed name granted).allows p = if name = p.name then granted else g.allows p := by
  rw [setNamed]
  cases named : FolderPermission.ofName? name with
  | none =>
    have differs : name ≠ p.name := fun same => by
      rw [FolderPermission.ofName?_eq_some.mpr same] at named
      cases named
    rw [if_neg differs]
  | some q =>
    have same := FolderPermission.ofName?_eq_some.mp named
    -- Only the permission of the name is set, and names tell permissions apart.
    by_cases hit : p = q
    · simp [set, hit, same]
    · have differs : name ≠ p.name := fun named => hit (FolderPermission.name_inj (named ▸ same))
      simp [set, hit, differs]

/-- Flags are read one by one, each for the permission of its name. -/
theorem readGrantMembers_ok_iff {g read : Grants} {name : String} {value : Json} {rest : Members} :
    readGrantMembers g (DocMembers.ofJson ((name, value) :: rest)) = .ok read ↔
      ∃ granted, grantOf? value = some granted ∧
        readGrantMembers (g.setNamed name granted) (DocMembers.ofJson rest) = .ok read := by
  rw [DocMembers.ofJson]
  -- Only a flag or null says something of a permission; all else is a mismatch.
  cases value with
  | null | flag =>
    cases named : FolderPermission.ofName? name <;>
      simp [Doc.ofJson, readGrantMembers, readFlag, grantOf?, Grants.setNamed, named, Bind.bind,
        Except.bind, Pure.pure, Except.pure]
  | number | text | array | object =>
    simp [Doc.ofJson, readGrantMembers, readFlag, Doc.mismatch, Doc.unexpected, grantOf?, Bind.bind,
      Except.bind]

/-- Of distinct members, a set read from them has exactly the permissions that they grant. -/
theorem allows_of_readGrantMembers {members : Members} (distinct : members.Distinct)
    {g read : Grants} (ok : readGrantMembers g (DocMembers.ofJson members) = .ok read)
    (p : FolderPermission) :
    read.allows p = ((Members.find? p.name members).bind grantOf?).getD (g.allows p) := by
  -- Each member sets its permission over what was said before.
  induction members generalizing g with
  | nil =>
    simp only [DocMembers.ofJson, readGrantMembers, Stop.read, Except.ok.injEq] at ok
    rw [ok]
    rfl
  | cons member rest ih =>
    obtain ⟨name, value⟩ := member
    obtain ⟨single, others⟩ := List.nodup_cons.mp distinct
    obtain ⟨granted, flag, ok⟩ := readGrantMembers_ok_iff.mp ok
    rw [ih others ok, Grants.allows_setNamed, Members.find?_cons]
    by_cases same : name = p.name
    · -- No later member has the name, so what this one says is final.
      have absent : Members.find? p.name rest = none := Members.find?_eq_none (same ▸ single)
      simp [same, absent, flag]
    · simp [same]

/-- Members of any names are read as a set if each of them is a flag or null. -/
theorem exists_readGrantMembers {members : Members}
    (flags : ∀ name value, (name, value) ∈ members → ∃ granted, grantOf? value = some granted)
    (g : Grants) : ∃ read, readGrantMembers g (DocMembers.ofJson members) = .ok read := by
  induction members generalizing g with
  | nil => exact ⟨g, by simp [DocMembers.ofJson, readGrantMembers, Stop.read]⟩
  | cons member rest ih =>
    obtain ⟨name, value⟩ := member
    obtain ⟨granted, flag⟩ := flags name value List.mem_cons_self
    -- The rest is read into the set that this member has changed.
    obtain ⟨read, ok⟩ := ih (fun name value member =>
      flags name value (List.mem_cons_of_mem _ member)) (g.setNamed name granted)
    exact ⟨read, readGrantMembers_ok_iff.mpr ⟨granted, flag, ok⟩⟩

/-- Members that are read as a set are flags or null. -/
theorem grantOf?_of_readGrantMembers {members : Members} {g read : Grants}
    (ok : readGrantMembers g (DocMembers.ofJson members) = .ok read) :
    ∀ name value, (name, value) ∈ members → ∃ granted, grantOf? value = some granted := by
  -- The induction is on the members, each of which is read before those behind it.
  induction members generalizing g with
  | nil => exact fun name value inside => absurd inside List.not_mem_nil
  | cons member rest ih =>
    obtain ⟨granted, flag, later⟩ := readGrantMembers_ok_iff.mp ok
    intro name value inside
    rcases List.mem_cons.mp inside with rfl | further
    · exact ⟨granted, flag⟩
    · exact ih later name value further

namespace Grants

/-- The flags of a set before they are put in order. -/
def flags (g : Grants) : Members :=
  g.toList.map fun p => (p.name, .flag true)

/-- The flags of a set have distinct names. -/
theorem distinct_flags (g : Grants) : g.flags.Distinct := by
  -- The set is listed in the order of all permissions, whose names are distinct.
  have names : (g.flags.map Prod.fst).Sublist (FolderPermission.all.map FolderPermission.name) := by
    rw [flags, List.map_map]
    exact List.filter_sublist.map _
  exact List.Nodup.sublist names (by decide)

/-- A set is sent with the flag of a permission exactly if it has the permission. -/
theorem find?_toMembers (g : Grants) (p : FolderPermission) :
    Members.find? p.name g.toMembers = if g.allows p then some (.flag true) else .none := by
  have sorted : g.toMembers = Members.sorted g.flags := rfl
  rw [sorted, Members.find?_sorted _ g.distinct_flags]
  by_cases granted : g.allows p = true
  · rw [if_pos granted]
    refine Members.find?_of_mem g.distinct_flags (List.mem_map.mpr ⟨p, ?_, rfl⟩)
    exact List.mem_filter.mpr ⟨p.mem_all, granted⟩
  · rw [if_neg granted]
    -- A flag of this name would be one of this permission.
    refine Members.find?_eq_none fun named => granted ?_
    obtain ⟨flag, member, same⟩ := List.mem_map.mp named
    obtain ⟨q, listed, rfl⟩ := List.mem_map.mp member
    rw [← FolderPermission.name_inj same]
    exact (List.mem_filter.mp listed).2

/-- A set is sent with flags only, and each of them is set. -/
theorem value_of_find?_toMembers {g : Grants} {name : String} {value : Json}
    (found : Members.find? name g.toMembers = some value) :
    value = .flag true ∧ ∃ p, name = FolderPermission.name p := by
  -- The set is sent as one flag for each permission in it, with distinct names.
  have sorted : g.toMembers = Members.sorted g.flags := rfl
  rw [sorted, Members.find?_sorted _ g.distinct_flags] at found
  obtain ⟨p, -, same⟩ := List.mem_map.mp (Members.mem_of_find? found)
  cases same
  exact ⟨rfl, p, rfl⟩

/-- The flags that a set is sent as ascend in their names. -/
theorem ascending_toMembers (g : Grants) : g.toMembers.Ascending :=
  Members.ascending_sorted _

/-- A set is read back from the flags that it is sent as. -/
theorem readGrantMembers_toMembers (g : Grants) :
    readGrantMembers none (DocMembers.ofJson g.toMembers) = .ok g := by
  have distinct := g.ascending_toMembers.distinct
  -- All that is sent are flags, so some set is read.
  obtain ⟨read, ok⟩ := exists_readGrantMembers (fun name value member =>
    ⟨true, by rw [(value_of_find?_toMembers (Members.find?_of_mem distinct member)).1, grantOf?]⟩)
    none
  -- The set that is read grants each permission as its flag does, and so it is the one that was
  -- sent.
  have same : read = g := ext fun p => by
    rw [allows_of_readGrantMembers distinct ok p, find?_toMembers]
    cases granted : g.allows p <;> simp [grantOf?, none]
  rw [ok, same]

end Grants

end ContentApi
