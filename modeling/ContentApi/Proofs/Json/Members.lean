import ContentApi.Json.Basic

/-! Members in ascending order of names, and what is found among them by name. -/

namespace ContentApi

namespace Members

/-- Members whose names ascend, so that no name is there twice. -/
def Ascending (members : Members) : Prop :=
  members.Pairwise fun a b => a.1 < b.1

instance (members : Members) : Decidable members.Ascending :=
  inferInstanceAs (Decidable (members.Pairwise fun a b => a.1 < b.1))

/-- Members no two of which have one name. -/
def Distinct (members : Members) : Prop :=
  (members.map Prod.fst).Nodup

/-- Ascending names are distinct. -/
theorem Ascending.distinct {members : Members} (ascending : members.Ascending) :
    members.Distinct := by
  -- A name is never below itself.
  unfold Distinct List.Nodup
  rw [List.pairwise_map]
  exact ascending.imp fun below => String.ne_of_lt below

/-- Members of distinct names are distinct. -/
theorem Distinct.nodup {members : Members} (distinct : members.Distinct) : members.Nodup :=
  List.Pairwise.of_map Prod.fst (fun _ _ differs same => differs (congrArg Prod.fst same)) distinct

/-- One member alone shares its name with none. -/
theorem distinct_singleton (name : String) (value : Json) : Distinct [(name, value)] :=
  List.nodup_cons.mpr ⟨List.not_mem_nil, List.nodup_nil⟩

@[simp] theorem find?_nil (name : String) : find? name [] = none := rfl

theorem find?_cons (name key : String) (value : Json) (rest : Members) :
    find? name ((key, value) :: rest) = if key = name then some value else find? name rest := rfl

/-- A name is found exactly if some member has it. -/
theorem find?_isSome (name : String) (members : Members) :
    (find? name members).isSome = true ↔ name ∈ members.map Prod.fst := by
  -- The search stops at the first member of the name.
  induction members with
  | nil => simp
  | cons member rest ih =>
    obtain ⟨key, value⟩ := member
    rw [find?_cons]
    by_cases same : key = name
    · simp [same]
    · have other : name ≠ key := Ne.symm same
      simpa [same, other] using ih

/-- A name that no member has is not found. -/
theorem find?_eq_none {name : String} {members : Members}
    (absent : name ∉ members.map Prod.fst) : find? name members = none := by
  rw [← find?_isSome] at absent
  simpa using absent

/-- What is found stands among the members. -/
theorem mem_of_find? {name : String} {value : Json} {members : Members}
    (found : find? name members = some value) : (name, value) ∈ members := by
  induction members with
  | nil => simp at found
  | cons member rest ih =>
    obtain ⟨key, old⟩ := member
    rw [find?_cons] at found
    -- The search ends at this member or goes on to the rest.
    by_cases same : key = name
    · rw [if_pos same] at found
      cases found
      exact same ▸ List.mem_cons_self
    · rw [if_neg same] at found
      exact List.mem_cons_of_mem _ (ih found)

/-- Of distinct members each is found under its name. -/
theorem find?_of_mem {name : String} {value : Json} {members : Members}
    (distinct : members.Distinct) (member : (name, value) ∈ members) :
    find? name members = some value := by
  induction members with
  | nil => cases member
  | cons first rest ih =>
    obtain ⟨key, old⟩ := first
    obtain ⟨single, others⟩ := List.nodup_cons.mp distinct
    rw [find?_cons]
    rcases List.mem_cons.mp member with same | later
    · cases same
      rw [if_pos rfl]
    · -- A member further on has another name than this one, so the search passes this one over.
      have differs : key ≠ name := fun same =>
        single (List.mem_map.mpr ⟨(name, value), later, same.symm⟩)
      rw [if_neg differs, ih others later]

/-- A member put in its place is found, and no other one is lost. -/
theorem find?_insert (name key : String) (value : Json) (members : Members) :
    find? name (insert key value members) =
      if key = name then some value else find? name members := by
  -- Putting a member in its place passes only over members of other names.
  induction members with
  | nil => rfl
  | cons member rest ih =>
    obtain ⟨other, old⟩ := member
    unfold insert
    by_cases same : other = key
    · subst same
      rw [if_pos rfl, find?_cons, find?_cons]
      split <;> rfl
    · rw [if_neg same]
      by_cases below : key < other
      · rw [if_pos below, find?_cons]
      · rw [if_neg below, find?_cons, find?_cons, ih]
        by_cases hit : other = name
        · subst hit
          rw [if_pos rfl, if_neg (Ne.symm same), if_pos rfl]
        · rw [if_neg hit, if_neg hit]

/-- Removing a member leaves those of other names. -/
theorem find?_erase (name other : String) {members : Members}
    (distinct : members.Distinct) :
    find? other (erase name members) =
      if other = name then none else find? other members := by
  induction members with
  | nil => simp [erase]
  | cons member rest ih =>
    obtain ⟨key, value⟩ := member
    obtain ⟨single, others⟩ := List.nodup_cons.mp distinct
    rw [erase]
    -- Names are distinct, so that the member that goes was the only one of its name.
    by_cases here : key = name
    · subst here
      rw [if_pos rfl, find?_cons]
      by_cases same : other = key
      · rw [if_pos same, same]
        exact find?_eq_none single
      · rw [if_neg same, if_neg (Ne.symm same)]
    · rw [if_neg here, find?_cons, find?_cons, ih others]
      by_cases same : key = other
      · rw [if_pos same, if_pos same, if_neg fun again => here (same.trans again)]
      · rw [if_neg same, if_neg same]

/-- The names after a member is put in its place are its own and those there were. -/
theorem mem_insert {key : String} {value : Json} {members : Members} {entry : String × Json}
    (member : entry ∈ insert key value members) : entry = (key, value) ∨ entry ∈ members := by
  induction members with
  | nil => exact Or.inl (List.mem_singleton.mp member)
  | cons first rest ih =>
    obtain ⟨other, old⟩ := first
    -- A member is replaced, put in front of the rest, or put further on.
    unfold insert at member
    split at member
    · rcases List.mem_cons.mp member with same | later
      · exact Or.inl same
      · exact Or.inr (List.mem_cons_of_mem _ later)
    · split at member
      · rcases List.mem_cons.mp member with same | later
        · exact Or.inl same
        · exact Or.inr later
      · rcases List.mem_cons.mp member with same | later
        · -- The member that was passed over is still there.
          exact Or.inr (same ▸ List.mem_cons_self)
        · exact (ih later).imp_right (List.mem_cons_of_mem _)

/-- Names stay in ascending order when a member is put in its place. -/
theorem ascending_insert (key : String) (value : Json) {members : Members}
    (ascending : members.Ascending) : (insert key value members).Ascending := by
  induction members with
  | nil => exact List.pairwise_singleton _ _
  | cons first rest ih =>
    obtain ⟨other, old⟩ := first
    obtain ⟨least, later⟩ := List.pairwise_cons.mp ascending
    -- In each of the three places, all names before are below the new one and all after it above.
    unfold insert
    split
    · rename_i same
      exact List.pairwise_cons.mpr ⟨fun entry inside => same ▸ least entry inside, later⟩
    · rename_i differs
      split
      · rename_i below
        -- The member in front was the least, and the new one is below that.
        refine List.pairwise_cons.mpr ⟨fun entry inside => ?_, ascending⟩
        rcases List.mem_cons.mp inside with same | further
        · exact same ▸ below
        · exact String.lt_trans below (least entry further)
      · rename_i notBelow
        -- Names are compared by a total order, so the one passed over is below the new one.
        have above : other < key := String.not_le.mp fun back =>
          differs (String.le_antisymm (String.not_lt.mp notBelow) back)
        refine List.pairwise_cons.mpr ⟨fun entry inside => ?_, ih later⟩
        rcases mem_insert inside with same | further
        · exact same ▸ above
        · exact least entry further

/-- Members in ascending order begin with the same name if each finds the first name of the other.
-/
theorem Ascending.first_eq {key name : String} {value newer : Json} {rest others : Members}
    (first : Ascending ((key, value) :: rest)) (second : Ascending ((name, newer) :: others))
    (atKey : (find? key ((name, newer) :: others)).isSome = true)
    (atName : (find? name ((key, value) :: rest)).isSome = true) : key = name := by
  rw [find?_isSome, List.map_cons] at atKey atName
  -- A first name that is found further on is above the other first name.
  rcases List.mem_cons.mp atKey with same | further
  · exact same
  rcases List.mem_cons.mp atName with same | beyond
  · exact same.symm
  obtain ⟨entry, inside, rfl⟩ := List.mem_map.mp further
  obtain ⟨other, within, rfl⟩ := List.mem_map.mp beyond
  have above := (List.pairwise_cons.mp second).1 entry inside
  have below := (List.pairwise_cons.mp first).1 other within
  exact absurd above (String.lt_asymm below)

/-- Members in ascending order are the same if the same is found among them under each name. -/
theorem Ascending.ext {a b : Members} (first : a.Ascending) (second : b.Ascending)
    (agree : ∀ name, find? name a = find? name b) : a = b := by
  induction a generalizing b with
  | nil =>
    cases b with
    | nil => rfl
    | cons member rest =>
      have found := agree member.1
      simp [find?] at found
  | cons member rest ih =>
    obtain ⟨key, value⟩ := member
    cases b with
    | nil =>
      have found := agree key
      simp [find?] at found
    | cons other others =>
      obtain ⟨name, newer⟩ := other
      have atKey := agree key
      have atName := agree name
      have same : key = name :=
        first.first_eq second (by rw [← atKey]; simp [find?]) (by rw [atName]; simp [find?])
      subst same
      have values : value = newer := by simpa [find?] using atKey
      subst values
      have tails : rest = others := by
        refine ih (List.pairwise_cons.mp first).2 (List.pairwise_cons.mp second).2 fun asked => ?_
        have found := agree asked
        rw [find?_cons, find?_cons] at found
        by_cases hit : key = asked
        · -- The first name is not there a second time.
          subst hit
          rw [find?_eq_none (List.nodup_cons.mp first.distinct).1,
            find?_eq_none (List.nodup_cons.mp second.distinct).1]
        · rwa [if_neg hit, if_neg hit] at found
      rw [tails]

/-- Gathering members one by one keeps names in ascending order. -/
theorem ascending_foldl_insert (members : Members) {gathered : Members}
    (ascending : gathered.Ascending) :
    (members.foldl (fun sorted member => insert member.1 member.2 sorted) gathered).Ascending := by
  -- What was gathered stays free, since each step starts from what the one before has gathered.
  induction members generalizing gathered with
  | nil => exact ascending
  | cons member rest ih => exact ih (ascending_insert _ _ ascending)

/-- Sorting leaves names in ascending order. -/
theorem ascending_sorted (members : Members) : (sorted members).Ascending :=
  ascending_foldl_insert members List.Pairwise.nil

/-- What stands among members gathered one by one is one of them, or was there before. -/
theorem mem_foldl_insert {entry : String × Json} {members gathered : Members}
    (inside : entry ∈ members.foldl (fun sorted member => insert member.1 member.2 sorted)
      gathered) : entry ∈ members ∨ entry ∈ gathered := by
  induction members generalizing gathered with
  | nil => exact Or.inr inside
  | cons member rest ih =>
    -- A member of the result is inserted last, or was there before that.
    rcases ih inside with later | inserted
    · exact Or.inl (List.mem_cons_of_mem _ later)
    · rcases mem_insert inserted with same | earlier
      · exact Or.inl (same ▸ List.mem_cons_self)
      · exact Or.inr earlier

/-- Sorting adds no members. -/
theorem mem_of_mem_sorted {entry : String × Json} {members : Members}
    (inside : entry ∈ sorted members) : entry ∈ members :=
  (mem_foldl_insert inside).resolve_right List.not_mem_nil

/-- Of distinct members gathered one by one each is found, and else what was there before. -/
theorem find?_foldl_insert (name : String) {members : Members} (distinct : members.Distinct)
    (gathered : Members) :
    find? name (members.foldl (fun sorted member => insert member.1 member.2 sorted) gathered) =
      (find? name members).or (find? name gathered) := by
  -- The members come one after the other, each put among those gathered before.
  induction members generalizing gathered with
  | nil => rfl
  | cons member rest ih =>
    obtain ⟨key, value⟩ := member
    obtain ⟨single, others⟩ := List.nodup_cons.mp distinct
    rw [List.foldl_cons, ih others, find?_insert, find?_cons]
    by_cases same : key = name
    · -- No later member has the name, so the one just put in stays.
      subst same
      simp [find?_eq_none single]
    · simp [same]

/-- Sorting distinct members loses none. -/
theorem find?_sorted (name : String) {members : Members} (distinct : members.Distinct) :
    find? name (sorted members) = find? name members := by
  unfold sorted
  -- Nothing was gathered before the first member.
  rw [find?_foldl_insert name distinct]
  simp

/-- Sorting distinct members only puts them in another order. -/
theorem sorted_perm {members : Members} (distinct : members.Distinct) :
    (sorted members).Perm members := by
  -- As none stands there twice, it is enough to compare which ones there are.
  refine (List.perm_ext_iff_of_nodup (ascending_sorted members).distinct.nodup
    distinct.nodup).mpr fun entry => ⟨mem_of_mem_sorted, fun inside => mem_of_find? ?_⟩
  rw [find?_sorted _ distinct]
  exact find?_of_mem distinct inside

/-- The names of those members that have a value are among those of all members, in their order. -/
theorem names_present : (members : List (String × Option Json)) →
    ((members.filterMap fun member => member.2.map fun value => (member.1, value)).map
      Prod.fst).Sublist (members.map Prod.fst)
  -- A member without a value is left out, and any other one keeps its place.
  | [] => List.Sublist.slnil
  | (_, none) :: rest => (names_present rest).cons _
  | (_, some _) :: rest => (names_present rest).cons_cons _

/-- Of distinct members each is found that has a value. -/
theorem find?_present (name : String) {members : List (String × Option Json)}
    (distinct : (members.map Prod.fst).Nodup) :
    find? name (members.filterMap fun member => member.2.map fun value => (member.1, value)) =
      (members.lookup name).join := by
  induction members with
  | nil => rfl
  | cons member rest ih =>
    obtain ⟨key, value⟩ := member
    obtain ⟨single, others⟩ := List.nodup_cons.mp distinct
    have later := ih others
    by_cases same : key = name
    · subst same
      cases value with
      | some value => simp [find?_cons]
      | none =>
        -- A member without a value has no other one of its name behind it.
        have absent := find?_eq_none fun named => single ((names_present rest).subset named)
        simpa using absent
    · have differs : (name == key) = false := by simpa using Ne.symm same
      cases value with
      | some value => simpa [find?_cons, same, List.lookup_cons, differs] using later
      | none => simpa [List.lookup_cons, differs] using later

end Members

/-- An object of those of distinct members that have a value holds each of them. -/
theorem Json.ofPresent_eq {members : List (String × Option Json)}
    (distinct : (members.map Prod.fst).Nodup) :
    ∃ present : Members, Json.ofPresent members = .object present ∧ present.Ascending ∧
      ∀ name, Members.find? name present = (members.lookup name).join := by
  refine ⟨_, rfl, Members.ascending_sorted _, fun name => ?_⟩
  -- Sorting keeps what is found, as the names that are left are distinct too.
  rw [Members.find?_sorted name (distinct.sublist (Members.names_present members)),
    Members.find?_present name distinct]

end ContentApi
