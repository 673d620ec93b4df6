import ContentApi.Proofs.Json.Overlay
import ContentApi.Proofs.Json.Tidy

/-! What is left of a document without its nulls, and how the overlay of documents takes to it. -/

namespace ContentApi

mutual

/-- A document without the members that are null, at any depth that objects lead to. Lists are left
as they are. -/
def Json.withoutNulls : Json → Json
  | .object members => .object (Members.withoutNulls members)
  | document => document

/-- The members that are not null, each without the nulls inside it. -/
def Members.withoutNulls : Members → Members
  | [] => []
  | (name, value) :: rest =>
    if value.isNull then Members.withoutNulls rest
    else (name, value.withoutNulls) :: Members.withoutNulls rest

end

/-- What is left of the value of a member, which is nothing of null. -/
def Json.given? (value : Json) : Option Json :=
  if value.isNull then none else some value.withoutNulls

/-- The null is the only document that is null. -/
theorem Json.isNull_iff {document : Json} : document.isNull = true ↔ document = .null := by
  cases document <;> simp [isNull]

/-- Whatever is not the null is seen not to be it. -/
theorem Json.isNull_eq_false {document : Json} (notNull : document ≠ .null) :
    document.isNull = false :=
  Bool.eq_false_iff.mpr fun null => notNull (isNull_iff.mp null)

/-- A document is null without its nulls only if it was. -/
theorem Json.isNull_withoutNulls (document : Json) :
    document.withoutNulls.isNull = document.isNull := by
  cases document <;> simp [withoutNulls, isNull]

/-- What is not an object is the same without nulls. -/
theorem Json.withoutNulls_of_isObject {value : Json} (plain : value.isObject = false) :
    value.withoutNulls = value := by
  cases value with
  | null | flag | number | text | array => simp [withoutNulls]
  | object members => cases plain

namespace Members

/-- The names of the members that are not null are among those of all members, in their order. -/
theorem names_withoutNulls : (members : Members) →
    ((withoutNulls members).map Prod.fst).Sublist (members.map Prod.fst)
  -- A member that is null is left out, and any other one keeps its name.
  | [] => by simp [withoutNulls]
  | (name, value) :: rest => by
    rw [withoutNulls]
    split
    · exact (names_withoutNulls rest).cons _
    · exact (names_withoutNulls rest).cons_cons _

/-- Without nulls names are as distinct as before. -/
theorem Distinct.withoutNulls {members : Members} (distinct : members.Distinct) :
    (withoutNulls members).Distinct :=
  List.Nodup.sublist (names_withoutNulls members) distinct

/-- Without nulls names ascend as before. -/
theorem Ascending.withoutNulls {members : Members} (ascending : members.Ascending) :
    (withoutNulls members).Ascending := by
  -- Only the names are compared, and those that are left are in their order.
  have names : (members.map Prod.fst).Pairwise (· < ·) := List.pairwise_map.mpr ascending
  exact List.pairwise_map.mp (names.sublist (names_withoutNulls members))

/-- Of distinct members each is found that is not null, without the nulls inside it. -/
theorem find?_withoutNulls (name : String) {members : Members} (distinct : members.Distinct) :
    find? name (withoutNulls members) = (find? name members).bind Json.given? := by
  induction members with
  | nil => rw [withoutNulls]; rfl
  | cons member rest ih =>
    obtain ⟨key, value⟩ := member
    obtain ⟨single, others⟩ := List.nodup_cons.mp distinct
    rw [withoutNulls, find?_cons]
    by_cases same : key = name
    · subst same
      rw [if_pos rfl, Option.bind_some, Json.given?]
      split
      · -- A null is dropped, and no other member has its name.
        rw [ih others, find?_eq_none single]
        rfl
      · rw [find?_cons, if_pos rfl]
    · rw [if_neg same]
      split
      · exact ih others
      · rw [find?_cons, if_neg same, ih others]

/-- A member is the same text without nulls. -/
theorem find?_withoutNulls_text {members : Members} (distinct : members.Distinct)
    {name text : String} : find? name (withoutNulls members) = some (.text text) ↔
      find? name members = some (.text text) := by
  rw [find?_withoutNulls name distinct]
  -- Only the value itself decides, as texts have no members.
  cases find? name members with
  | none => rfl
  | some value => cases value <;> simp [Json.given?, Json.isNull, Json.withoutNulls]

end Members

mutual

/-- A tidy document has no nulls to lose. -/
theorem Json.Tidy.withoutNulls : (document : Json) → document.Tidy →
    document.withoutNulls = document
  | .null, _ | .flag _, _ | .number _, _ | .text _, _ | .array _, _ => by simp [Json.withoutNulls]
  | .object members, tidy => by
    rw [Json.withoutNulls, Json.TidyMembers.withoutNulls members tidy.2]

/-- Tidy members have no nulls to lose. -/
theorem Json.TidyMembers.withoutNulls : (members : Members) → Json.TidyMembers members →
    Members.withoutNulls members = members
  | [], _ => by rw [Members.withoutNulls]
  | (name, value) :: rest, tidy => by
    -- No member is null, so none is left out, and their values are tidy too.
    rw [Members.withoutNulls, Json.isNull_eq_false tidy.1.1, Json.Tidy.withoutNulls value tidy.1.2,
      Json.TidyMembers.withoutNulls rest tidy.2]
    simp

end

/-- What is null in neither of two documents is not null in their overlay. -/
theorem Json.isNull_overlay {newer : Json} (notNull : newer.isNull = false) (known : Json) :
    (known.overlay newer).isNull = false := by
  -- An overlay is null only if it is laid over by null, which leaves what is known.
  cases newer with
  | null => cases notNull
  | flag | number | text | array => simp [overlay, isNull]
  | object members => cases known <;> simp [overlay, isNull]

/-- A member that stands in one document only is overlaid as it is. -/
theorem Json.overlaid_none {value : Json} (notNull : value.isNull = false) :
    Json.overlaid none (some value) = some value := by
  -- There is nothing below it that could be null and be kept out.
  cases value with
  | null => cases notNull
  | flag | number | text | array | object => simp [overlaid]

/-- What a tidy document holds for a member keeps all of its value without nulls. -/
theorem Json.bind_given?_of_tidy {known : Option Json}
    (tidy : ∀ value, known = some value → value ≠ .null ∧ value.Tidy) :
    known.bind Json.given? = known := by
  cases known with
  | none => rfl
  | some value =>
    obtain ⟨notNull, valueTidy⟩ := tidy value rfl
    -- A tidy value is kept for not being null, and whole for having no nulls inside.
    rw [Option.bind_some, given?, isNull_eq_false notNull, Tidy.withoutNulls value valueTidy]
    rfl

mutual

/-- Laying a document over a tidy one and then dropping the nulls is dropping them first. -/
theorem Json.withoutNulls_overlay : (newer : Json) → newer.Ordered → (known : Json) → known.Tidy →
    (known.overlay newer).withoutNulls = known.overlay newer.withoutNulls
  | .null, _, known, tidy => by
    simp [Json.overlay, Json.withoutNulls, Json.Tidy.withoutNulls known tidy]
  | .flag _, _, _, _ | .number _, _, _, _ | .text _, _, _, _ | .array _, _, _, _ => by
    simp [Json.overlay, Json.withoutNulls]
  | .object newer, ordered, known, tidy => by
    cases known with
    | null | flag | number | text | array => simp [Json.overlay, Json.withoutNulls]
    | object known =>
      rw [Json.overlay_object, Json.withoutNulls, Json.withoutNulls, Json.overlay_object]
      have merged := Members.ascending_overlay tidy.1 newer
      -- Both sides have their members in order, so it is enough to look each name up.
      refine congrArg Json.object (merged.withoutNulls.ext
        (Members.ascending_overlay tidy.1 (Members.withoutNulls newer)) fun name => ?_)
      rw [Members.find?_withoutNulls name merged.distinct,
        Members.find?_overlay name known ordered.1.distinct,
        Members.find?_overlay name known ordered.1.distinct.withoutNulls,
        Members.find?_withoutNulls name ordered.1.distinct]
      exact Members.overlaid_bind_given? newer ordered.2 name _ fun value found =>
        (Json.TidyMembers.iff_forall known).mp tidy.2 (name, value) (Members.mem_of_find? found)

/-- The overlay of a member takes to the dropping of nulls as that of documents. -/
theorem Members.overlaid_bind_given? : (newer : Members) → Json.OrderedMembers newer →
    (name : String) → (known : Option Json) →
    (∀ value, known = some value → value ≠ .null ∧ value.Tidy) →
    (Json.overlaid known (Members.find? name newer)).bind Json.given? =
      Json.overlaid known ((Members.find? name newer).bind Json.given?)
  | [], _, name, known, tidy => by
    rw [Members.find?_nil, Option.bind_none, Json.overlaid_of_untouched known rfl,
      Json.bind_given?_of_tidy tidy]
  | (key, value) :: rest, ordered, name, known, tidy => by
    rw [Members.find?_cons]
    split
    · rw [Option.bind_some]
      by_cases null : value.isNull = true
      · -- A null leaves the member as it was known.
        have same := Json.isNull_iff.mp null
        subst same
        rw [Json.overlaid_of_untouched known rfl, Json.bind_given?_of_tidy tidy]
        exact (Json.overlaid_of_untouched known rfl).symm
      · have visible : value.isNull = false := Bool.eq_false_iff.mpr null
        have left : value.withoutNulls.isNull = false := by rw [Json.isNull_withoutNulls, visible]
        rw [Json.given?, visible]
        cases known with
        | none =>
          rw [Json.overlaid_none visible, Option.bind_some, Json.given?, visible]
          exact (Json.overlaid_none left).symm
        | some old =>
          rw [Json.overlaid_some, Option.bind_some, Json.given?, Json.isNull_overlay visible,
            Json.withoutNulls_overlay value ordered.1 old (tidy old rfl).2]
          exact (Json.overlaid_some old value.withoutNulls).symm
    · exact Members.overlaid_bind_given? rest ordered.2 name known tidy

end

mutual

/-- The overlay of ordered documents is ordered. -/
theorem Json.Ordered.overlay : (newer : Json) → newer.Ordered → (known : Json) → known.Ordered →
    (known.overlay newer).Ordered
  -- The recursion follows what is laid over; all but objects takes the place of what is known.
  | .null, _, known, ordered => by rwa [Json.overlay]
  | .flag _, _, _, _ | .number _, _, _, _ | .text _, _, _, _ => by
    simp only [Json.overlay]
    trivial
  | .array items, newerOrdered, _, _ => by
    simp only [Json.overlay]
    exact newerOrdered
  | .object newer, newerOrdered, known, ordered => by
    cases known with
    | null | flag | number | text | array =>
      simp only [Json.overlay]
      exact newerOrdered
    | object known =>
      rw [Json.overlay_object]
      exact ⟨Members.ascending_overlay ordered.1 newer,
        -- Members are inserted in order, and each value is an overlay of ordered ones.
        Json.OrderedMembers.overlay newer newerOrdered.2 known ordered.2⟩

/-- The overlay of ordered members is ordered. -/
theorem Json.OrderedMembers.overlay : (newer : Members) → Json.OrderedMembers newer →
    (known : Members) → Json.OrderedMembers known →
    Json.OrderedMembers (Members.overlay known newer)
  | [], _, known, ordered => by rwa [Members.overlay]
  | (name, value) :: rest, newerOrdered, known, ordered => by
    rw [Members.overlay_cons]
    refine Json.OrderedMembers.overlay rest newerOrdered.2 _ ?_
    split
    · exact ordered
    · rename_i visible
      -- What is put in the place of the member is the value, or its overlay on what was there.
      refine ordered.insert name ?_
      cases found : Members.find? name known with
      | none =>
        rw [Json.overlaid_none (Bool.eq_false_iff.mpr visible), Option.getD_some]
        exact newerOrdered.1
      | some old =>
        rw [Json.overlaid_some, Option.getD_some]
        exact Json.Ordered.overlay value newerOrdered.1 old (ordered.find? found)

end

/-- Whether each null of a newer document stands in an object that is known. -/
def Json.NullsKnown (known newer : Json) : Prop :=
  ∀ path name, newer.at? (path ++ [name]) = some .null →
    ∃ members, known.at? path = some (.object members)

/-- The nulls of a member stand in what is known of it. -/
theorem Json.NullsKnown.member {known newer : Members}
    (nulls : Json.NullsKnown (.object known) (.object newer)) {name : String} {old value : Json}
    (held : Members.find? name known = some old) (found : Members.find? name newer = some value) :
    Json.NullsKnown old value := by
  intro path last null
  -- A path in a member is one of the object, with the name of the member in front.
  obtain ⟨members, same⟩ := nulls (name :: path) last (by simp [found, null])
  exact ⟨members, by simpa [held] using same⟩

mutual

/-- A document in which no path leads to null has no nulls to lose. -/
theorem Json.withoutNulls_of_at? : (value : Json) → value.Ordered →
    (∀ path, value.at? path ≠ some .null) → value.withoutNulls = value
  | .null, _, _ | .flag _, _, _ | .number _, _, _ | .text _, _, _ | .array _, _, _ => by
    simp [Json.withoutNulls]
  | .object members, ordered, free => by
    -- Each value has a path that begins with its name, and names are distinct.
    rw [Json.withoutNulls,
      Members.withoutNulls_of_at? members ordered.2 fun member inside path null =>
      free (member.1 :: path) (by
        rw [Json.at?_object, Members.find?_of_mem ordered.1.distinct inside]
        exact null)]

/-- Members in which no path leads to null have no nulls to lose. -/
theorem Members.withoutNulls_of_at? : (members : Members) → Json.OrderedMembers members →
    (∀ member ∈ members, ∀ path, member.2.at? path ≠ some .null) →
    Members.withoutNulls members = members
  | [], _, _ => by rw [Members.withoutNulls]
  | (name, value) :: rest, ordered, free => by
    have here := free (name, value) List.mem_cons_self
    -- The path without names leads to the value itself.
    have visible : value.isNull = false := Json.isNull_eq_false fun null =>
      here [] (by rw [null, Json.at?_nil])
    rw [Members.withoutNulls, visible, Json.withoutNulls_of_at? value ordered.1 here,
      Members.withoutNulls_of_at? rest ordered.2 fun member inside =>
        free member (List.mem_cons_of_mem _ inside)]
    simp

end

/-- A document with nulls in nothing but itself has none to lose. -/
theorem Json.withoutNulls_of_at?_concat {value : Json} (ordered : value.Ordered)
    (notNull : value.isNull = false)
    (free : ∀ path name, value.at? (path ++ [name]) ≠ some .null) : value.withoutNulls = value := by
  refine Json.withoutNulls_of_at? value ordered fun path null => ?_
  -- The empty path leads to the document itself, and any other one has a last name.
  rcases List.eq_nil_or_concat path with rfl | ⟨front, last, rfl⟩
  · rw [Json.at?_nil, Option.some.injEq] at null
    rw [null] at notNull
    cases notNull
  · rw [List.concat_eq_append] at null
    exact free front last null

/-- No path leads to an object from what is not one. -/
theorem Json.at?_ne_object {value : Json} (other : value.isObject = false) (path : List String)
    (members : Members) : value.at? path ≠ some (.object members) := by
  -- Only an object has anything below it, and nothing else is one itself.
  cases value with
  | object members => cases other
  | null | flag | number | text | array => cases path <;> simp [Json.at?]

mutual

/-- Nulls in objects that are known change nothing. -/
theorem Json.overlay_withoutNulls : (newer : Json) → newer.Ordered → (known : Json) →
    known.Ordered → Json.NullsKnown known newer →
    known.overlay newer.withoutNulls = known.overlay newer
  | .null, _, _, _, _ | .flag _, _, _, _, _ | .number _, _, _, _, _ | .text _, _, _, _, _
  | .array _, _, _, _, _ => by simp [Json.withoutNulls]
  | .object newer, ordered, known, knownOrdered, nulls => by
    cases known with
    | null | flag | number | text | array =>
      -- Nothing is known here in which a null could stand.
      rw [Json.withoutNulls_of_at?_concat ordered rfl fun path name null => ?_]
      obtain ⟨members, same⟩ := nulls path name null
      exact Json.at?_ne_object rfl path members same
    | object known =>
      rw [Json.withoutNulls, Json.overlay_object, Json.overlay_object]
      refine congrArg Json.object ((Members.ascending_overlay knownOrdered.1 _).ext
        (Members.ascending_overlay knownOrdered.1 newer) fun name => ?_)
      rw [Members.find?_overlay name known ordered.1.distinct.withoutNulls,
        Members.find?_withoutNulls name ordered.1.distinct,
        Members.find?_overlay name known ordered.1.distinct]
      cases found : Members.find? name newer with
      | none => rfl
      | some value =>
        rw [Option.bind_some, Json.given?]
        split
        · next null =>
          rw [Json.isNull_iff.mp null]
          exact (Json.overlaid_of_untouched _ rfl).trans (Json.overlaid_of_untouched _ rfl).symm
        · next visible =>
          have notNull := Bool.eq_false_iff.mpr visible
          cases held : Members.find? name known with
          | none =>
            -- A member that is new has no null inside it, as nothing is known of it.
            rw [Json.withoutNulls_of_at?_concat (ordered.2.find? found) notNull
              fun path last null => ?_]
            obtain ⟨members, same⟩ := nulls (name :: path) last (by simp [found, null])
            simp [held] at same
          | some old =>
            rw [Json.overlaid_some, Json.overlaid_some, Members.overlay_withoutNulls newer ordered.2
              found old (knownOrdered.2.find? held) (nulls.member held found)]

/-- Nulls in objects that are known change nothing for any member. -/
theorem Members.overlay_withoutNulls : (newer : Members) → Json.OrderedMembers newer →
    {name : String} → {value : Json} → Members.find? name newer = some value → (known : Json) →
    known.Ordered → Json.NullsKnown known value →
    known.overlay value.withoutNulls = known.overlay value
  | [], _, _, _, found, _, _, _ => nomatch found
  | (key, first) :: rest, ordered, name, value, found, known, knownOrdered, nulls => by
    -- The induction is on the members that are laid over, down to the one that is found.
    rw [Members.find?_cons] at found
    split at found
    · cases found
      exact Json.overlay_withoutNulls first ordered.1 known knownOrdered nulls
    · exact Members.overlay_withoutNulls rest ordered.2 found known knownOrdered nulls

end

end ContentApi
