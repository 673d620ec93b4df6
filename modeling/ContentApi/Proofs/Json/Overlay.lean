import ContentApi.Json.Overlay
import ContentApi.Proofs.Json.Ordered

/-! What the overlay of documents holds under each name, and which paths it leaves alone. -/

namespace ContentApi

/-- The document that a path of member names leads to. -/
def Json.at? : List String → Json → Option Json
  | [], document => some document
  | name :: path, .object members => (Members.find? name members).bind (Json.at? path)
  | _ :: _, _ => none

@[simp] theorem Json.at?_nil (document : Json) : Json.at? [] document = some document := by
  rw [Json.at?]

@[simp] theorem Json.at?_object (name : String) (path : List String) (members : Members) :
    Json.at? (name :: path) (.object members) =
      (Members.find? name members).bind (Json.at? path) := by
  rw [Json.at?]

/-- The paths that run through objects of both documents and then reach a member that the newer
document leaves out or sets to null. -/
inductive Json.Spares : Json → Json → List String → Prop where
  | last {known newer : Members} {name : String}
    (untouched : (Members.find? name newer).getD .null = .null) :
    Spares (.object known) (.object newer) [name]
  | through {known newer : Members} {name : String} {inner innerNewer : Json}
    {path : List String} (present : Members.find? name known = some inner)
    (presentNewer : Members.find? name newer = some innerNewer)
    (rest : Spares inner innerNewer path) : Spares (.object known) (.object newer) (name :: path)

/-- What an overlay holds for a member, from what the older and the newer document hold for it. -/
def Json.overlaid : Option Json → Option Json → Option Json
  | known, none => known
  | known, some .null => known
  | some (.object known), some (.object newer) => some (.object (Members.overlay known newer))
  | _, some newer => some newer

/-- Laying an object over another gives an object. -/
theorem Json.overlay_object (known newer : Members) :
    Json.overlay (.object known) (.object newer) = .object (Members.overlay known newer) := by
  rw [Json.overlay]

/-- A member that is null or missing in a newer document is what it was before. -/
theorem Json.overlaid_of_untouched (known : Option Json) {newer : Option Json}
    (untouched : newer.getD .null = .null) : Json.overlaid known newer = known := by
  -- Missing and null come to the same here.
  cases newer with
  | none => cases known <;> simp [Json.overlaid]
  | some value =>
    rw [Option.getD_some] at untouched
    subst untouched
    cases known <;> simp [Json.overlaid]

/-- What stands in both documents is overlaid as a whole document is. -/
theorem Json.overlaid_some (known newer : Json) :
    Json.overlaid (some known) (some newer) = some (known.overlay newer) := by
  -- The newer value decides, and for an object the older one too.
  cases newer with
  | null | flag | number | text | array => simp [Json.overlaid, Json.overlay]
  | object members => cases known <;> simp [Json.overlaid, Json.overlay]

/-- A value that is not null is taken over unless it is an object laid over another. -/
theorem Json.overlaid_of_apart {known : Option Json} {value : Json} (notNull : value ≠ .null)
    (apart : (value.isObject && known.any Json.isObject) = false) :
    Json.overlaid known (some value) = some value := by
  -- The value decides first; what was known matters for an object only.
  cases value with
  | null => exact absurd rfl notNull
  | flag | number | text | array =>
    cases known with
    | none => simp [Json.overlaid]
    | some old => cases old <;> simp [Json.overlaid]
  | object newer =>
    cases known with
    | none => simp [Json.overlaid]
    | some old =>
      cases old with
      -- An object over an object is what the condition rules out.
      | object members => cases apart
      | null | flag | number | text | array => simp [Json.overlaid]

namespace Members

/-- One step of the overlay: a null changes nothing, an object is overlaid on a known one, and
anything else is put in its place. -/
theorem overlay_cons (known : Members) (name : String) (value : Json) (rest : Members) :
    overlay known ((name, value) :: rest) =
      overlay
        (if value.isNull then known
        else insert name ((Json.overlaid (find? name known) (some value)).getD value) known)
        rest := by
  rw [overlay]
  -- Null changes nothing, and the rest depends on whether an object is known under the name.
  cases value with
  | null => simp [Json.isNull]
  | flag | number | text | array | object =>
    cases find? name known with
    | none => simp [Json.isNull, Json.overlaid]
    | some inner => cases inner <;> simp [Json.isNull, Json.overlaid, Json.overlay]

/-- An overlay keeps names in ascending order. -/
theorem ascending_overlay {known : Members} (ascending : known.Ascending) (newer : Members) :
    (overlay known newer).Ascending := by
  induction newer generalizing known with
  | nil => rwa [overlay]
  | cons member rest ih =>
    obtain ⟨name, value⟩ := member
    rw [overlay_cons]
    apply ih
    -- The step leaves the members as they are or puts one in its place.
    split
    · exact ascending
    · exact ascending_insert _ _ ascending

/-- Each name is overlaid on its own. -/
theorem find?_overlay (name : String) (known : Members) {newer : Members}
    (distinct : newer.Distinct) :
    find? name (overlay known newer) = Json.overlaid (find? name known) (find? name newer) := by
  -- Each newer member is laid over what those before it have left.
  induction newer generalizing known with
  | nil =>
    rw [overlay, find?_nil]
    cases find? name known <;> simp [Json.overlaid]
  | cons member rest ih =>
    obtain ⟨key, value⟩ := member
    obtain ⟨single, others⟩ := List.nodup_cons.mp distinct
    rw [overlay_cons, ih _ others, find?_cons]
    by_cases same : key = name
    · -- No later member has the name, so what this one left is final.
      subst same
      rw [find?_eq_none single, if_pos rfl]
      cases value <;> cases found : find? key known with
      | none => simp [Json.overlaid, Json.isNull, find?_insert, found]
      | some inner => cases inner <;> simp [Json.overlaid, Json.isNull, find?_insert, found]
    · rw [if_neg same]
      -- A member of another name changes nothing under this one.
      congr 1
      split
      · rfl
      · rw [find?_insert, if_neg same]

/-- A name under which nothing but nulls is laid over members keeps what it has. -/
theorem find?_overlay_of_nulls {name : String} {newer : Members}
    (nulls : ∀ member ∈ newer, member.1 = name → member.2 = .null) (known : Members) :
    find? name (overlay known newer) = find? name known := by
  induction newer generalizing known with
  | nil => rw [overlay]
  | cons member rest ih =>
    obtain ⟨key, value⟩ := member
    obtain ⟨first, others⟩ := List.forall_mem_cons.mp nulls
    rw [overlay_cons, ih others]
    split
    · rfl
    · next visible =>
      -- A value that is laid over the members has another name.
      have differs : key ≠ name := by
        intro same
        cases (first same : value = .null)
        exact visible rfl
      rw [find?_insert, if_neg differs]

end Members

mutual

/-- Laying an ordered document over itself changes nothing. -/
theorem Json.overlay_self : (document : Json) → document.Ordered →
    document.overlay document = document
  | .null, _ | .flag _, _ | .number _, _ | .text _, _ | .array _, _ => by simp [Json.overlay]
  | .object members, ordered => by
    rw [Json.overlay_object]
    -- Both have the same members in the same order, as far as can be told by their names.
    refine congrArg Json.object ((Members.ascending_overlay ordered.1 members).ext ordered.1 ?_)
    intro name
    rw [Members.find?_overlay name members ordered.1.distinct]
    exact Members.overlaid_find?_self members ordered.2 name

/-- A member of ordered members that is laid over itself stays what it is. -/
theorem Members.overlaid_find?_self : (members : Members) → Json.OrderedMembers members →
    (name : String) →
    Json.overlaid (Members.find? name members) (Members.find? name members) =
      Members.find? name members
  | [], _, _ => by simp [Json.overlaid]
  | (key, value) :: rest, ordered, name => by
    -- Each value is laid over itself, and the names of ordered members are distinct.
    rw [Members.find?_cons]
    split
    · rw [Json.overlaid_some, Json.overlay_self value ordered.1]
    · exact Members.overlaid_find?_self rest ordered.2 name

end

end ContentApi
