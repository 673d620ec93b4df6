import ContentApi.Proofs.Json.Nulls
import Mathlib

/-! Two documents laid over a third one after the other, and their overlay laid over it at once. -/

namespace ContentApi

/-- Whether a document is nowhere in the way of another: under no path of member names does it hold
something that is neither null nor an object where the other one holds an object. -/
def Json.GivesWayTo (first second : Json) : Prop :=
  ∀ path held inner, first.at? path = some held → second.at? path = some (.object inner) →
    held = .null ∨ held.isObject = true

section

variable {first second : Members} {name : String} {held value : Json}

/-- What is nowhere in the way is not so under any name either. -/
theorem Json.GivesWayTo.member (gives : Json.GivesWayTo (.object first) (.object second))
    (heldFirst : Members.find? name first = some held)
    (heldSecond : Members.find? name second = some value) : held.GivesWayTo value :=
  -- A place inside a member is one of the whole, with the name in front of its path.
  fun path deep inner found foundSecond =>
    gives (name :: path) deep inner (by simpa [heldFirst] using found)
      (by simpa [heldSecond] using foundSecond)

end

/-- No document is in its own way. -/
theorem Json.givesWayTo_self (document : Json) : document.GivesWayTo document := by
  -- What is found on one side is found on the other, and so is an object there as well.
  intro path held inner found foundObject
  rw [found, Option.some.injEq] at foundObject
  exact Or.inr (foundObject ▸ rfl)

/-- Null is in the way of nothing. -/
theorem Json.null_givesWayTo (document : Json) : Json.null.GivesWayTo document := by
  intro path held inner found foundObject
  -- No path but the empty one leads anywhere in null.
  cases path with
  | nil => exact Or.inl (Option.some.inj found).symm
  | cons name path => simp [at?] at found

/-- An object is nowhere in the way of another if none of its members is. -/
theorem Json.givesWayTo_object {first second : Members}
    (members : ∀ member ∈ first, ∀ value, Members.find? member.1 second = some value →
      member.2.GivesWayTo value) : Json.GivesWayTo (.object first) (.object second) := by
  intro path held inner found foundObject
  -- At the top both are objects, and below it the path leads into a member of both.
  cases path with
  | nil => exact Or.inr ((Option.some.inj found) ▸ rfl)
  | cons name path =>
    rw [at?_object, Option.bind_eq_some_iff] at found foundObject
    obtain ⟨deep, here, deeper⟩ := found
    obtain ⟨value, there, deeperThere⟩ := foundObject
    exact members _ (Members.mem_of_find? here) value there path held inner deeper deeperThere

/-- Whatever is laid over null takes its place. -/
@[simp] theorem Json.null_overlay (newer : Json) : Json.null.overlay newer = newer := by
  cases newer <;> simp [overlay]

/-- Under one name two documents compose if what they hold there does. -/
theorem Json.overlaid_overlaid {known first second : Option Json}
    (inside : ∀ target held value, known = some target → first = some held →
      second = some value → (target.overlay held).overlay value =
        target.overlay (held.overlay value)) :
    Json.overlaid (Json.overlaid known first) second =
      Json.overlaid known (Json.overlaid first second) := by
  -- Only values that are not null change anything.
  by_cases untouched : second.getD .null = .null
  · rw [overlaid_of_untouched _ untouched, overlaid_of_untouched _ untouched]
  obtain ⟨value, rfl⟩ : ∃ value, second = some value := by
    cases second with
    | none => exact absurd rfl untouched
    | some value => exact ⟨value, rfl⟩
  have visible : value.isNull = false := isNull_eq_false untouched
  cases first with
  | none => rw [overlaid_of_untouched known rfl, overlaid_none visible]
  | some held =>
    rw [overlaid_some held value]
    by_cases null : held = .null
    · rw [null, overlaid_of_untouched known rfl, null_overlay]
    cases known with
    | none =>
      rw [overlaid_none (isNull_eq_false null), overlaid_some,
        overlaid_none (isNull_overlay visible held)]
    | some target =>
      rw [overlaid_some, overlaid_some, overlaid_some, inside target held value rfl rfl rfl]

mutual

/-- Laying two documents over a third is laying the overlay of the two over it, if the first of them
is nowhere in the way of the second. -/
theorem Json.overlay_overlay : (second : Json) → second.Ordered → (first : Json) → first.Ordered →
    first.GivesWayTo second → (target : Json) → target.Ordered →
    (target.overlay first).overlay second = target.overlay (first.overlay second)
  | .null, _, _, _, _, _, _ => by simp [Json.overlay]
  | .flag _, _, _, _, _, _, _ | .number _, _, _, _, _, _, _ | .text _, _, _, _, _, _, _
  | .array _, _, _, _, _, _, _ => by simp [Json.overlay]
  | .object second, ordered, first, firstOrdered, gives, target, targetOrdered => by
    cases first with
    | null => simp [Json.overlay]
    | flag | number | text | array =>
      -- Such a value would be in the way of the object right at the start.
      rcases gives [] _ second (Json.at?_nil _) (Json.at?_nil _) with null | object
      · cases null
      · cases object
    | object first =>
      cases target with
      | null | flag | number | text | array =>
        -- Nothing is known here, so the first document stands as it is.
        simp [Json.overlay]
      | object known =>
        simp only [Json.overlay_object]
        have merged := Members.ascending_overlay targetOrdered.1 first
        refine congrArg Json.object ((Members.ascending_overlay merged second).ext
          (Members.ascending_overlay targetOrdered.1 _) fun name => ?_)
        have composed := Members.ascending_overlay firstOrdered.1 second
        rw [Members.find?_overlay name _ ordered.1.distinct,
          Members.find?_overlay name _ firstOrdered.1.distinct,
          Members.find?_overlay name _ composed.distinct,
          Members.find?_overlay name _ ordered.1.distinct]
        refine Json.overlaid_overlaid fun inner held value knownHere heldHere valueHere => ?_
        exact Members.overlay_overlay second ordered.2 valueHere held
          (firstOrdered.2.find? heldHere) (gives.member heldHere valueHere) inner
          (targetOrdered.2.find? knownHere)

/-- What a document holds under a name composes with what was laid there before it. -/
theorem Members.overlay_overlay : (second : Members) → Json.OrderedMembers second →
    {name : String} → {value : Json} → Members.find? name second = some value →
    (held : Json) → held.Ordered → held.GivesWayTo value → (target : Json) → target.Ordered →
    (target.overlay held).overlay value = target.overlay (held.overlay value)
  | [], _, _, _, found, _, _, _, _, _ => nomatch found
  | (key, newest) :: rest, ordered, name, value, found, held, heldOrdered, gives, target,
      targetOrdered => by
    -- The induction is on the members of what comes second, down to the one that is found.
    rw [Members.find?_cons] at found
    split at found
    · cases found
      exact Json.overlay_overlay newest ordered.1 held heldOrdered gives target targetOrdered
    · exact Members.overlay_overlay rest ordered.2 found held heldOrdered gives target
        targetOrdered

end

/-- A path of a name and more leads into a member of an object. -/
theorem Json.exists_of_at?_cons {document value : Json} {name : String} {path : List String}
    (found : document.at? (name :: path) = some value) :
    ∃ members inner, document = .object members ∧ Members.find? name members = some inner ∧
      inner.at? path = some value := by
  -- Nothing but an object has something under a name.
  cases document with
  | object members =>
    rw [at?_object, Option.bind_eq_some_iff] at found
    obtain ⟨inner, here, deeper⟩ := found
    exact ⟨members, inner, rfl, here, deeper⟩
  | null | flag | number | text | array => simp [at?] at found

/-- Where a document is in the way of another one, some document shows that the two do not compose.
-/
theorem Json.exists_overlay_ne {first second : Json} (firstOrdered : first.Ordered)
    (secondOrdered : second.Ordered) {path : List String} {held : Json} {inner : Members}
    (inTheWay : first.at? path = some held) (blocked : second.at? path = some (.object inner))
    (notNull : held ≠ .null) (noObject : held.isObject = false) :
    ∃ target : Json, target.Ordered ∧
      (target.overlay first).overlay second ≠ target.overlay (first.overlay second) := by
  induction path generalizing first second with
  | nil =>
    rw [at?_nil, Option.some.injEq] at inTheWay blocked
    subst inTheWay blocked
    -- A member that the second document does not mention is lost, or kept if the two come as one.
    obtain ⟨fresh, new⟩ := Infinite.exists_notMem_finset (inner.map Prod.fst).toFinset
    rw [List.mem_toFinset] at new
    refine ⟨.object [(fresh, .flag true)], ⟨List.pairwise_singleton _ _, trivial, trivial⟩,
      fun same => ?_⟩
    have lost : ((Json.object [(fresh, .flag true)]).overlay first).overlay (.object inner) =
        .object inner := by
      cases first with
      | null => exact absurd rfl notNull
      | object members => cases noObject
      | flag | number | text | array => simp [overlay]
    have kept : first.overlay (.object inner) = .object inner := by
      cases first with
      | object members => cases noObject
      | null | flag | number | text | array => simp [overlay]
    rw [lost, kept, overlay_object, object.injEq] at same
    have found := congrArg (Members.find? fresh) same
    rw [Members.find?_overlay fresh _ secondOrdered.1.distinct, Members.find?_eq_none new,
      overlaid_of_untouched _ rfl, Members.find?_cons, if_pos rfl] at found
    cases found
  | cons name path ih =>
    obtain ⟨members, here, rfl, foundHere, deeper⟩ := exists_of_at?_cons inTheWay
    obtain ⟨newer, there, rfl, foundThere, deeperThere⟩ := exists_of_at?_cons blocked
    obtain ⟨target, ordered, differs⟩ := ih (firstOrdered.2.find? foundHere)
      (secondOrdered.2.find? foundThere) deeper deeperThere
    -- What shows it further down shows it here, as the only member of an object.
    refine ⟨.object [(name, target)], ⟨List.pairwise_singleton _ _, ordered, trivial⟩,
      fun same => differs ?_⟩
    simp only [overlay_object, object.injEq] at same
    have found := congrArg (Members.find? name) same
    have composed := Members.ascending_overlay firstOrdered.1 newer
    rw [Members.find?_overlay name _ secondOrdered.1.distinct,
      Members.find?_overlay name _ firstOrdered.1.distinct,
      Members.find?_overlay name _ composed.distinct,
      Members.find?_overlay name _ secondOrdered.1.distinct, foundHere, foundThere,
      Members.find?_cons, if_pos rfl] at found
    simpa only [overlaid_some, Option.some.injEq] using found

/-- Laying two documents one after the other over whatever there is comes to the same as laying
their overlay over it, exactly if the first is nowhere in the way of the second; and laying a
document over anything twice comes to the same as once. -/
theorem Json.overlays_compose {first second : Json} (firstOrdered : first.Ordered)
    (secondOrdered : second.Ordered) :
    (first.GivesWayTo second ↔ ∀ target : Json, target.Ordered →
      (target.overlay first).overlay second = target.overlay (first.overlay second)) ∧
    ∀ target : Json, target.Ordered →
      (target.overlay first).overlay first = target.overlay first := by
  refine ⟨⟨fun gives target ordered => ?_, fun composes => ?_⟩, fun target ordered => ?_⟩
  · exact overlay_overlay second secondOrdered first firstOrdered gives target ordered
  · intro path held inner inTheWay blocked
    by_contra stands
    obtain ⟨notNull, noObject⟩ := not_or.mp stands
    obtain ⟨target, ordered, differs⟩ := exists_overlay_ne firstOrdered secondOrdered inTheWay
      blocked notNull (Bool.eq_false_iff.mpr noObject)
    exact differs (composes target ordered)
  · -- A document laid over itself is the document.
    rw [overlay_overlay first firstOrdered first firstOrdered (givesWayTo_self first) target
      ordered, overlay_self first firstOrdered]

/-- An answer that tells no owner and puts a null into a lock composes with one that adds to both.
-/
theorem Json.overlays_compose_lock :
    let known := Json.object [("owned_by", .object [("id", .text "7")])]
    let first := Json.object [("lock", .object [("id", .null)]), ("owned_by", .null)]
    let second := Json.object
      [("lock", .object [("id", .text "2")]), ("owned_by", .object [("name", .text "Ann")])]
    (known.overlay first).overlay second = known.overlay (first.overlay second) ∧
      (known.overlay second).overlay second = known.overlay second := by
  intro known first second
  have knownOrdered : known.Ordered := ⟨by decide, ⟨by decide, trivial, trivial⟩, trivial⟩
  have firstOrdered : first.Ordered :=
    ⟨by decide, ⟨by decide, trivial, trivial⟩, trivial, trivial⟩
  have secondOrdered : second.Ordered :=
    ⟨by decide, ⟨by decide, trivial, trivial⟩, ⟨by decide, trivial, trivial⟩, trivial⟩
  have gives : first.GivesWayTo second := by
    refine givesWayTo_object fun member inside value found => ?_
    -- Of the two members of the first answer, one is an object as in the second, and one is null.
    rcases List.mem_pair.mp inside with rfl | rfl
    · cases found
      refine givesWayTo_object fun member inside value found => ?_
      cases List.mem_singleton.mp inside
      exact null_givesWayTo value
    · exact null_givesWayTo value
  exact ⟨(overlays_compose firstOrdered secondOrdered).1.mp gives known knownOrdered,
    (overlays_compose secondOrdered secondOrdered).2 known knownOrdered⟩

end ContentApi
