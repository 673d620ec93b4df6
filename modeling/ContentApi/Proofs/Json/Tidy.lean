import ContentApi.Proofs.Json.Ordered

/-! Tidy documents, whose objects have their members in order and none of them null. -/

namespace ContentApi

mutual

/-- Whether every object of a document has its members in order and none of them null. -/
def Json.Tidy : Json → Prop
  | .array items => Json.TidyItems items
  | .object members => Members.Ascending members ∧ Json.TidyMembers members
  | _ => True

/-- Whether every document of a list is tidy. -/
def Json.TidyItems : List Json → Prop
  | [] => True
  | item :: rest => item.Tidy ∧ Json.TidyItems rest

/-- Whether the value of every member is tidy and not null. -/
def Json.TidyMembers : Members → Prop
  | [] => True
  | (_, value) :: rest => (value ≠ .null ∧ value.Tidy) ∧ Json.TidyMembers rest

end

mutual

/-- A tidy document is ordered. -/
theorem Json.Tidy.ordered : (document : Json) → document.Tidy → document.Ordered
  | .null, _ | .flag _, _ | .number _, _ | .text _, _ => trivial
  | .array items, tidy => Json.TidyItems.ordered items tidy
  | .object members, tidy => ⟨tidy.1, Json.TidyMembers.ordered members tidy.2⟩

/-- Tidy documents of a list are ordered. -/
theorem Json.TidyItems.ordered : (items : List Json) → Json.TidyItems items →
    Json.OrderedItems items
  | [], _ => trivial
  | item :: rest, tidy =>
    ⟨Json.Tidy.ordered item tidy.1, Json.TidyItems.ordered rest tidy.2⟩

/-- Tidy values of members are ordered. -/
theorem Json.TidyMembers.ordered : (members : Members) → Json.TidyMembers members →
    Json.OrderedMembers members
  | [], _ => trivial
  | (_, value) :: rest, tidy =>
    ⟨Json.Tidy.ordered value tidy.1.2, Json.TidyMembers.ordered rest tidy.2⟩

end

namespace Json.TidyMembers

/-- Members are tidy if each of them is. -/
theorem iff_forall (members : Members) :
    TidyMembers members ↔ ∀ member ∈ members, member.2 ≠ .null ∧ member.2.Tidy := by
  induction members with
  | nil => simp [TidyMembers]
  | cons member rest ih => simp [TidyMembers, ih]

/-- Sorting members leaves them tidy. -/
theorem sorted {members : Members} (tidy : TidyMembers members) :
    TidyMembers (Members.sorted members) := by
  rw [iff_forall] at tidy ⊢
  intro member inside
  exact tidy member (Members.mem_of_mem_sorted inside)

end Json.TidyMembers

end ContentApi
