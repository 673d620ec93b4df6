import ContentApi.Decimal.Layout

/-! Untyped documents, whose objects list their members in ascending order of names. -/

namespace ContentApi

/-- A number is kept whole if its text is whole and fits in 64 bits, and else is a double. -/
inductive Number where
  | integer (n : Int)
  | real (x : Binary64)
  deriving DecidableEq

/-- The text of a number. -/
def Number.render : Number → String
  | .integer n => toString n
  | .real x => x.render .document

/-- An untyped document. -/
inductive Json where
  | null
  | flag (value : Bool)
  | number (value : Number)
  | text (value : String)
  | array (items : List Json)
  | object (members : List (String × Json))
  deriving Inhabited

/-- The members of an object. -/
abbrev Members := List (String × Json)

mutual

/-- Whether two documents are equal. -/
def Json.same : Json → Json → Bool
  | .null, .null => true
  | .flag a, .flag b => a == b
  | .number a, .number b => a == b
  | .text a, .text b => a == b
  | .array a, .array b => Json.sameItems a b
  | .object a, .object b => Json.sameMembers a b
  | _, _ => false

/-- Whether two lists of documents are equal. -/
def Json.sameItems : List Json → List Json → Bool
  | [], [] => true
  | a :: as, b :: bs => Json.same a b && Json.sameItems as bs
  | _, _ => false

/-- Whether two lists of members are equal. -/
def Json.sameMembers : Members → Members → Bool
  | [], [] => true
  | (key, a) :: as, (name, b) :: bs => key == name && (Json.same a b && Json.sameMembers as bs)
  | _, _ => false

end

mutual

theorem Json.same_iff : ∀ a b : Json, Json.same a b = true ↔ a = b
  -- The first value is taken apart by structural recursion, and the second one by cases.
  | .null, b => by cases b <;> simp [Json.same]
  | .flag _, b => by cases b <;> simp [Json.same]
  | .number _, b => by cases b <;> simp [Json.same]
  | .text _, b => by cases b <;> simp [Json.same]
  | .array as, b => by cases b <;> simp [Json.same, Json.sameItems_iff as]
  | .object as, b => by cases b <;> simp [Json.same, Json.sameMembers_iff as]

theorem Json.sameItems_iff : ∀ as bs : List Json, Json.sameItems as bs = true ↔ as = bs
  | [], bs => by cases bs <;> simp [Json.sameItems]
  | a :: as, bs => by
    cases bs <;> simp [Json.sameItems, Json.same_iff a, Json.sameItems_iff as]

theorem Json.sameMembers_iff : ∀ as bs : Members, Json.sameMembers as bs = true ↔ as = bs
  | [], bs => by cases bs <;> simp [Json.sameMembers]
  | (key, a) :: as, bs => by
    cases bs with
    | nil => simp [Json.sameMembers]
    | cons b bs =>
      -- A member is a pair, and both its name and its value are compared.
      simp [Json.sameMembers, Json.same_iff a, Json.sameMembers_iff as, Prod.ext_iff, and_assoc]

end

instance : DecidableEq Json := fun a b =>
  decidable_of_iff (Json.same a b = true) (Json.same_iff a b)

/-- The value of the first member with a name. -/
def Members.find? (name : String) : Members → Option Json
  | [] => none
  | (key, value) :: rest => if key = name then some value else Members.find? name rest

/-- The members with one of them added in its place, or replaced if the name is taken. -/
def Members.insert (name : String) (value : Json) : Members → Members
  | [] => [(name, value)]
  | (key, old) :: rest =>
    if key = name then (name, value) :: rest
    else if name < key then (name, value) :: (key, old) :: rest
    else (key, old) :: Members.insert name value rest

/-- The members without the one of a given name. -/
def Members.erase (name : String) : Members → Members
  | [] => []
  | (key, value) :: rest => if key = name then rest else (key, value) :: Members.erase name rest

/-- The members in ascending order of names, of which the last of each name is kept. -/
def Members.sorted (members : Members) : Members :=
  members.foldl (fun sorted member => Members.insert member.1 member.2 sorted) []

namespace Json

/-- An object with the given members, of which the last of each name is kept. -/
def ofMembers (members : Members) : Json :=
  .object (Members.sorted members)

/-- An object with those of the given members that have a value. -/
def ofPresent (members : List (String × Option Json)) : Json :=
  ofMembers (members.filterMap fun member => member.2.map fun value => (member.1, value))

/-- The text of a document that is one. -/
def text? : Json → Option String
  | .text value => some value
  | _ => none

/-- The members of a document that is an object. -/
def members? : Json → Option Members
  | .object members => some members
  | _ => none

/-- Whether a document is the null. -/
def isNull : Json → Bool
  | .null => true
  | _ => false

/-- Whether a document is an object. -/
def isObject : Json → Bool
  | .object _ => true
  | _ => false

end Json

end ContentApi
