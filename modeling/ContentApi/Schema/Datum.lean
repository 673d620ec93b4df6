import ContentApi.Schema.Shape

/-! Typed documents, of which each shape has its own. -/

namespace ContentApi

mutual

/-- A document of a shape. -/
inductive Datum : Shape → Type where
  | leaf {l : Leaf} (value : l.Carrier) : Datum (.leaf l)
  | record {k : Kind} (fields : Fields k.members) : Datum (.record k)
  | item (k : ItemKind) (fields : Fields k.kind.members) : Datum .item

/-- Documents of one shape. -/
inductive Items : Shape → Type where
  | nil {s : Shape} : Items s
  | cons {s : Shape} (first : Datum s) (rest : Items s) : Items s

/-- What a record holds for a member. -/
inductive Slot : Member → Type where
  | absent {name : String} {s : Shape} : Slot (.optional name s)
  | given {name : String} {s : Shape} (value : Datum s) : Slot (.optional name s)
  | plain {name : String} {l : Leaf} (value : l.Carrier) : Slot (.plain name l)
  | entries {name : String} {s : Shape} (items : Items s) : Slot (.entries name s)
  | omittable {name : String} {s : Shape} (items : Items s) : Slot (.omittable name s)
  | mandatory {name : String} {l : Leaf} (value : l.Carrier) : Slot (.mandatory name l)

/-- What a record holds for each of its members. -/
inductive Fields : List Member → Type where
  | nil : Fields []
  | cons {m : Member} {ms : List Member} (slot : Slot m) (rest : Fields ms) : Fields (m :: ms)

end

/-- A record of a kind. -/
abbrev Record (k : Kind) := Fields k.members

namespace Items

/-- The documents as a list. -/
def toList {s : Shape} : Items s → List (Datum s)
  | .nil => []
  | .cons first rest => first :: rest.toList

/-- The documents of a list. -/
def ofList {s : Shape} : List (Datum s) → Items s
  | [] => .nil
  | first :: rest => .cons first (ofList rest)

theorem toList_ofList {s : Shape} (l : List (Datum s)) : (ofList l).toList = l := by
  induction l with
  | nil => rfl
  | cons first rest ih => simp [ofList, toList, ih]

end Items

/-- What a record holds for a member that was not there. -/
def Slot.blank : (m : Member) → Slot m
  | .optional _ _ => .absent
  | .plain _ l => .plain l.absent
  | .entries _ _ => .entries .nil
  | .omittable _ _ => .omittable .nil
  | .mandatory _ l => .mandatory l.absent

namespace Fields

/-- The record of which nothing is known. -/
def blank : (ms : List Member) → Fields ms
  | [] => .nil
  | m :: ms => .cons (.blank m) (blank ms)

/-- What a record holds at a place. -/
def get {m : Member} : {ms : List Member} → Place m ms → Fields ms → Slot m
  | _ :: _, .here, .cons slot _ => slot
  | _ :: _, .there p, .cons _ rest => rest.get p

/-- A record that holds something else at a place. -/
def set {m : Member} : {ms : List Member} → Place m ms → Slot m → Fields ms → Fields ms
  | _ :: _, .here, slot, .cons _ rest => .cons slot rest
  | _ :: _, .there p, slot, .cons other rest => .cons other (rest.set p slot)

end Fields

/-- What has been read of a record so far. -/
inductive Slots : List Member → Type where
  | nil : Slots []
  | cons {m : Member} {ms : List Member} (slot : Option (Slot m)) (rest : Slots ms) :
    Slots (m :: ms)

namespace Slots

/-- Nothing has been read yet. -/
def empty : (ms : List Member) → Slots ms
  | [] => .nil
  | _ :: ms => .cons none (empty ms)

/-- What has been read for a member. -/
def get {m : Member} : {ms : List Member} → Place m ms → Slots ms → Option (Slot m)
  | _ :: _, .here, .cons slot _ => slot
  | _ :: _, .there p, .cons _ rest => rest.get p

/-- What has been read, with one more member. -/
def put {m : Member} : {ms : List Member} → Place m ms → Slot m → Slots ms → Slots ms
  | _ :: _, .here, slot, .cons _ rest => .cons (some slot) rest
  | _ :: _, .there p, slot, .cons other rest => .cons other (rest.put p slot)

/-- The record, whose missing members are blank; one that must be there is a fault. -/
def finish : {ms : List Member} → Slots ms → Except String (Fields ms)
  | [], .nil => .ok .nil
  | m :: _, .cons slot rest => do
    let value ← match slot with
      | some value => .ok value
      | none => if m.isMandatory then .error m.name else .ok (Slot.blank m)
    return .cons value (← rest.finish)

end Slots

mutual

/-- Whether a document equals another. -/
def Datum.same : {s : Shape} → Datum s → Datum s → Bool
  | _, .leaf a, other =>
    match other with
    | .leaf b => decide (a = b)
  | _, .record a, other =>
    match other with
    | .record b => a.same b
  | _, .item j a, other =>
    match other with
    | .item k b => if h : k = j then a.same (h ▸ b) else false
termination_by structural _ x => x

/-- Whether a list of documents equals another. -/
def Items.same : {s : Shape} → Items s → Items s → Bool
  | _, .nil, other =>
    match other with
    | .nil => true
    | .cons _ _ => false
  | _, .cons a as, other =>
    match other with
    | .nil => false
    | .cons b bs => a.same b && as.same bs
termination_by structural _ x => x

/-- Whether a member holds the same as another. -/
def Slot.same : {m : Member} → Slot m → Slot m → Bool
  | _, .absent, other =>
    match other with
    | .absent => true
    | .given _ => false
  | _, .given a, other =>
    match other with
    | .absent => false
    | .given b => a.same b
  | _, .plain a, other =>
    match other with
    | .plain b => decide (a = b)
  | _, .entries a, other =>
    match other with
    | .entries b => a.same b
  | _, .omittable a, other =>
    match other with
    | .omittable b => a.same b
  | _, .mandatory a, other =>
    match other with
    | .mandatory b => decide (a = b)
termination_by structural _ x => x

/-- Whether a record equals another. -/
def Fields.same : {ms : List Member} → Fields ms → Fields ms → Bool
  | _, .nil, _ => true
  | _, .cons a as, other =>
    match other with
    | .cons b bs => a.same b && as.same bs
termination_by structural _ x => x

end

end ContentApi
