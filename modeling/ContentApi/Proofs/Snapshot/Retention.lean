import ContentApi.Proofs.Calendar.Digits
import ContentApi.Proofs.Schema.Nulls
import ContentApi.Proofs.Snapshot.Permissions
import ContentApi.Proofs.Snapshot.Rows

/-! How long a retention policy keeps content is read from whatever is given for it, and stays as it
is until something else is given. -/

namespace ContentApi

/-- Whether characters are a number in decimal: digits, at least one and nothing else, with or
without a plus sign in front. -/
def IsDecimal (cs : List Char) (n : Nat) : Prop :=
  ∃ digits : List Char, (cs = digits ∨ cs = '+' :: digits) ∧
    (digits ≠ [] ∧ ∀ c ∈ digits, c.isDigit = true) ∧ Nat.ofDigitChars 10 digits 0 = n

/-- Whether a value is a number of days: a whole number, or a text that is one in decimal, and no
more than fits in 32 bits. -/
def Json.IsDays (value : Json) (n : Nat) : Prop :=
  n ≤ 4294967295 ∧
    (value = .number (.integer n) ∨ ∃ text, value = .text text ∧ IsDecimal text.toList n)

/-- What is read of an answer for the days, if anything is. In an object it stands under their name,
unless that is null. In a list it stands in the fourth place; a shorter list leaves the days out,
and is read as if it had null there. -/
def Json.days? : Json → Option Json
  | .object members =>
    match Members.find? "retention_length" members with
    | none | some .null => none
    | some value => some value
  | .array items => some (items[3]?.getD .null)
  | _ => none

/-- An object that says nothing of the days has nothing or null under their name. -/
theorem Json.days?_object_eq_none_iff {members : Members} :
    (Json.object members).days? = none ↔
      (Members.find? "retention_length" members).getD .null = .null := by
  -- The name is looked up, and null counts as if it were not there.
  rw [days?]
  cases Members.find? "retention_length" members with
  | none => simp
  | some value => cases value <;> simp

/-- What an object says of the days stands under their name, and is not null. -/
theorem Json.days?_object_eq_some_iff {members : Members} {value : Json} :
    (Json.object members).days? = some value ↔
      Members.find? "retention_length" members = some value ∧ value ≠ .null := by
  -- The name is looked up, and null is the one value that does not count.
  rw [days?]
  cases Members.find? "retention_length" members with
  | none => simp
  | some given =>
    cases given with
    | null => simpa using fun same => Eq.symm same
    | _ =>
      simp only [Option.some.injEq]
      exact ⟨fun same => ⟨same, same ▸ Json.noConfusion⟩, And.left⟩

/-- What is behind a plus sign, or everything if there is none in front. -/
def withoutPlus : List Char → List Char
  | '+' :: rest => rest
  | cs => cs

/-- A number in decimal is all digits behind its sign, if it has one. -/
theorem isDecimal_iff {cs : List Char} {n : Nat} :
    IsDecimal cs n ↔ (withoutPlus cs ≠ [] ∧ ∀ c ∈ withoutPlus cs, c.isDigit = true) ∧
      Nat.ofDigitChars 10 (withoutPlus cs) 0 = n := by
  -- At most one sign is dropped, so that a second one is a character that is no digit.
  by_cases plus : ∃ rest, cs = '+' :: rest
  · obtain ⟨rest, rfl⟩ := plus
    refine ⟨?_, fun read => ⟨rest, .inr rfl, read⟩⟩
    rintro ⟨digits, rfl | same, read⟩
    · -- A plus sign is no digit.
      exact absurd (read.1.2 '+' List.mem_cons_self) (by decide)
    · cases same
      exact read
  · have unsigned : withoutPlus cs = cs := by
      rw [withoutPlus]
      exact fun rest same => plus ⟨rest, same⟩
    rw [unsigned]
    refine ⟨?_, fun read => ⟨cs, .inl rfl, read⟩⟩
    rintro ⟨digits, rfl | same, read⟩
    · exact read
    · exact absurd ⟨digits, same⟩ plus

/-- A number is one of days if it has 32 bits. -/
theorem ofNat_eq_some_iff {k : Nat} {n : UInt32} :
    (if k < Nat.pow 2 32 then some (UInt32.ofNat k) else none) = some n ↔ k = n.toNat := by
  -- With 32 bits a number is that of its bits, and without them it is none.
  by_cases small : k < Nat.pow 2 32
  · rw [if_pos small, Option.some.injEq]
    constructor
    · rintro rfl
      exact (UInt32.toNat_ofNat_of_lt small).symm
    · rintro rfl
      exact UInt32.ofNat_toNat
  · rw [if_neg small]
    refine iff_of_false nofun fun same => small ?_
    exact same ▸ n.toNat_lt

/-- Characters are read as days if they are a number in decimal, as that number. -/
theorem daysOfChars?_eq_some_iff {cs : List Char} {n : UInt32} :
    daysOfChars? cs = some n ↔ IsDecimal cs n.toNat := by
  rw [isDecimal_iff]
  show (if (withoutPlus cs).isEmpty ∨ !(withoutPlus cs).all Char.isDigit then none
    else if digitsValue (withoutPlus cs) < Nat.pow 2 32
      then some (UInt32.ofNat (digitsValue (withoutPlus cs))) else none) = some n ↔ _
  -- The reader looks at the digits first and at the size of their number then.
  by_cases plain : withoutPlus cs ≠ [] ∧ ∀ c ∈ withoutPlus cs, c.isDigit = true
  · rw [if_neg (by simpa using plain), ofNat_eq_some_iff, digitsValue_eq]
    exact (and_iff_right plain).symm
  · rw [if_pos (by simpa [or_iff_not_imp_left] using plain)]
    exact iff_of_false nofun fun both => plain both.1

/-- The days that a value is read as are those that it is, if it is any. -/
theorem daysOf?_eq_some_iff {value : Json} {n : UInt32} :
    daysOf? value = some n ↔ value.IsDays n.toNat := by
  have small : n.toNat ≤ 4294967295 := Nat.le_of_lt_succ n.toNat_lt
  rw [Json.IsDays, and_iff_right small]
  -- Numbers and texts are read each in their own way, and nothing else is read.
  cases value with
  | null | flag | array | object => simp [daysOf?]
  | text s => simp [daysOf?, daysOfChars?_eq_some_iff]
  | number number =>
    cases number with
    | real x => simp [daysOf?]
    | integer k =>
      simp only [daysOf?, Json.number.injEq, Number.integer.injEq, reduceCtorEq, false_and,
        exists_false, or_false]
      by_cases positive : 0 ≤ k
      · obtain ⟨k, rfl⟩ := Int.eq_ofNat_of_zero_le positive
        have fits : (0 ≤ (k : Int) ∧ (k : Int) < Nat.pow 2 32) ↔ k < Nat.pow 2 32 := by omega
        rw [if_congr fits rfl rfl, Int.toNat_natCast, ofNat_eq_some_iff, Int.natCast_inj]
      · rw [if_neg fun both => positive both.1]
        refine iff_of_false (Option.some_ne_none n).symm fun same => positive ?_
        omega

/-- The days that a value is read as are any number that the value is. -/
theorem map_daysOf?_eq_some_iff {value : Json} {n : Nat} :
    (daysOf? value).map UInt32.toNat = some n ↔ value.IsDays n := by
  rw [Option.map_eq_some_iff]
  constructor
  · -- Whatever is read has 32 bits, and a number that is meant has them by definition.
    rintro ⟨days, read, rfl⟩
    exact daysOf?_eq_some_iff.mp read
  · intro isDays
    have same : (UInt32.ofNat n).toNat = n :=
      UInt32.toNat_ofNat_of_lt (Nat.lt_succ_of_le isDays.1)
    exact ⟨UInt32.ofNat n, daysOf?_eq_some_iff.mpr (same.symm ▸ isDays), same⟩

/-- Whatever is given for days is read, as the days that it is or as none. -/
theorem readFrom_days (name : String) {mode : Mode} (unlimited : mode.room = none) (value : Json) :
    (Slot.plain (l := .days) (daysOf? value) : Slot (.plain name .days)).ReadFrom mode
      (some value) := by
  -- To put the members of an object in order makes no number of it.
  have same : daysOf? value.arranged = daysOf? value := by
    cases value <;> simp [Json.arranged, daysOf?]
  have read : readDays mode (Doc.ofJson value) = .ok (daysOf? value) := by
    rw [readDays_ofJson (value.fitsIn_of_unlimited unlimited), same]
  exact map_ok_iff.mpr ⟨_, read, rfl⟩

namespace Snapshot

variable {s s' : Snapshot .retentionPolicy}

/-- The days are the fourth member of a retention policy. -/
theorem retentionDays_listed :
    Resource.retentionPolicy.kind.members[3]? = some (.plain "retention_length" .days) := rfl

/-- The place of the days among the members of a retention policy. -/
def daysPlace : Place (.plain "retention_length" .days) Resource.retentionPolicy.kind.members :=
  .ofIndex _ 3 retentionDays_listed

/-- How many days a retention policy keeps content, if that is known. -/
def days? (s : Snapshot .retentionPolicy) : Option UInt32 := (s.fields.get daysPlace).value

/-- Whether the days of a retention policy are those that a value is, and none if it is not any. -/
def HasDays (s : Snapshot .retentionPolicy) (value : Json) : Prop :=
  ∀ n : Nat, s.days?.map UInt32.toNat = some n ↔ value.IsDays n

/-- Whether two retention policies differ in their days alone. -/
def AgreeApart (s s' : Snapshot .retentionPolicy) : Prop :=
  ∀ m (p : Place m Resource.retentionPolicy.kind.members), m.name ≠ "retention_length" →
    s'.fields.get p = s.fields.get p

/-- A retention policy whose days are read from a value has the days that it is. -/
theorem hasDays_iff {value : Json} : s.HasDays value ↔ s.days? = daysOf? value := by
  constructor
  · intro has
    -- Both are known as soon as it is known which numbers they are.
    refine Option.map_injective (fun _ _ => UInt32.toNat_inj.mp) (Option.ext fun n => ?_)
    rw [has n, map_daysOf?_eq_some_iff]
  · intro same n
    rw [same, map_daysOf?_eq_some_iff]

/-- What a retention policy holds for the days are the days that are known. -/
theorem get_daysPlace (s : Snapshot .retentionPolicy) :
    s.fields.get daysPlace = .plain s.days? := by
  rw [days?]
  cases s.fields.get daysPlace with
  | plain days => rfl

/-- The days that are read of a value are set, and nothing else is. -/
theorem withSlot_days (s : Snapshot .retentionPolicy) (value : Json) :
    (s.withSlot daysPlace (.plain (daysOf? value))).HasDays value ∧
      s.AgreeApart (s.withSlot daysPlace (.plain (daysOf? value))) := by
  -- The days are the value of their place, and every other place is left alone.
  refine ⟨hasDays_iff.mpr ?_, fun m p other => Fields.get_set_of_name_ne daysPlace p other _ _⟩
  rw [days?, withSlot, Fields.get_set]
  rfl

/-- Days that are known are sent as a number, so whatever is given takes their place. -/
theorem overlaid_days (s : Snapshot .retentionPolicy) {value : Json} (notNull : value ≠ .null) :
    Json.overlaid ((s.fields.get daysPlace).write Members.sorted) (some value) = some value := by
  -- A number is no object, so nothing of it is kept beneath what is laid over it.
  refine Json.overlaid_of_apart notNull ?_
  rw [get_daysPlace]
  cases s.days? <;> simp [Slot.write, Leaf.write, Json.isObject]

/-- The mode in which the days are read sets no limit. -/
theorem unlimited_days : (Resource.retentionPolicy.kind.memberMode .value
    (.plain "retention_length" .days)).room = none := Kind.room_memberMode rfl _

/-- The days that are read from a value are those that the value is read as. -/
theorem days?_of_readFrom {mode : Mode} (unlimited : mode.room = none) {value : Json}
    (read : (s.fields.get daysPlace).ReadFrom mode (some value)) : s.days? = daysOf? value := by
  -- A value is read in one way only, so what was read is the days of the value.
  have same := read.unique (readFrom_days _ unlimited value)
  rw [get_daysPlace] at same
  exact Slot.plain.inj same

/-- An update with an object has the days that it says, and otherwise those that were known. -/
theorem days?_update_object {members : Members} (distinct : members.Distinct)
    (updated : s.update (.object members) = .ok s') :
    s'.days? = (Json.object members).days?.elim s.days? daysOf? := by
  -- What the object says is laid over the days, and what it does not say is not.
  cases said : (Json.object members).days? with
  | none =>
    rw [days?, get_of_untouched distinct updated daysPlace
      (Json.days?_object_eq_none_iff.mp said), get_daysPlace]
    rfl
  | some value =>
    obtain ⟨given, notNull⟩ := Json.days?_object_eq_some_iff.mp said
    obtain ⟨-, reads⟩ := update_object_ok_iff.mp updated
    have read := reads _ daysPlace
    rw [Members.find?_overlay _ _ distinct, s.find?_members daysPlace,
      show (Member.plain "retention_length" .days).name = "retention_length" from rfl, given,
      s.overlaid_days notNull] at read
    exact days?_of_readFrom unlimited_days read

/-- An update has the days that its answer says, and otherwise those that were known. -/
theorem days?_update {answer : Json} (ordered : answer.Ordered)
    (updated : s.update answer = .ok s') : s'.days? = answer.days?.elim s.days? daysOf? := by
  cases answer with
  | object members => exact days?_update_object ordered.1.distinct updated
  | null =>
    cases updated.symm.trans (update_of_silent (Or.inl rfl) s)
    show (s.fields.settled.get daysPlace).value = s.days?
    rw [Fields.get_settled, get_daysPlace]
    rfl
  | array items =>
    -- The days are read from the fourth value, and are blank if the list ends before it.
    obtain ⟨-, _, same, -, row⟩ := (update_noObject_ok_iff rfl Json.noConfusion).mp updated
    cases same
    have read := row.get_ofIndex rfl 3 retentionDays_listed
    show s'.days? = daysOf? (items[3]?.getD .null)
    cases listed : items[3]? with
    | none =>
      rw [listed] at read
      rw [days?, daysPlace, read.2]
      rfl
    | some value =>
      rw [listed] at read
      exact days?_of_readFrom rfl read
  | flag | number | text =>
    obtain ⟨-, _, impossible, -⟩ := (update_noObject_ok_iff rfl Json.noConfusion).mp updated
    cases impossible

/-- The days stay as they are while no answer says anything of them. -/
theorem days?_updateEach_of_silent {answers : List Json}
    (ordered : ∀ answer ∈ answers, answer.Ordered)
    (silent : ∀ answer ∈ answers, answer.days? = none)
    (updated : s.updateEach answers = .ok s') : s'.days? = s.days? := by
  -- The induction is on the answers, each of which leaves the days as they were.
  induction answers generalizing s with
  | nil =>
    cases updated
    rfl
  | cons answer rest ih =>
    obtain ⟨first, others⟩ := List.forall_mem_cons.mp ordered
    obtain ⟨quiet, rest⟩ := List.forall_mem_cons.mp silent
    obtain ⟨next, step, later⟩ := bind_ok_iff.mp updated
    rw [ih others rest later, days?_update first step, quiet]
    rfl

/-- The days are those of the last answer that says anything of them. -/
theorem days?_updateEach_of_last {before after : List Json} {answer value : Json}
    (ordered : ∀ later ∈ answer :: after, later.Ordered) (said : answer.days? = some value)
    (silent : ∀ later ∈ after, later.days? = none)
    (updated : s.updateEach (before ++ answer :: after) = .ok s') :
    s'.days? = daysOf? value := by
  obtain ⟨first, others⟩ := List.forall_mem_cons.mp ordered
  -- Whatever was known before the answer that says something does not count.
  rw [updateEach_append] at updated
  obtain ⟨known, -, updated⟩ := bind_ok_iff.mp updated
  obtain ⟨next, step, later⟩ := bind_ok_iff.mp updated
  rw [days?_updateEach_of_silent others silent later, days?_update first step, said]
  rfl

/-- The days of a retention policy are read from whatever is given for them. Where an object is read
or accepted, it is so with any value but null for the days; they are then those that the value is,
and none if it is not any, and all else is the same. After any answers that are accepted, the days
are those that the last answer says that says any, and those that were known if none does. -/
theorem days_read {value : Json} (notNull : value ≠ .null) {members : Members}
    (ascending : members.Ascending) :
    (∀ s, ofJson .retentionPolicy (.object members) = .ok s →
      ∃ s', ofJson .retentionPolicy (.object (members.insert "retention_length" value)) = .ok s' ∧
        s'.HasDays value ∧ s.AgreeApart s') ∧
    (∀ known s : Snapshot .retentionPolicy, known.update (.object members) = .ok s →
      ∃ s', known.update (.object (members.insert "retention_length" value)) = .ok s' ∧
        s'.HasDays value ∧ s.AgreeApart s') ∧
    ∀ (known s : Snapshot .retentionPolicy) (answers : List Json),
      (∀ answer ∈ answers, answer.Ordered) → known.updateEach answers = .ok s →
      ((∀ answer ∈ answers, answer.days? = none) → s.days? = known.days?) ∧
      ∀ before answer after said, answers = before ++ answer :: after →
        answer.days? = some said → (∀ later ∈ after, later.days? = none) → s.HasDays said := by
  refine ⟨fun s read => ?_, fun known s updated => ?_, fun known s answers ordered updated => ?_⟩
  · -- The new value is read on its own, whether it is read at once or laid over what is known.
    exact ⟨_, ofJson_insert ascending read daysPlace (readFrom_days _ unlimited_days value),
      s.withSlot_days value⟩
  · have reads := readFrom_days "retention_length" unlimited_days value
    rw [← known.overlaid_days notNull] at reads
    exact ⟨_, update_insert ascending updated daysPlace reads, s.withSlot_days value⟩
  · refine ⟨fun silent => days?_updateEach_of_silent ordered silent updated,
      fun before answer after said split tells silent => hasDays_iff.mpr ?_⟩
    subst split
    exact days?_updateEach_of_last (fun later inside => ordered later
      (List.mem_append_right _ inside)) tells silent updated

/-- A policy for taxes that keeps content for a year. -/
def taxPolicy : Snapshot .retentionPolicy where
  fields := .cons (.given (.leaf (l := .text) "7")) (.cons (.given (.leaf (l := .text) "Taxes"))
    (.cons .absent (.cons (.plain (l := .days) (some 365)) (.blank _))))
  pending := []

/-- A text of thirty days with a sign and zeros in front takes the place of a year, and stays when
the next answer has null for the days. -/
theorem days_read_taxPolicy :
    let answer := Json.object [("policy_name", .text "Tax"), ("retention_length", .text "+0030")]
    ∃ s s', taxPolicy.update answer = .ok s ∧ s.days? = some 30 ∧
      s.updateEach [.object [("retention_length", .null)], .null] = .ok s' ∧
      s'.days? = some 30 := by
  -- The object has one name beside the days, so that it is in order.
  have ascending : Members.Ascending [("policy_name", Json.text "Tax")] := by decide
  have notNull : Json.text "+0030" ≠ .null := Json.noConfusion
  obtain ⟨-, accepted, kept⟩ := days_read notNull ascending
  obtain ⟨s₀, first⟩ : ∃ s, taxPolicy.update (.object [("policy_name", .text "Tax")]) = .ok s :=
    ⟨_, rfl⟩
  obtain ⟨s, updated, has, -⟩ := accepted taxPolicy s₀ first
  have thirty : s.days? = some 30 := (hasDays_iff.mp has).trans (by decide)
  -- Null and an object with null in it are silent, and so are accepted.
  obtain ⟨s', later⟩ : ∃ s',
      s.updateEach [.object [("retention_length", .null)], .null] = .ok s' :=
    ⟨_, bind_ok_iff.mpr ⟨_, update_of_silent (Or.inr ⟨_, rfl, by simp⟩) s,
      bind_ok_iff.mpr ⟨_, update_of_silent (Or.inl rfl) _, rfl⟩⟩⟩
  have ordered : ∀ answer ∈ [Json.object [("retention_length", .null)], .null],
      answer.Ordered := by
    simp only [List.forall_mem_cons, Json.Ordered, Json.OrderedMembers]
    exact ⟨by decide, by decide, List.forall_mem_nil _⟩
  exact ⟨s, s', updated, thirty, later,
    ((kept s s' _ ordered later).1 (by simp [Json.days?, Members.find?])).trans thirty⟩

/-- A list of two elements leaves the days out, and yet a year that was known is lost. -/
theorem days_lost_taxPolicy :
    taxPolicy.days? = some 365 ∧
    ∃ s, taxPolicy.update (.array [.text "7", .text "Taxes"]) = .ok s ∧ s.days? = none :=
  -- The list is read place by place, and behind its end the members are blank.
  ⟨rfl, ⟨.cons (.given (.leaf (l := .text) "7")) (.cons (.given (.leaf (l := .text) "Taxes"))
    (.blank _)), []⟩,
    (update_noObject_ok_iff rfl Json.noConfusion).mpr ⟨rfl, _, rfl, rfl, rfl, rfl, rfl⟩, rfl⟩

end Snapshot

end ContentApi
