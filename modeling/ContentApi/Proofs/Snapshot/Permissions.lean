import ContentApi.Proofs.Snapshot.Rows
import ContentApi.Snapshot.View

/-! A folder grants what the last flag for it says, over any run of updates. -/

namespace ContentApi

/-- What is neither null nor missing has a value. -/
theorem exists_value_of_touched {found : Option Json} (touched : ¬found.getD .null = .null) :
    ∃ value, found = some value ∧ value ≠ .null := by
  cases found with
  | none => exact absurd rfl touched
  | some value => exact ⟨value, rfl, touched⟩

/-- The flag that a value is. -/
def Json.flag? : Json → Option Bool
  | .flag granted => some granted
  | _ => none

/-- The flag that an answer has for a permission of a folder. -/
def Json.permissionFlag? (p : FolderPermission) (answer : Json) : Option Bool :=
  (answer.at? ["permissions", p.name]).bind flag?

/-- Each member is null or a flag. -/
def Members.AreFlags (members : Members) : Prop :=
  ∀ name value, (name, value) ∈ members → value = .null ∨ ∃ granted, value = .flag granted

/-- Null and flags are all that says something of a permission. -/
theorem exists_grantOf?_iff {value : Json} :
    (∃ granted, grantOf? value = some granted) ↔
      value = .null ∨ ∃ granted, value = .flag granted := by
  -- Null stands for a flag that is not set.
  cases value with
  | null => exact iff_of_true ⟨false, rfl⟩ (.inl rfl)
  | flag granted => exact iff_of_true ⟨granted, rfl⟩ (.inr ⟨granted, rfl⟩)
  | number | text | array | object => simp [grantOf?]

/-- What is read as a set has null or a flag under each name. -/
theorem null_or_flag_of_readGrantMembers {members : Members} {g read : Grants}
    (ok : readGrantMembers g (DocMembers.ofJson members) = .ok read) {name : String} {value : Json}
    (found : Members.find? name members = some value) :
    value = .null ∨ ∃ granted, value = .flag granted :=
  -- A set is read only if each of its members is read as a flag that may be null.
  exists_grantOf?_iff.mp (grantOf?_of_readGrantMembers ok name value (Members.mem_of_find? found))

/-- A set that is read from flags alone has the permissions whose flags are set. -/
theorem allows_of_flags {flags : Members} (distinct : flags.Distinct) {read : Grants}
    (ok : readGrantMembers .none (DocMembers.ofJson flags) = .ok read) (p : FolderPermission) :
    read.allows p = ((Members.find? p.name flags).bind Json.flag?).getD false := by
  rw [allows_of_readGrantMembers distinct ok p]
  cases found : Members.find? p.name flags with
  | none => rfl
  | some value =>
    -- Null counts as a refusal here, which is what an unknown permission is.
    rcases null_or_flag_of_readGrantMembers ok found with rfl | ⟨granted, rfl⟩ <;> rfl

/-- A set that is read from flags laid over those of another set has the permissions of that one,
except where there is a flag. -/
theorem allows_of_overlaid_flags {flags : Members} (distinct : flags.Distinct) {g read : Grants}
    (ok : readGrantMembers .none (DocMembers.ofJson (Members.overlay g.toMembers flags)) =
      .ok read) (p : FolderPermission) :
    read.allows p = ((Members.find? p.name flags).bind Json.flag?).getD (g.allows p) := by
  have merged := (Members.ascending_overlay g.ascending_toMembers flags).distinct
  have stands := Members.find?_overlay p.name g.toMembers distinct
  rw [allows_of_readGrantMembers merged ok p]
  cases found : Members.find? p.name flags with
  | none =>
    rw [found, g.find?_toMembers] at stands
    rw [stands]
    cases granted : g.allows p <;> simp [Json.overlaid, grantOf?, Grants.none]
  | some value =>
    rw [found, g.find?_toMembers] at stands
    by_cases null : value = .null
    · -- Null changes nothing that is known.
      rw [stands, null]
      cases granted : g.allows p <;> simp [Json.overlaid, grantOf?, Grants.none, Json.flag?]
    · have taken : Members.find? p.name (Members.overlay g.toMembers flags) = some value := by
        rw [stands]
        exact Json.overlaid_of_apart null (by cases g.allows p <;> simp [Json.isObject])
      rcases null_or_flag_of_readGrantMembers ok taken with isNull | ⟨granted, rfl⟩
      · exact absurd isNull null
      · rw [taken]
        rfl

namespace Snapshot

variable {s s' : Snapshot .folder}

/-- The permissions are the twenty-second member of a folder. -/
theorem folderPermissions_listed :
    Resource.folder.kind.members[21]? = some (.plain "permissions" .grants) := rfl

/-- The place of the permissions among the members of a folder. -/
def permissionsPlace : Place (.plain "permissions" .grants) Resource.folder.kind.members :=
  .ofIndex _ 21 folderPermissions_listed

/-- The permissions that a folder is known to grant. -/
def permissions? (s : Snapshot .folder) : Option Grants := (s.fields.get permissionsPlace).value

/-- Of a set that is not known nothing is granted. -/
theorem grants_eq (s : Snapshot .folder) (p : FolderPermission) :
    s.grants p = s.permissions?.any (·.allows p) := by
  -- Of an unknown set both sides say no.
  rw [grants, permissions?, permissionsPlace]
  cases (s.fields.get _).value <;> rfl

/-- A folder holds its permissions as they are known. -/
theorem get_permissionsPlace (s : Snapshot .folder) :
    s.fields.get permissionsPlace = .plain s.permissions? := by
  rw [permissions?]
  cases s.fields.get permissionsPlace with
  | plain value => rfl

/-- The permissions of a folder are sent with their flags, if they are known. -/
theorem write_permissionsPlace (s : Snapshot .folder) :
    (s.fields.get permissionsPlace).write Members.sorted =
      s.permissions?.map fun g => .object g.toMembers := by
  rw [get_permissionsPlace]
  rfl

section

variable {mode : Mode} (unlimited : mode.room = none)

include unlimited

/-- Of what is read for the permissions of a folder, only an object has any. -/
theorem readFrom_permissions {value : Json} (notNull : value ≠ .null)
    (reads : (s.fields.get permissionsPlace).ReadFrom mode (some value)) :
    ∃ flags g, value = .object flags ∧ s.permissions? = some g ∧
      readGrantMembers .none (DocMembers.ofJson flags) = .ok g := by
  -- The set is held as it was read, so that the reader tells what it was read from.
  rw [get_permissionsPlace] at reads
  obtain ⟨read, ok, same⟩ := map_ok_iff.mp reads
  have held : read = s.permissions? := Slot.plain.inj same
  rw [← held]
  cases value with
  | null => exact absurd rfl notNull
  | object flags =>
    simp only [Leaf.read, Doc.ofJson, readGrants, Mode.enter_of_unlimited unlimited] at ok
    obtain ⟨g, flagsOk, rfl⟩ : ∃ g, readGrantMembers .none (DocMembers.ofJson flags) = .ok g ∧
        some g = read := map_ok_iff.mp ok
    exact ⟨flags, g, rfl, rfl, flagsOk⟩
  | flag | number | text | array =>
    simp [Leaf.read, Doc.ofJson, readGrants, Doc.mismatch, Doc.unexpected] at ok

/-- Where nothing is laid over the permissions of a folder, they stay as they are. -/
theorem permissions?_of_untouched {answer : Option Json} (untouched : answer.getD .null = .null)
    (reads : (s'.fields.get permissionsPlace).ReadFrom mode
      (Json.overlaid ((s.fields.get permissionsPlace).write Members.sorted) answer)) :
    s'.permissions? = s.permissions? := by
  -- What is sent for them is read back, as sets lose nothing when they are sent.
  have same := Slot.eq_settled_of_untouched rfl unlimited untouched reads
  rw [get_permissionsPlace, get_permissionsPlace] at same
  exact Slot.plain.inj same

/-- What is laid over the permissions of a folder are flags, each of which counts. -/
theorem permissions?_of_flags {value : Json} (notNull : value ≠ .null)
    (distinct : ∀ flags, value = .object flags → Members.Distinct flags)
    (reads : (s'.fields.get permissionsPlace).ReadFrom mode
      (Json.overlaid ((s.fields.get permissionsPlace).write Members.sorted) (some value)))
    (p : FolderPermission) :
    s'.permissions?.any (·.allows p) =
      ((value.at? [p.name]).bind Json.flag?).getD (s.permissions?.any (·.allows p)) := by
  rw [write_permissionsPlace] at reads
  cases held : s.permissions? with
  | none =>
    -- The flags are all there is.
    rw [held, Option.map_none, Json.overlaid_of_apart notNull (by simp)] at reads
    obtain ⟨flags, read, rfl, newer, ok⟩ := readFrom_permissions unlimited notNull reads
    rw [newer]
    simp [allows_of_flags (distinct flags rfl) ok p]
  | some g =>
    rw [held, Option.map_some, Json.overlaid_some] at reads
    cases value with
    | object flags =>
      rw [Json.overlay_object] at reads
      obtain ⟨merged, read, same, newer, ok⟩ :=
        readFrom_permissions unlimited Json.noConfusion reads
      cases same
      rw [newer]
      simp [allows_of_overlaid_flags (distinct flags rfl) ok p]
    | null | flag | number | text | array =>
      -- Anything else takes the place of the flags, and is not read as a set.
      rw [Json.overlay_of_noObject rfl notNull] at reads
      obtain ⟨_, _, impossible, _⟩ := readFrom_permissions unlimited notNull reads
      cases impossible

end

/-- An update with an object grants what its flags say, and otherwise what was granted before. -/
theorem grants_update_object {members : Members} (ordered : (Json.object members).Ordered)
    (updated : s.update (.object members) = .ok s') (p : FolderPermission) :
    s'.grants p = ((Json.object members).permissionFlag? p).getD (s.grants p) := by
  obtain ⟨-, reads⟩ := update_object_ok_iff.mp updated
  have read := reads _ permissionsPlace
  have unlimited : (Resource.folder.kind.memberMode .value
      (.plain "permissions" .grants)).room = none := Kind.room_memberMode rfl _
  rw [Members.find?_overlay _ _ ordered.1.distinct, s.find?_members permissionsPlace] at read
  rw [grants_eq, grants_eq, Json.permissionFlag?, Json.at?_object]
  by_cases untouched : (Members.find? "permissions" members).getD .null = .null
  · rw [permissions?_of_untouched unlimited untouched read]
    -- Neither null nor what is missing has a flag.
    cases given : Members.find? "permissions" members with
    | none => rfl
    | some value =>
      rw [given] at untouched
      cases (untouched : value = .null)
      simp [Json.at?]
  · obtain ⟨value, given, notNull⟩ := exists_value_of_touched untouched
    have inOrder : value.Ordered := ordered.2.find? given
    rw [show (Member.plain "permissions" .grants).name = "permissions" from rfl, given] at read
    rw [given]
    refine permissions?_of_flags unlimited notNull (fun flags same => ?_) read p
    subst same
    exact inOrder.1.distinct

/-- An update grants what the flags of its answer say, and otherwise what was granted before. -/
theorem grants_update {answer : Json} (ordered : answer.Ordered)
    (updated : s.update answer = .ok s') (p : FolderPermission) :
    s'.grants p = (answer.permissionFlag? p).getD (s.grants p) := by
  cases answer with
  | object members => exact grants_update_object ordered updated p
  | null =>
    -- Null changes as much as an object without members.
    have updated : s.update (.object []) = .ok s' := by
      rw [update, toJson_eq, Json.overlay_object, Members.overlay]
      rw [update, toJson_eq, Json.overlay] at updated
      exact updated
    exact grants_update_object ⟨List.Pairwise.nil, trivial⟩ updated p
  | flag | number | text | array =>
    -- A folder shares members with items, so that nothing else is accepted.
    obtain ⟨-, _, -, impossible, -⟩ := (update_noObject_ok_iff rfl Json.noConfusion).mp updated
    cases impossible

/-- An object of flags and nulls is read as the permissions of a folder. -/
theorem exists_readFrom_object {mode : Mode} (unlimited : mode.room = none) {members : Members}
    (each : members.AreFlags) :
    ∃ slot : Slot (.plain "permissions" .grants),
      slot.ReadFrom mode (some (.object members)) := by
  -- The flags are gathered to a set, whatever their names are.
  obtain ⟨g, ok⟩ := exists_readGrantMembers
    (fun name value inside => exists_grantOf?_iff.mpr (each name value inside)) .none
  refine ⟨.plain (some g), map_ok_iff.mpr ⟨some g, ?_, rfl⟩⟩
  simp only [Leaf.read, Doc.ofJson, readGrants, Mode.enter_of_unlimited unlimited, ok]
  rfl

/-- Flags and nulls that are laid over the permissions of a folder are read as permissions. -/
theorem exists_readFrom_flags (s : Snapshot .folder) {mode : Mode} (unlimited : mode.room = none)
    {flags : Members} (distinct : flags.Distinct) (each : flags.AreFlags) :
    ∃ slot : Slot (.plain "permissions" .grants), slot.ReadFrom mode
      (Json.overlaid ((s.fields.get permissionsPlace).write Members.sorted)
        (some (.object flags))) := by
  rw [write_permissionsPlace]
  cases s.permissions? with
  | none => exact exists_readFrom_object unlimited each
  | some g =>
    rw [Option.map_some, Json.overlaid_some, Json.overlay_object]
    refine exists_readFrom_object unlimited fun name value inside => ?_
    have merged := (Members.ascending_overlay g.ascending_toMembers flags).distinct
    have stands := Members.find?_of_mem merged inside
    rw [Members.find?_overlay _ _ distinct] at stands
    -- Under each name there is a flag of the set, unless a flag is laid over it.
    by_cases untouched : (Members.find? name flags).getD .null = .null
    · rw [Json.overlaid_of_untouched _ untouched] at stands
      exact .inr ⟨true, (Grants.value_of_find?_toMembers stands).1⟩
    · obtain ⟨newer, given, notNull⟩ := exists_value_of_touched untouched
      obtain ⟨granted, rfl⟩ := (each name newer (Members.mem_of_find? given)).resolve_left notNull
      rw [given, Json.overlaid_of_apart notNull rfl] at stands
      cases stands
      exact .inr ⟨granted, rfl⟩

/-- Flags and nulls are accepted for the permissions of a folder, whatever their names are. -/
theorem exists_update_flags (s : Snapshot .folder) {flags : Members} (distinct : flags.Distinct)
    (each : flags.AreFlags) :
    ∃ s', s.update (.object [("permissions", .object flags)]) = .ok s' := by
  have unlimited : (Resource.folder.kind.memberMode .value
      (.plain "permissions" .grants)).room = none := Kind.room_memberMode rfl _
  obtain ⟨slot, reads⟩ := s.exists_readFrom_flags unlimited distinct each
  -- An answer without members is accepted, and so it is with flags.
  have silent : s.update (.object []) = .ok s.settled :=
    update_of_silent (Or.inr ⟨[], rfl, nofun⟩) s
  exact ⟨_, update_insert List.Pairwise.nil silent permissionsPlace reads⟩

end Snapshot

/-- A snapshot after answers that are laid over it one after another, if each is accepted. -/
def Snapshot.updateEach {r : Resource} (s : Snapshot r) : List Json → Except Fault (Snapshot r)
  | [] => .ok s
  | answer :: rest => (s.update answer).bind fun next => next.updateEach rest

/-- Answers are laid over a snapshot in two runs as in one. -/
theorem Snapshot.updateEach_append {r : Resource} (s : Snapshot r) (before after : List Json) :
    s.updateEach (before ++ after) = (s.updateEach before).bind (·.updateEach after) := by
  -- The induction is on the first run, which ends early if an answer is refused.
  induction before generalizing s with
  | nil => rfl
  | cons answer rest ih =>
    rw [List.cons_append, updateEach, updateEach]
    cases s.update answer with
    | error fault => rfl
    | ok next => exact ih next

namespace Snapshot

variable {s s' : Snapshot .folder}

/-- After any run of updates, what is granted is what the last flag says, if there is any. -/
theorem grants_updateEach {answers : List Json} (ordered : ∀ answer ∈ answers, answer.Ordered)
    (updated : s.updateEach answers = .ok s') (p : FolderPermission) :
    s'.grants p = (answers.reverse.findSome? (Json.permissionFlag? p)).getD (s.grants p) := by
  -- What an answer has made of the snapshot is what the answers after it start from.
  induction answers generalizing s with
  | nil =>
    cases updated
    rfl
  | cons answer rest ih =>
    obtain ⟨first, others⟩ := List.forall_mem_cons.mp ordered
    obtain ⟨next, step, later⟩ := bind_ok_iff.mp updated
    rw [ih others later, grants_update first step p, List.reverse_cons, List.findSome?_append,
      List.findSome?_cons, List.findSome?_nil]
    -- A flag of a later answer counts first, then one of this answer.
    cases rest.reverse.findSome? (Json.permissionFlag? p) with
    | none => cases Json.permissionFlag? p answer <;> rfl
    | some granted => rfl

/-- Any run of updates that have nothing but flags and nulls for the permissions is accepted. -/
theorem exists_updateEach_flags (s : Snapshot .folder) {runs : List Members}
    (flags : ∀ members ∈ runs, members.Distinct ∧ members.AreFlags) :
    ∃ s', s.updateEach (runs.map fun members => .object [("permissions", .object members)]) =
      .ok s' := by
  -- The induction is on the updates, each of which is accepted whatever came before it.
  induction runs generalizing s with
  | nil => exact ⟨s, rfl⟩
  | cons members rest ih =>
    obtain ⟨⟨distinct, each⟩, others⟩ := List.forall_mem_cons.mp flags
    obtain ⟨next, step⟩ := s.exists_update_flags distinct each
    obtain ⟨last, later⟩ := ih next others
    exact ⟨last, bind_ok_iff.mpr ⟨next, step, later⟩⟩

/-- The flag of the last of some answers that has one for a permission. -/
def LastFlag (p : FolderPermission) (answers : List Json) (granted : Bool) : Prop :=
  ∃ before answer after, answers = before ++ answer :: after ∧
    answer.permissionFlag? p = some granted ∧ ∀ later ∈ after, later.permissionFlag? p = none

/-- The last flag is the first one from the end. -/
theorem lastFlag_iff {p : FolderPermission} {answers : List Json} {granted : Bool} :
    LastFlag p answers granted ↔
      answers.reverse.findSome? (Json.permissionFlag? p) = some granted := by
  -- Found from the end, the answer is the last one with a flag, and what is behind it has none.
  rw [List.findSome?_eq_some_iff]
  constructor
  · rintro ⟨before, answer, after, rfl, flag, none⟩
    exact ⟨after.reverse, answer, before.reverse, by simp, flag, by simpa using none⟩
  · rintro ⟨after, answer, before, split, flag, none⟩
    refine ⟨before.reverse, answer, after.reverse, ?_, flag, by simpa using none⟩
    rw [← answers.reverse_reverse, split]
    simp

/-- The permissions of a folder follow the latest flag. Answers whose permissions are flags and
nulls under any names are accepted, and after any answers that are accepted, whatever else they
have, a permission is granted exactly if the last answer with a flag under its name has it set, or
no answer has one and it was granted at the start. -/
theorem grants_latest (s : Snapshot .folder) :
    (∀ runs : List Members, (∀ members ∈ runs, members.Distinct ∧ members.AreFlags) →
      ∃ s', s.updateEach (runs.map fun members => .object [("permissions", .object members)]) =
        .ok s') ∧
    ∀ (answers : List Json) (s' : Snapshot .folder), (∀ answer ∈ answers, answer.Ordered) →
      s.updateEach answers = .ok s' → ∀ p : FolderPermission,
        (s'.grants p = true ↔
          LastFlag p answers true ∨
            (∀ answer ∈ answers, answer.permissionFlag? p = none) ∧ s.grants p = true) := by
  refine ⟨fun runs flags => s.exists_updateEach_flags flags,
    fun answers s' ordered updated p => ?_⟩
  rw [grants_updateEach ordered updated p, lastFlag_iff]
  cases last : answers.reverse.findSome? (Json.permissionFlag? p) with
  | none =>
    have silent : ∀ answer ∈ answers, answer.permissionFlag? p = none := by
      simpa [List.findSome?_eq_none_iff] using last
    simp only [Option.getD_none, reduceCtorEq, false_or]
    exact ⟨fun granted => ⟨silent, granted⟩, And.right⟩
  | some granted =>
    -- Some answer has a flag, so what was granted at the start no longer counts.
    obtain ⟨answer, inside, flag⟩ := List.exists_of_findSome?_eq_some last
    have notSilent : ¬∀ answer ∈ answers, answer.permissionFlag? p = none := fun silent => by
      rw [silent answer (List.mem_reverse.mp inside)] at flag
      cases flag
    simp [notSilent]

/-- A folder that grants uploads and sharing. -/
def sharedFolder : Snapshot .folder where
  fields := (Fields.blank _).set permissionsPlace
    (.plain (some ((Grants.none.set .canUpload true).set .canShare true)))
  pending := []

/-- Answers of which the first allows downloads and takes uploads back, and the others have no flag.
-/
def quietAnswers : List Json :=
  [.object [("permissions", .object [("can_download", .flag true), ("can_preview", .flag true),
    ("can_upload", .flag false)])],
  .object [("name", .text "Plans"), ("permissions", .object [("can_download", .null)])],
  .object [("permissions", .null)], .object []]

/-- Downloads are granted and uploads taken back by the first answer; sharing stays as it was. -/
theorem grants_quietAnswers : ∃ s', sharedFolder.updateEach quietAnswers = .ok s' ∧
    s'.grants .canDownload = true ∧ ¬s'.grants .canUpload = true ∧ s'.grants .canShare = true := by
  -- Each of the answers has its names in order.
  have ordered : ∀ answer ∈ quietAnswers, answer.Ordered := by
    simp only [quietAnswers, List.forall_mem_cons, Json.Ordered, Json.OrderedMembers]
    exact ⟨by decide, by decide, by decide, by decide, List.forall_mem_nil _⟩
  -- The run is computed, and then each permission is told from its answers.
  obtain ⟨s', updated⟩ : ∃ s', sharedFolder.updateEach quietAnswers = .ok s' := ⟨_, rfl⟩
  have follows := (grants_latest sharedFolder).2 quietAnswers s' ordered updated
  refine ⟨s', updated, (follows _).mpr (.inl ⟨[], _, _, rfl, rfl, by decide⟩), fun granted => ?_,
    (follows _).mpr (.inr ⟨by decide, rfl⟩)⟩
  rcases (follows _).mp granted with last | ⟨silent, -⟩
  · cases lastFlag_iff.mp last
  · cases silent _ (.head _)

end Snapshot

end ContentApi
