import ContentApi.Proofs.Json.Overlay
import ContentApi.Proofs.Operation.Changes
import ContentApi.Proofs.Schema.Tidy
import ContentApi.Proofs.Snapshot.Update

/-! The changes that wait to be sent say nothing of a snapshot but what it says itself. -/

namespace ContentApi

variable {r : Resource}

/-- An optional member is sent as its document, if it is there. -/
theorem Slot.write_optional {arrange : Members → Members} {name : String} {s : Shape} :
    (slot : Slot (.optional name s)) → slot.write arrange = slot.value?.map (Datum.write arrange)
  | .absent => rfl
  | .given _ => rfl

section Link

variable (link : Record .sharedLink)

/-- The access of a shared link is written as it is sent. -/
theorem find?_linkAccess : Members.find? "access" (link.write Members.sorted) =
    (linkAccess? link).map fun access => .text access.requestText := by
  refine (link.find?_write Kind.sharedLink.members_distinct linkAccessPlace).trans ?_
  rw [linkAccess?, Option.map_map]
  refine (Slot.write_optional _).trans (congrArg (Option.map · _) (funext fun written => ?_))
  -- The text of a word in documents is the one that it has in requests.
  cases written with
  | leaf access => exact congrArg Json.text access.requestText_eq_text.symm

/-- The expiry of a shared link is written as it is sent. -/
theorem find?_linkExpiry : Members.find? "unshared_at" (link.write Members.sorted) =
    (linkExpiry? link).map fun expiry => .text expiry.format := by
  -- The expiry is the fifth member of a link, and is written as the text of an instant.
  refine (link.find?_write Kind.sharedLink.members_distinct linkExpiryPlace).trans ?_
  rw [linkExpiry?]
  cases link.get linkExpiryPlace
  rfl

/-- The permissions of a shared link are written as they are sent. -/
theorem find?_linkPermissions : Members.find? "permissions" (link.write Members.sorted) =
    (linkPermissions? link).map Datum.toJson :=
  (link.find?_write Kind.sharedLink.members_distinct linkPermissionsPlace).trans
    (Slot.write_optional _)

/-- Each setting of a shared link is written as it is sent. -/
theorem find?_linkSetting {name : String} {value : Option Json}
    (setting : (name, value) ∈ linkSettings link) :
    Members.find? name (link.write Members.sorted) = value := by
  -- There are three settings, each under a name of its own.
  simp only [linkSettings, List.mem_cons, Prod.mk.injEq, List.not_mem_nil, or_false] at setting
  rcases setting with ⟨rfl, rfl⟩ | ⟨rfl, rfl⟩ | ⟨rfl, rfl⟩
  · exact find?_linkAccess link
  · exact find?_linkExpiry link
  · exact find?_linkPermissions link

/-- A shared link as it is written says already what it is sent as. -/
theorem overlay_linkRequest :
    (Datum.record link).toJson.overlay (linkRequest link) = (Datum.record link).toJson := by
  have names : ((linkSettings link).map Prod.fst).Nodup := by
    show List.Nodup ["access", "unshared_at", "permissions"]
    decide
  obtain ⟨present, sent, ascending, found⟩ := Json.ofPresent_eq names
  have distinct : (link.write Members.sorted).Distinct :=
    link.distinct_write Kind.sharedLink.members_distinct
  have tidy := link.tidy_write fun m member => Kind.isTyped_members (k := .sharedLink) rfl member
  rw [linkRequest, sent, Datum.toJson, Datum.write, Json.overlay_object]
  -- Each name is looked up on both sides, as a setting or as another member.
  refine congrArg Json.object (Members.Ascending.ext
    (Members.ascending_overlay (Members.ascending_sorted _) _) (Members.ascending_sorted _) ?_)
  intro name
  rw [Members.find?_overlay name _ ascending.distinct, found]
  cases listed : (linkSettings link).lookup name with
  | none => exact Json.overlaid_of_untouched _ rfl
  | some value =>
    obtain ⟨before, behind, whole, -⟩ := List.lookup_eq_some_iff.mp listed
    have setting : (name, value) ∈ linkSettings link := by simp [whole]
    rw [Option.join_some, ← find?_linkSetting link setting, Members.find?_sorted name distinct]
    exact Members.overlaid_find?_self _ (Json.TidyMembers.ordered _ tidy) name

end Link

namespace Edit

/-- A change is queued under the name of the member that it sets. -/
theorem key_eq_name (e : Edit r) : e.key = e.member.name := by
  cases e <;> rfl

/-- What a snapshot holds after a change already says what is queued for it. -/
theorem overlaid_wire (e : Edit r) :
    Json.overlaid (e.slot.write Members.sorted) (some e.wire) = e.slot.write Members.sorted := by
  have same : ∀ text : String,
      Json.overlaid (some (.text text)) (some (.text text)) = some (.text text) := by
    intro text
    rw [Json.overlaid_some, Json.overlay_self (.text text) trivial]
  -- A text for the queue is that of the member; of a word this takes comparing the two tables.
  have word : ∀ {v : Vocabulary} [v.IsRequested] (w : Word v),
      Json.overlaid (some (.text w.text)) (some (.text w.requestText)) = some (.text w.text) := by
    intro v _ w
    rw [w.requestText_eq_text, same]
  cases e with
  | fileLink link => exact congrArg some (overlay_linkRequest link)
  | policyDisposition w => exact word w
  | policyStatus w => exact word w
  | taskAction w => exact word w
  | assignmentResolution w => exact word w
  | taskDue due => exact same due.format
  | fileName text | fileDescription text | folderName text | folderDescription text
  | holdName text | holdDescription text | holdReleaseNotes text | policyName text
  | taskMessage text | assignmentMessage text => exact same text

end Edit

namespace Snapshot

/-- After a change its member is what the change makes of it, and each other one is as before. -/
theorem find?_members_edit (s : Snapshot r) (e : Edit r) (name : String) :
    Members.find? name (s.edit e).members =
      if e.member.name = name then e.slot.write Members.sorted
      else Members.find? name s.members := by
  by_cases known : name ∈ r.kind.members.map Member.name
  · obtain ⟨m, inside, rfl⟩ := List.mem_map.mp known
    obtain ⟨p⟩ := Place.exists_of_mem inside
    rw [find?_members (s.edit e) p, find?_members s p]
    show ((s.fields.set e.place e.slot).get p).write Members.sorted = _
    by_cases same : e.member.name = m.name
    · -- The name has one place only.
      cases place_unique r.kind.members_distinct e.place p same.symm
      rw [if_pos rfl, Fields.get_set]
    · rw [if_neg same, Fields.get_set_of_name_ne e.place p (Ne.symm same)]
  · have differs : e.member.name ≠ name := fun same =>
      known (same ▸ List.mem_map_of_mem e.place.mem)
    rw [if_neg differs, find?_members_foreign _ known, find?_members_foreign s known]

/-- The snapshots that are reached from a new one or one that was read, by changes, by overlays that
succeed or fail and by sending, together with the changes since the last success, latest first. -/
inductive Reached : Snapshot r → List (Edit r) → Prop where
  | blank : Reached (blank r) []
  | ofJson {value : Json} {s : Snapshot r} (read : ofJson r value = .ok s) : Reached s []
  | ofText {text : String} {s : Snapshot r} (read : ofText r text = .ok s) : Reached s []
  | edit {s : Snapshot r} {edits : List (Edit r)} (before : Reached s edits) (e : Edit r) :
    Reached (s.edit e) (e :: edits)
  | clear {s : Snapshot r} {edits : List (Edit r)} (before : Reached s edits) :
    Reached s.clearPending []
  | updated {σ : Type} {s next : Snapshot r} {edits : List (Edit r)} {answer : Json}
    {world later : σ} (before : Reached s edits)
    (ran : (Session.merge answer).run.run (s, world) = (.ok (), next, later)) : Reached next []
  | notUpdated {σ : Type} {s next : Snapshot r} {edits : List (Edit r)} {answer : Json}
    {world later : σ} {failure : Failure} (before : Reached s edits)
    (ran : (Session.merge answer).run.run (s, world) = (.error failure, next, later)) :
    Reached next edits
  | sent {σ : Type} {s next : Snapshot r} {edits : List (Edit r)} {h : Handle r}
    {transport : Transport σ} {world later : σ} {editable : r.isEditable = true}
    (before : Reached s edits)
    (ran : h.sendChanges s transport world editable = (.ok (), next, later)) : Reached next []
  | notSent {σ : Type} {s next : Snapshot r} {edits : List (Edit r)} {h : Handle r}
    {transport : Transport σ} {world later : σ} {editable : r.isEditable = true}
    {failure : Failure} (before : Reached s edits)
    (ran : h.sendChanges s transport world editable = (.error failure, next, later)) :
    Reached next edits

/-- Whether the changes of a snapshot are the latest of some changes for each member, and say what
the snapshot says. -/
structure Describes (s : Snapshot r) (edits : List (Edit r)) : Prop where
  ascending : s.pending.Ascending
  latest : ∀ name, Members.find? name s.pending =
    (edits.find? (·.member.name == name)).map Edit.wire
  agrees : ∀ name, Json.overlaid (Members.find? name s.members) (Members.find? name s.pending) =
    Members.find? name s.members

/-- Without changes there is nothing to describe. -/
theorem describes_of_pending {s : Snapshot r} (none : s.pending = []) : s.Describes [] := by
  refine ⟨?_, fun name => ?_, fun name => ?_⟩
  · -- There is no change to be found under any name, and nothing is laid over.
    rw [none]
    exact List.Pairwise.nil
  · rw [none]
    rfl
  · rw [none]
    exact Json.overlaid_of_untouched _ rfl

/-- A change is described like those before it. -/
theorem Describes.edit {s : Snapshot r} {edits : List (Edit r)} (describes : s.Describes edits)
    (e : Edit r) : (s.edit e).Describes (e :: edits) := by
  have queued : (s.edit e).pending = Members.insert e.member.name e.wire s.pending := by
    rw [← e.key_eq_name]
    rfl
  refine ⟨?_, fun name => ?_, fun name => ?_⟩
  · rw [queued]
    exact Members.ascending_insert _ _ describes.ascending
  · rw [queued, Members.find?_insert, List.find?_cons]
    by_cases same : e.member.name = name
    · simp [same]
    · simp [same, beq_false_of_ne same, describes.latest name]
  · rw [queued, Members.find?_insert, find?_members_edit]
    -- The member that is changed agrees with what is queued for it, and others are as before.
    by_cases same : e.member.name = name
    · rw [if_pos same, if_pos same, e.overlaid_wire]
    · rw [if_neg same, if_neg same, describes.agrees name]

/-- A document that is a snapshot has no changes. -/
theorem pending_ofDatum : (d : Datum (.record r.kind)) → (ofDatum d).pending = []
  | .record _ => rfl

section

variable {σ : Type} {s next : Snapshot r} {world later : σ}

/-- A snapshot has no changes left once an answer was laid over it. -/
theorem pending_of_merge {answer : Json}
    (ran : (Session.merge answer).run.run (s, world) = (.ok (), next, later)) :
    next.pending = [] := by
  -- Merging reads the overlay, and a snapshot that was read has no changes.
  rw [Session.run_merge] at ran
  split at ran
  · rename_i merged
    cases ran
    exact pending_of_update (mapError_ok_iff.mp merged)
  · cases ran

/-- An answer that cannot be laid over a snapshot leaves it alone. -/
theorem eq_of_merge_error {answer : Json} {failure : Failure}
    (ran : (Session.merge answer).run.run (s, world) = (.error failure, next, later)) :
    next = s := by
  -- Only the one of the two ends fails, and it keeps the snapshot.
  rw [Session.run_merge] at ran
  split at ran
  · cases ran
  · cases ran
    rfl

variable {h : Handle r} {transport : Transport σ} {editable : r.isEditable = true}

/-- A snapshot has no changes left once they were sent. -/
theorem pending_of_sendChanges
    (ran : h.sendChanges s transport world editable = (.ok (), next, later)) :
    next.pending = [] := by
  -- Changes without an address are not sent, and with one their answer decides.
  cases address : h.changeUrl editable with
  | error failure =>
    rw [h.sendChanges_error address] at ran
    cases ran
  | ok url =>
    rw [h.sendChanges_ok address] at ran
    simp only [Prod.mk.injEq] at ran
    obtain ⟨ended, left, -⟩ := ran
    cases accepted : s.afterAnswer (transport.exchange (h.changeRequest url s) world).1 with
    | error failure =>
      rw [accepted] at ended
      cases ended
    | ok merged =>
      rw [accepted] at left
      cases left
      exact pending_of_afterAnswer accepted

/-- Changes that could not be sent leave the snapshot alone. -/
theorem eq_of_sendChanges_error {failure : Failure}
    (ran : h.sendChanges s transport world editable = (.error failure, next, later)) :
    next = s := by
  -- Whether there is an address or not, what fails keeps the snapshot.
  cases address : h.changeUrl editable with
  | error failure =>
    rw [h.sendChanges_error address] at ran
    cases ran
    rfl
  | ok url =>
    rw [h.sendChanges_ok address] at ran
    simp only [Prod.mk.injEq] at ran
    obtain ⟨ended, left, -⟩ := ran
    cases refused : s.afterAnswer (transport.exchange (h.changeRequest url s) world).1 with
    | error failure =>
      rw [refused] at left
      exact left.symm
    | ok merged =>
      rw [refused] at ended
      cases ended

end

/-- Whatever becomes of a snapshot, its changes are described. -/
theorem Reached.describes {s : Snapshot r} {edits : List (Edit r)} (reached : s.Reached edits) :
    s.Describes edits := by
  -- Each step adds a change, leaves the snapshot as it is, or leaves no changes behind.
  induction reached with
  | blank => exact describes_of_pending rfl
  | ofJson read | ofText read =>
    obtain ⟨datum, -, rfl⟩ := map_ok_iff.mp read
    exact describes_of_pending (pending_ofDatum datum)
  | edit before e ih => exact ih.edit e
  | clear before ih => exact describes_of_pending rfl
  | updated before ran ih => exact describes_of_pending (pending_of_merge ran)
  | notUpdated before ran ih => exact eq_of_merge_error ran ▸ ih
  | sent before ran ih => exact describes_of_pending (pending_of_sendChanges ran)
  | notSent before ran ih => exact eq_of_sendChanges_error ran ▸ ih

/-- Laying the changes of a snapshot over what it is sent as changes nothing. -/
theorem Describes.overlay_pending {s : Snapshot r} {edits : List (Edit r)}
    (describes : s.Describes edits) : s.toJson.overlay (.object s.pending) = s.toJson := by
  -- Both documents are in order, so that they are the same if they are under each name.
  have ordered : s.members.Ascending := Members.ascending_sorted _
  rw [toJson_eq, Json.overlay_object]
  refine congrArg Json.object ((Members.ascending_overlay ordered s.pending).ext ordered ?_)
  intro name
  rw [Members.find?_overlay name s.members describes.ascending.distinct, describes.agrees name]

/-- The changes of a snapshot are at all times the latest since it was last cleared, sent or
updated, one for each member, under the name of the member and as they are sent; and they say
nothing that the snapshot, which is written in another way, does not say. -/
theorem Reached.pendingChanges_describe {s : Snapshot r} {edits : List (Edit r)}
    (reached : s.Reached edits) :
    (edits = [] → s.pendingChanges = none) ∧
    (edits ≠ [] → ∃ changes : Members, s.pendingChanges = some (.object changes) ∧
      changes.Ascending ∧
      (∀ name, Members.find? name changes =
        (edits.find? (·.member.name == name)).map Edit.wire) ∧
      s.toJson.overlay (.object changes) = s.toJson) := by
  have describes := reached.describes
  constructor
  · rintro rfl
    -- No name is found among the changes, so there are none.
    have empty : s.pending = [] := describes.ascending.ext List.Pairwise.nil describes.latest
    rw [pendingChanges, empty]
    rfl
  · intro some
    obtain ⟨latest, earlier, rfl⟩ := List.exists_cons_of_ne_nil some
    refine ⟨s.pending, ?_, describes.ascending, describes.latest, describes.overlay_pending⟩
    have found := describes.latest latest.member.name
    cases queued : s.pending with
    | nil => simp [queued] at found
    | cons first rest =>
      rw [pendingChanges, queued]
      rfl

/-- A link that the people of a company may open. -/
def companyLink : Record .sharedLink :=
  (Fields.blank _).set linkAccessPlace (.given (.leaf (l := .word _) .company))

/-- A file is named, an answer is no document of a file, and then a link and another name are set.
-/
theorem pendingChanges_sharedFile : ∃ (s : Snapshot .file) (changes : Members),
    s.Reached [.fileName "final", .fileLink companyLink, .fileName "draft"] ∧
    s.pendingChanges = some (.object changes) ∧
    changes = [("name", .text "final"),
      ("shared_link", .object [("access", .text "company")])] ∧
    s.toJson.overlay (.object changes) = s.toJson := by
  -- The first name is set before the answer that is refused, and survives it.
  let named := (Snapshot.blank .file).edit (.fileName "draft")
  have refused : (Session.merge (.text "no file")).run.run (named, ()) =
      (.error (.document (.mismatch (.kind (.text "no file") "struct FileInfo"))), named, ()) := rfl
  have reached := ((Reached.notUpdated (Reached.blank.edit (.fileName "draft")) refused).edit
    (.fileLink companyLink)).edit (.fileName "final")
  obtain ⟨changes, pending, -, -, overlay⟩ :=
    reached.pendingChanges_describe.2 (List.cons_ne_nil _ _)
  have queued : (((named.edit (.fileLink companyLink)).edit (.fileName "final")).pendingChanges) =
      some (.object [("name", .text "final"),
        ("shared_link", .object [("access", .text "company")])]) := by cbv
  have same := Json.object.inj (Option.some.inj (pending.symm.trans queued))
  exact ⟨_, changes, reached, pending, same, overlay⟩

end Snapshot

end ContentApi
