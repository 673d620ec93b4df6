import ContentApi.Operation.Objects
import ContentApi.Proofs.Http.Trace
import ContentApi.Proofs.Results
import Mathlib

/-! The changes of a snapshot are sent as they are until they are accepted, and kept until then. -/

namespace ContentApi

variable {r : Resource} {σ : Type}

namespace Snapshot

variable {s next : Snapshot r}

/-- Changes are sent as one object, which is empty if there are none. -/
theorem pendingChanges_getD (s : Snapshot r) :
    s.pendingChanges.getD (.object []) = .object s.pending := by
  -- Nothing queued is sent as no object, and the default is the empty one.
  rw [pendingChanges]
  cases s.pending <;> rfl

/-- A snapshot has no changes left once an answer is overlaid. -/
theorem pending_of_update {answer : Json} (updated : s.update answer = .ok next) :
    next.pending = [] := by
  rw [update, ofJson] at updated
  -- A snapshot is made from a document, with no changes of its own.
  cases read : Datum.ofJson (.record r.kind) (s.toJson.overlay answer) with
  | error fault =>
    rw [read] at updated
    cases updated
  | ok datum =>
    rw [read] at updated
    cases updated
    cases datum
    rfl

/-- What becomes of a snapshot by the answer to its changes. -/
def afterAnswer (s : Snapshot r) : Option Response → Except Failure (Snapshot r)
  | none => .error .transport
  | some response =>
    if response.isSuccess then
      response.json.bind fun answer => (s.update answer).mapError .document
    else .error (.api (.ofResponse response))

/-- Changes are accepted only by an answer that can be read and overlaid. -/
theorem exists_update_of_afterAnswer {answer : Option Response}
    (accepted : s.afterAnswer answer = .ok next) :
    ∃ response value, answer = some response ∧ response.json = .ok value ∧
      s.update value = .ok next := by
  -- Without an answer of success nothing is accepted, and with one it is read and laid over.
  cases answer with
  | none => cases accepted
  | some response =>
    rw [afterAnswer.eq_def] at accepted
    by_cases success : response.isSuccess = true
    · simp only [if_pos success] at accepted
      obtain ⟨value, read, merged⟩ := bind_ok_iff.mp accepted
      exact ⟨response, value, rfl, read, mapError_ok_iff.mp merged⟩
    · simp only [if_neg success] at accepted
      cases accepted

/-- A snapshot has no changes left once they are answered as they should be. -/
theorem pending_of_afterAnswer {answer : Option Response}
    (accepted : s.afterAnswer answer = .ok next) : next.pending = [] := by
  -- An accepted answer updates the snapshot, which drops the changes.
  obtain ⟨_, _, -, -, updated⟩ := exists_update_of_afterAnswer accepted
  exact pending_of_update updated

end Snapshot

/-- A program that works on a snapshot and in a world, which it leaves as they are at the moment it
fails. -/
abbrev Session (r : Resource) (σ : Type) := ExceptT Failure (StateM (Snapshot r × σ))

namespace Session

/-- Sends a request and gives its answer. -/
def exchange (transport : Transport σ) (request : Request) : Session r σ (Option Response) := do
  let (s, world) ← get
  let answered := transport.exchange request world
  set (s, answered.2)
  return answered.1

/-- Overlays an answer on the snapshot. -/
def merge (answer : Json) : Session r σ Unit := do
  let (s, _) ← get
  let next ← MonadExcept.ofExcept ((Snapshot.ofJson r (s.toJson.overlay answer)).mapError .document)
  modify fun (_, world) => (next, world)

/-- A program goes on from where its first part ends, unless that fails. -/
theorem run_bind {α β : Type} (first : Session r σ α) (next : α → Session r σ β)
    (state : Snapshot r × σ) :
    (first >>= next).run.run state =
      match first.run.run state with
      | (.ok value, later) => (next value).run.run later
      | (.error failure, later) => (.error failure, later) := by
  -- A program that fails keeps the state in which it did.
  rw [ExceptT.run_bind, StateT.run_bind]
  rcases first.run.run state with ⟨failure | value, later⟩ <;> rfl

/-- A result is had without a change to the snapshot or the world. -/
theorem run_ofExcept {α : Type} (result : Except Failure α) (state : Snapshot r × σ) :
    (MonadExcept.ofExcept result : Session r σ α).run.run state = (result, state) := by
  cases result <;> rfl

/-- Asking for an answer changes the world and not the snapshot. -/
theorem run_exchange (transport : Transport σ) (request : Request) (s : Snapshot r) (world : σ) :
    (exchange transport request).run.run (s, world) =
      (.ok (transport.exchange request world).1, s, (transport.exchange request world).2) := rfl

/-- An overlay changes the snapshot only if the whole can be read. -/
theorem run_merge (answer : Json) (s : Snapshot r) (world : σ) :
    (merge answer).run.run (s, world) =
      match (s.update answer).mapError Failure.document with
      | .ok next => (.ok (), next, world)
      | .error failure => (.error failure, s, world) := by
  rw [Snapshot.update]
  -- The snapshot is looked up first, then the result is had, and only then it is set.
  rw [merge, run_bind]
  show (bind _ _ : Session r σ Unit).run.run (s, world) = _
  rw [run_bind, run_ofExcept]
  cases (Snapshot.ofJson r (s.toJson.overlay answer)).mapError Failure.document <;> rfl

end Session

namespace Handle

/-- The address to which the changes of an object are sent. -/
def changeUrl (h : Handle r) (editable : r.isEditable = true) : Except Failure Url :=
  h.url (r.route (Resource.ne_fileVersion_of_isEditable editable)) Query.empty

/-- The request that sends the changes of a snapshot. -/
def changeRequest (h : Handle r) (url : Url) (s : Snapshot r) : Request :=
  h.connection.request .put url (.json (s.pendingChanges.getD (.object [])))

/-- Sends the changes of the snapshot of a session, one step after another. The snapshot is set only
in the last one. -/
def sendingChanges (h : Handle r) (transport : Transport σ) (editable : r.isEditable = true) :
    Session r σ Unit := do
  let url ← MonadExcept.ofExcept (h.changeUrl editable)
  let (s, _) ← get
  match ← Session.exchange transport (h.changeRequest url s) with
  | none => throw .transport
  | some response =>
    if response.isSuccess then
      let answer ← MonadExcept.ofExcept response.json
      Session.merge answer
    else throw (.api (.ofResponse response))

/-- Changes that have an address are answered, and the answer decides about the snapshot. -/
theorem update_run {h : Handle r} {editable : r.isEditable = true} {url : Url}
    (address : h.changeUrl editable = .ok url) (s : Snapshot r) (transport : Transport σ)
    (world : σ) :
    (h.update s editable).run transport world =
      let answered := transport.exchange (h.changeRequest url s) world
      (s.afterAnswer answered.1, answered.2) := by
  -- The address is had without the transport, which then gives one answer.
  rw [changeUrl] at address
  rw [update, address]
  show Prod.mk (Call.outcome _ (transport.exchange (h.changeRequest url s) world).1)
      (transport.exchange (h.changeRequest url s) world).2 = _
  generalize transport.exchange (h.changeRequest url s) world = answered
  obtain ⟨answer, after⟩ := answered
  cases answer <;> rfl

/-- A snapshot gives way to what an answer makes of it, unless that fails. -/
theorem sendChanges_ok {h : Handle r} {editable : r.isEditable = true} {url : Url}
    (address : h.changeUrl editable = .ok url) (s : Snapshot r) (transport : Transport σ)
    (world : σ) :
    h.sendChanges s transport world editable =
      let answered := transport.exchange (h.changeRequest url s) world
      let outcome := s.afterAnswer answered.1
      (outcome.map fun _ => (), outcome.toOption.getD s, answered.2) := by
  rw [sendChanges, update_run address]
  simp only
  -- If the answer fails, the snapshot that is left is the one from before.
  cases s.afterAnswer (transport.exchange (h.changeRequest url s) world).1 <;> rfl

/-- Changes without an address are not sent. -/
theorem sendChanges_error {h : Handle r} {editable : r.isEditable = true} {failure : Failure}
    (address : h.changeUrl editable = .error failure) (s : Snapshot r) (transport : Transport σ)
    (world : σ) :
    h.sendChanges s transport world editable = (.error failure, s, world) := by
  -- The address is looked for before anything else.
  rw [changeUrl] at address
  rw [sendChanges, update, address]
  rfl

/-- Changes are sent step by step. -/
theorem run_sendingChanges (h : Handle r) (transport : Transport σ) (editable : r.isEditable = true)
    (s : Snapshot r) (world : σ) :
    (h.sendingChanges transport editable).run.run (s, world) =
      h.sendChanges s transport world editable := by
  -- The steps are taken in their order: address, snapshot, exchange, status, text and overlay.
  rw [sendingChanges, Session.run_bind, Session.run_ofExcept]
  cases address : h.changeUrl editable with
  | error failure => exact (sendChanges_error address s transport world).symm
  | ok url =>
    rw [sendChanges_ok address]
    show (bind _ _ : Session r σ Unit).run.run (s, world) = _
    rw [Session.run_bind]
    show (bind _ _ : Session r σ Unit).run.run (s, world) = _
    rw [Session.run_bind, Session.run_exchange]
    generalize transport.exchange (h.changeRequest url s) world = answered
    obtain ⟨answer, after⟩ := answered
    cases answer with
    | none => rfl
    | some response =>
      by_cases success : response.isSuccess = true
      · simp only [Snapshot.afterAnswer, if_pos success]
        rw [Session.run_bind, Session.run_ofExcept]
        cases response.json with
        | error failure => rfl
        | ok answer =>
          -- The overlay is the last step, and the only one that may set the snapshot.
          show (Session.merge answer).run.run (s, after) =
            (((s.update answer).mapError Failure.document).map _,
              ((s.update answer).mapError Failure.document).toOption.getD s, after)
          rw [Session.run_merge]
          cases (s.update answer).mapError Failure.document <;> rfl
      · simp only [Snapshot.afterAnswer, if_neg success]
        rfl

end Handle

/-- What is left after some changes were sent: how it ended each time, the snapshot and the world.
-/
structure Calls (r : Resource) (σ : Type) where
  /-- How each of the calls ended. -/
  outcomes : List (Except Failure Unit)
  /-- The snapshot after them. -/
  snapshot : Snapshot r
  /-- The world after them. -/
  world : σ

namespace Calls

/-- Sends the changes of the snapshot once more. -/
def send (editable : r.isEditable = true) (transport : Transport σ) (calls : Calls r σ)
    (h : Handle r) : Calls r σ :=
  let ended := h.sendChanges calls.snapshot transport calls.world editable
  ⟨calls.outcomes ++ [ended.1], ended.2.1, ended.2.2⟩

/-- Sends the changes of the snapshot by one handle after another. -/
def sendEach (editable : r.isEditable = true) (transport : Transport σ) (calls : Calls r σ)
    (handles : List (Handle r)) : Calls r σ :=
  handles.foldl (send editable transport) calls

variable {editable : r.isEditable = true} {transport : Transport σ}

/-- One more call comes last. -/
theorem sendEach_append_singleton (calls : Calls r σ) (handles : List (Handle r)) (h : Handle r) :
    calls.sendEach editable transport (handles ++ [h]) =
      (calls.sendEach editable transport handles).send editable transport h := by
  rw [sendEach, List.foldl_append]
  rfl

/-- Whether all requests of a record were to send the same changes, and the snapshot still has them,
as long as no call went well. -/
def Keeps (s : Snapshot r) (calls : Calls r (σ × List Exchange)) : Prop :=
  .ok () ∉ calls.outcomes → calls.snapshot = s ∧
    ∀ exchange ∈ calls.world.2, exchange.request.body = .json (.object s.pending)

section

variable (transport) (calls : Calls r (σ × List Exchange)) {h : Handle r}

/-- A call without an address for the changes adds its failure only. -/
theorem send_error {failure : Failure} (address : h.changeUrl editable = .error failure) :
    calls.send editable transport.traced h =
      ⟨calls.outcomes ++ [.error failure], calls.snapshot, calls.world⟩ := by
  rw [send, h.sendChanges_error address]

/-- A call with an address for the changes adds one exchange, the answer of which decides. -/
theorem send_ok {url : Url} (address : h.changeUrl editable = .ok url) :
    calls.send editable transport.traced h =
      let answered := transport.exchange (h.changeRequest url calls.snapshot) calls.world.1
      let outcome := calls.snapshot.afterAnswer answered.1
      ⟨calls.outcomes ++ [outcome.map fun _ => ()], outcome.toOption.getD calls.snapshot,
        answered.2, calls.world.2 ++ [⟨h.changeRequest url calls.snapshot, answered.1⟩]⟩ := by
  -- The snapshot is replaced only if the answer was laid over it.
  rw [send, h.sendChanges_ok address]
  rfl

end

/-- One more call keeps what was there to send, unless it goes well. -/
theorem Keeps.send {s : Snapshot r} {calls : Calls r (σ × List Exchange)} (keeps : calls.Keeps s)
    (h : Handle r) : (calls.send editable transport.traced h).Keeps s := by
  intro failed
  cases address : h.changeUrl editable with
  | error failure =>
    rw [send_error transport calls address] at failed ⊢
    exact keeps fun earlier => failed (List.mem_append_left _ earlier)
  | ok url =>
    rw [send_ok transport calls address] at failed ⊢
    generalize transport.exchange (h.changeRequest url calls.snapshot) calls.world.1 = answered
      at failed ⊢
    -- No call before went well either, so there is still the same to send.
    obtain ⟨kept, bodies⟩ := keeps fun earlier => failed (List.mem_append_left _ earlier)
    simp only at failed ⊢
    cases outcome : calls.snapshot.afterAnswer answered.1 with
    | ok next =>
      rw [outcome] at failed
      exact absurd (List.mem_append_right _ List.mem_cons_self) failed
    | error failure =>
      refine ⟨kept, fun exchange member => ?_⟩
      -- The request of this call sends what is kept, as those before did.
      rcases List.mem_append.mp member with earlier | last
      · exact bodies exchange earlier
      · rw [List.mem_singleton.mp last]
        show RequestBody.json (calls.snapshot.pendingChanges.getD (.object [])) = _
        rw [calls.snapshot.pendingChanges_getD, kept]

/-- Calls keep what was there to send until one of them goes well. -/
theorem Keeps.sendEach {s : Snapshot r} {calls : Calls r (σ × List Exchange)}
    (keeps : calls.Keeps s) (handles : List (Handle r)) :
    (calls.sendEach editable transport.traced handles).Keeps s := by
  -- Each call is one step, which keeps what the calls before it have kept.
  induction handles generalizing calls with
  | nil => exact keeps
  | cons h rest ih => exact ih (keeps.send h)

variable (transport) in
/-- A call sends the changes in one request, unless it has no address for them. If it fails, nothing
is lost, and if it goes well, no changes are left and the snapshot is what this call alone makes of
it. -/
theorem send_transacts (calls : Calls r (σ × List Exchange)) (h : Handle r) :
    let after := calls.send editable transport.traced h
    ∃ sent outcome, after.outcomes = calls.outcomes ++ [outcome] ∧
      after.world.2 = calls.world.2 ++ sent ∧
      ((∃ failure, h.changeUrl editable = .error failure ∧ outcome = .error failure ∧ sent = []) ∨
        ∃ url answer, h.changeUrl editable = .ok url ∧ sent = [⟨h.connection.request .put url
          (.json (.object calls.snapshot.pending)), answer⟩]) ∧
      (outcome ≠ .ok () → after.snapshot = calls.snapshot) ∧
      (outcome = .ok () → after.snapshot.pending = [] ∧
        ∃ exchange ∈ sent, ∀ (τ : Type) (other : Transport τ) (alone : τ),
          (other.exchange exchange.request alone).1 = exchange.answer →
          h.sendChanges calls.snapshot other alone editable =
            (.ok (), after.snapshot, (other.exchange exchange.request alone).2)) := by
  intro after
  cases address : h.changeUrl editable with
  | error failure =>
    have same := send_error transport calls address
    have record : after.world.2 = calls.world.2 := congrArg (fun calls => calls.world.2) same
    have snapshot := congrArg Calls.snapshot same
    -- Without an address there is no exchange, and nothing changes but the outcomes.
    exact ⟨[], .error failure, congrArg Calls.outcomes same, by rw [record, List.append_nil],
      Or.inl ⟨failure, rfl, rfl, rfl⟩, fun _ => snapshot, nofun⟩
  | ok url =>
    have same := send_ok transport calls address
    -- The answer is arbitrary, and so is what the transport makes of the world.
    generalize transport.exchange (h.changeRequest url calls.snapshot) calls.world.1 = answered
      at same
    obtain ⟨answer, later⟩ := answered
    have request : h.changeRequest url calls.snapshot =
        h.connection.request .put url (.json (.object calls.snapshot.pending)) := by
      rw [Handle.changeRequest, Snapshot.pendingChanges_getD]
    refine ⟨[⟨h.changeRequest url calls.snapshot, answer⟩], _, congrArg Calls.outcomes same,
      congrArg (fun calls => calls.world.2) same,
      Or.inr ⟨url, answer, rfl, by rw [request]⟩, ?_⟩
    have snapshot : after.snapshot =
        (calls.snapshot.afterAnswer answer).toOption.getD calls.snapshot :=
      congrArg Calls.snapshot same
    cases outcome : calls.snapshot.afterAnswer answer with
    | error failure =>
      rw [outcome] at snapshot
      exact ⟨fun _ => snapshot, nofun⟩
    | ok next =>
      rw [outcome] at snapshot
      refine ⟨fun failed => absurd rfl failed, fun _ => ⟨?_, _, List.mem_singleton_self _, ?_⟩⟩
      · rw [snapshot]
        exact Snapshot.pending_of_afterAnswer outcome
      · -- The answer alone decides about the snapshot, whatever else the world is.
        intro τ other alone answered
        rw [h.sendChanges_ok address, snapshot]
        simp only [answered, outcome]
        rfl

/-- The changes of a snapshot are sent in one request, each time as they are at that moment. However
a call fails, nothing is lost; if it goes well, no changes are left. So calls that fail before one
that goes well all send the same changes, and the snapshot comes to be what it would have come to be
by the last call alone. A call is done in steps, of which only the last one sets the snapshot. -/
theorem sendEach_transactional (editable : r.isEditable = true) (s : Snapshot r)
    (transport : Transport σ) (world : σ) (front : List (Handle r)) (h : Handle r) :
    let start : Calls r (σ × List Exchange) := ⟨[], s, world, []⟩
    let before := start.sendEach editable transport.traced front
    let after := start.sendEach editable transport.traced (front ++ [h])
    ∃ sent outcome, after.outcomes = before.outcomes ++ [outcome] ∧
      after.world.2 = before.world.2 ++ sent ∧
      ((∃ failure, h.changeUrl editable = .error failure ∧ outcome = .error failure ∧ sent = []) ∨
        ∃ url answer, h.changeUrl editable = .ok url ∧ sent = [⟨h.connection.request .put url
          (.json (.object before.snapshot.pending)), answer⟩]) ∧
      (outcome ≠ .ok () → after.snapshot = before.snapshot) ∧
      (outcome = .ok () → after.snapshot.pending = []) ∧
      (outcome = .ok () → .ok () ∉ before.outcomes →
        (∀ exchange ∈ after.world.2, exchange.request.body = .json (.object s.pending)) ∧
        ∃ exchange ∈ sent, ∀ (τ : Type) (other : Transport τ) (alone : τ),
          (other.exchange exchange.request alone).1 = exchange.answer →
          h.sendChanges s other alone editable =
            (.ok (), after.snapshot, (other.exchange exchange.request alone).2)) ∧
      (h.sendingChanges transport.traced editable).run.run (before.snapshot, before.world) =
        (outcome, after.snapshot, after.world) := by
  intro start before after
  have last : after = before.send editable transport.traced h := sendEach_append_singleton ..
  have keeps : before.Keeps s :=
    Keeps.sendEach (fun _ => ⟨rfl, fun _ none => absurd none List.not_mem_nil⟩) front
  -- The last call acts on whatever the calls before it have left.
  obtain ⟨sent, outcome, outcomes, record, request, failed, succeeded⟩ :=
    send_transacts transport before h
  rw [← last] at outcomes record failed succeeded
  refine ⟨sent, outcome, outcomes, record, request, failed, fun ok => (succeeded ok).1, ?_, ?_⟩
  · intro ok onlyFailures
    -- As all calls before failed, the changes are those of the start.
    obtain ⟨kept, bodies⟩ := keeps onlyFailures
    refine ⟨fun exchange member => ?_, kept ▸ (succeeded ok).2⟩
    rw [record] at member
    rcases List.mem_append.mp member with earlier | isLast
    · exact bodies exchange earlier
    · rcases request with ⟨-, -, -, none⟩ | ⟨url, answer, -, one⟩
      · rw [none] at isLast
        cases isLast
      · rw [one] at isLast
        rw [List.mem_singleton.mp isLast, ← kept]
        rfl
  · -- The outcome of the last call is the last one of those recorded.
    have ended : (h.sendChanges before.snapshot transport.traced before.world editable).1 =
        outcome := by
      have lists := (congrArg Calls.outcomes last).symm.trans outcomes
      exact List.singleton_inj.mp (List.append_cancel_left lists)
    rw [h.run_sendingChanges, last]
    exact Prod.ext ended rfl

/-- A transport that gives the answers of a list in their order, and none after them. -/
def answering : Transport (List (Option Response)) where
  exchange _ answers := (answers.head?.join, answers.tail)

/-- A file behind a connection. -/
def someFile : Handle .file :=
  ⟨⟨root, root, "", "", 60⟩, "7"⟩
where
  root : Url := ⟨"https".toList, none, .segments [[]], none, none⟩

/-- A file that has got another name. -/
def renamedFile : Snapshot .file :=
  (Snapshot.blank .file).edit (.fileName "final")

/-- The new name of a file is sent three times, of which only the last time is a good one. -/
theorem sendEach_renamedFile :
    let start : Calls .file _ := ⟨[], renamedFile, [none, some ⟨500, []⟩, some ⟨204, []⟩], []⟩
    let after := start.sendEach rfl answering.traced [someFile, someFile, someFile]
    after.snapshot.pending = [] ∧ after.world.2.length = 3 ∧
      ∀ exchange ∈ after.world.2,
        exchange.request.body = .json (.object [("name", .text "final")]) := by
  intro start after
  obtain ⟨url, address⟩ : ∃ url, someFile.changeUrl rfl = .ok url := ⟨_, by cbv⟩
  let first : Exchange := ⟨someFile.changeRequest url renamedFile, none⟩
  let second : Exchange := ⟨someFile.changeRequest url renamedFile, some ⟨500, []⟩⟩
  -- No answer comes to the first call, and a refusal to the second.
  have failed : start.sendEach rfl answering.traced [someFile, someFile] =
      ⟨[.error .transport, .error (.api (.ofResponse ⟨500, []⟩))], renamedFile,
        [some ⟨204, []⟩], [first, second]⟩ := by
    show (start.send rfl answering.traced someFile).send rfl answering.traced someFile = _
    rw [send_ok _ start address, send_ok _ _ address]
    rfl
  have accepted : (renamedFile.afterAnswer (some ⟨204, []⟩)).map (fun _ => ()) = .ok () := rfl
  obtain ⟨sent, outcome, outcomes, -, -, -, ok, same, -⟩ := sendEach_transactional rfl renamedFile
    answering [none, some ⟨500, []⟩, some ⟨204, []⟩] [someFile, someFile] someFile
  have last : after = (start.sendEach rfl answering.traced [someFile, someFile]).send rfl
    answering.traced someFile := sendEach_append_singleton start [someFile, someFile] someFile
  rw [failed, send_ok _ _ address] at last
  -- The third answer has no text, which counts as null, so that nothing is overlaid.
  have well : outcome = .ok () := by
    have lists := (congrArg Calls.outcomes last).symm.trans outcomes
    rw [failed] at lists
    exact (List.singleton_inj.mp (List.append_cancel_left lists)).symm.trans accepted
  have bodies := (same well (by rw [failed]; simp)).1
  exact ⟨ok well, by rw [last]; rfl, bodies⟩

end Calls

end ContentApi
