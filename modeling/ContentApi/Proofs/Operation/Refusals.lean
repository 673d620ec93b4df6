import ContentApi.Listing.Catalogue
import ContentApi.Listing.Walk
import ContentApi.Operation.Folders
import ContentApi.Operation.Holds
import ContentApi.Operation.Metadata
import ContentApi.Operation.Retention
import ContentApi.Operation.Tasks
import ContentApi.Proofs.Http.Trace
import ContentApi.Proofs.Listing.Walks
import ContentApi.Proofs.Operation.Changes
import ContentApi.Proofs.Results

/-! No answer is refused as an argument, except where metadata are read from one. -/

namespace ContentApi

variable {α β : Type} {σ : Type}

/-- The failures that say of an answer of success that it is not what was expected. -/
inductive Failure.IsOfAnswer : Failure → Prop where
  | document (fault : Fault) : IsOfAnswer (.document fault)
  | unexpected (shortage : Shortage) : IsOfAnswer (.unexpected shortage)

/-- Whether a failure tells where it comes from: an argument is refused before anything is sent, and
what is wrong with an answer of success is said of the answer. -/
structure Failure.IsHonest (failure : Failure) (before after : σ × List Exchange) : Prop where
  unsent : ∀ refusal, failure = .refused refusal → after = before
  ofAnswer : ∀ earlier exchange response, after.2 = before.2 ++ earlier ++ [exchange] →
    exchange.answer = some response → response.isSuccess = true → failure.IsOfAnswer

/-- Whether an operation fails honestly if it fails. -/
def Operation.IsHonest (operation : Operation α) (transport : Transport σ)
    (state : σ × List Exchange) : Prop :=
  ∀ failure, (operation.run transport.traced state).1 = .error failure →
    failure.IsHonest state (operation.run transport.traced state).2

/-- What may be asked of the service, apart from listings, with all that is said in asking. -/
inductive Inquiry : Type → Type where
  | info {r : Resource} (h : Handle r) (fields : List String) (routed : r ≠ .fileVersion) :
    Inquiry (Snapshot r)
  | update {r : Resource} (h : Handle r) (s : Snapshot r) (editable : r.isEditable = true) :
    Inquiry (Snapshot r)
  | delete {r : Resource} (h : Handle r) (deletable : r.isDeletable = true) : Inquiry Unit
  | copy (k : Content) (h : Handle k.resource) (folder : Handle .folder) (name : Option String) :
    Inquiry (Snapshot k.resource)
  | move (k : Content) (h : Handle k.resource) (folder : Handle .folder) (name : Option String) :
    Inquiry (Snapshot k.resource)
  | rename (k : Content) (h : Handle k.resource) (name : String) : Inquiry (Snapshot k.resource)
  | share (k : Content) (h : Handle k.resource) (offer : LinkOffer) : Inquiry (Record .sharedLink)
  | createMetadata (k : Content) (h : Handle k.resource) (place : MetadataPlace) (m : Metadata) :
    Inquiry Metadata
  | getMetadata (k : Content) (h : Handle k.resource) (place : MetadataPlace) : Inquiry Metadata
  | updateMetadata (k : Content) (h : Handle k.resource) (m : Metadata) : Inquiry Metadata
  | deleteMetadata (k : Content) (h : Handle k.resource) (place : MetadataPlace) : Inquiry Unit
  | lock (h : Handle .file) (expiry : Option Timestamp) (preventDownload : Bool) :
    Inquiry (Snapshot .file)
  | unlock (h : Handle .file) : Inquiry (Snapshot .file)
  | download (h : Handle .file) : Inquiry Bytes
  | downloadRange (h : Handle .file) (range : ByteRange) : Inquiry Bytes
  | uploadVersion (h : Handle .file) (content : Bytes) (modifiedAt : Option Timestamp) :
    Inquiry (Snapshot .file)
  | versions (h : Handle .file) : Inquiry (List (Datum (.record .fileVersion)))
  | deleteVersion (version : Handle .fileVersion) (file : Handle .file) : Inquiry Unit
  | promote (version : Handle .fileVersion) (file : Handle .file) : Inquiry (Snapshot .fileVersion)
  | downloadVersion (version : Handle .fileVersion) (file : Handle .file) : Inquiry Bytes
  | createFolder (h : Handle .folder) (name : String) : Inquiry (Snapshot .folder)
  | deleteFolder (h : Handle .folder) (recursive : Bool) : Inquiry Unit
  | itemRange (h : Handle .folder) (offset limit : Nat) (fields : List String) : Inquiry ItemRange
  | createWebLink (h : Handle .folder) (address : String) (name description : Option String) :
    Inquiry (Snapshot .webLink)
  | uploadFile (h : Handle .folder) (upload : Upload) : Inquiry (Snapshot .file)
  | createHold (c : Connection) (hold : NewHold) : Inquiry (Snapshot .legalHold)
  | assignHold (c : Connection) (policy type id : String) : Inquiry (Snapshot .legalHoldAssignment)
  | hold {r : Resource} (h : Handle .legalHold) (target : Handle r) :
    Inquiry (Snapshot .legalHoldAssignment)
  | createPolicy (c : Connection) (name : String) (term : RetentionTerm) :
    Inquiry (Snapshot .retentionPolicy)
  | assignPolicy (c : Connection) (policy type : String) (id : Option String) :
    Inquiry (Snapshot .retentionPolicyAssignment)
  | retainEnterprise (h : Handle .retentionPolicy) : Inquiry (Snapshot .retentionPolicyAssignment)
  | retainFolder (h : Handle .retentionPolicy) (folder : Handle .folder) :
    Inquiry (Snapshot .retentionPolicyAssignment)
  | addTask (h : Handle .file) (action : Word .taskAction) (message : Option String)
    (due : Option Timestamp) : Inquiry (Snapshot .task)
  | tasks (h : Handle .file) (fields : List String) : Inquiry (List (Datum (.record .task)))
  | assignTask (h : Handle .task) (assignee : Assignee) : Inquiry (Snapshot .taskAssignment)
  | taskAssignments (h : Handle .task) : Inquiry (List (Datum (.record .taskAssignment)))
  | getTemplate (c : Connection) (template scope : String) (fields : List String) :
    Inquiry (Datum (.record .template))
  | createTemplate (c : Connection) (t : NewTemplate) : Inquiry (Datum (.record .template))
  | deleteTemplate (c : Connection) (scope template : String) : Inquiry Unit

/-- The operation that asks. -/
def Inquiry.operation : {α : Type} → Inquiry α → Operation α
  | _, .info h fields routed => h.info fields routed
  | _, .update h s editable => h.update s editable
  | _, .delete h deletable => h.delete deletable
  | _, .copy k h folder name => k.copy h folder name
  | _, .move k h folder name => k.move h folder name
  | _, .rename k h name => k.rename h name
  | _, .share k h offer => k.share h offer
  | _, .createMetadata k h place m => k.createMetadata h place m
  | _, .getMetadata k h place => k.getMetadata h place
  | _, .updateMetadata k h m => k.updateMetadata h m
  | _, .deleteMetadata k h place => k.deleteMetadata h place
  | _, .lock h expiry preventDownload => h.lock expiry preventDownload
  | _, .unlock h => h.unlock
  | _, .download h => h.download
  | _, .downloadRange h range => h.downloadRange range
  | _, .uploadVersion h content modifiedAt => h.uploadVersion content modifiedAt
  | _, .versions h => h.versions
  | _, .deleteVersion version file => version.deleteVersion file
  | _, .promote version file => version.promote file
  | _, .downloadVersion version file => version.downloadVersion file
  | _, .createFolder h name => h.createFolder name
  | _, .deleteFolder h recursive => h.deleteFolder recursive
  | _, .itemRange h offset limit fields => h.itemRange offset limit fields
  | _, .createWebLink h address name description => h.createWebLink address name description
  | _, .uploadFile h upload => h.uploadFile upload
  | _, .createHold c planned => c.createHold planned
  | _, .assignHold c policy type id => c.assignHold policy type id
  | _, .hold h target => h.hold target
  | _, .createPolicy c name term => c.createPolicy name term
  | _, .assignPolicy c policy type id => c.assignPolicy policy type id
  | _, .retainEnterprise h => h.retainEnterprise
  | _, .retainFolder h folder => h.retainFolder folder
  | _, .addTask h action message due => h.addTask action message due
  | _, .tasks h fields => h.tasks fields
  | _, .assignTask h assignee => h.assignTask assignee
  | _, .taskAssignments h => h.taskAssignments
  | _, .getTemplate c template scope fields => c.getTemplate template scope fields
  | _, .createTemplate c t => c.createTemplate t
  | _, .deleteTemplate c scope template => c.deleteTemplate scope template

/-- Whether an operation is one that the service offers, apart from listings. -/
def Offered (operation : Operation α) : Prop :=
  ∃ inquiry : Inquiry α, inquiry.operation = operation

/-- The operations that read a metadata instance from their answer. -/
inductive Operation.ReadsMetadata : {α : Type} → Operation α → Prop where
  | create (k : Content) (h : Handle k.resource) (place : MetadataPlace) (m : Metadata) :
    ReadsMetadata (k.createMetadata h place m)
  | get (k : Content) (h : Handle k.resource) (place : MetadataPlace) :
    ReadsMetadata (k.getMetadata h place)
  | update (k : Content) (h : Handle k.resource) (m : Metadata) :
    ReadsMetadata (k.updateMetadata h m)

/-- Whether an operation reads a metadata instance from an answer of success that is no object. -/
def Operation.Misreads (operation : Operation α) (transport : Transport σ)
    (state : σ × List Exchange) : Prop :=
  operation.ReadsMetadata ∧ ∃ call response value, operation = .ok call ∧
    (transport.exchange call.request state.1).1 = some response ∧ response.isSuccess = true ∧
    response.json = .ok value ∧ value.isObject = false

/-- What fails by an answer, or for want of one. -/
inductive Failure.Follows : Failure → Option Response → Prop where
  | unanswered : Follows .transport none
  | status (response : Response) (noSuccess : response.isSuccess = false) :
    Follows (.api (.ofResponse response)) (some response)
  | read {failure : Failure} (response : Response) (ofAnswer : failure.IsOfAnswer) :
    Follows failure (some response)

namespace Failure

variable {failure : Failure} {before after : σ × List Exchange}

/-- What fails before anything is sent fails honestly. -/
theorem isHonest_of_unsent (same : after = before) : failure.IsHonest before after where
  unsent _ _ := same
  ofAnswer earlier exchange response recorded := by
    -- An exchange would have made the record longer.
    subst same
    have lengths := congrArg List.length recorded
    simp only [List.length_append, List.length_singleton] at lengths
    omega

/-- Whether a failure comes of the last of some exchanges. -/
def EndsBy (failure : Failure) (before after : σ × List Exchange) : Prop :=
  ∃ earlier exchange, after.2 = before.2 ++ earlier ++ [exchange] ∧ failure.Follows exchange.answer

/-- What comes of the only exchange comes of the last one. -/
theorem endsBy_single {exchange : Exchange} (recorded : after.2 = before.2 ++ [exchange])
    (follows : failure.Follows exchange.answer) : failure.EndsBy before after :=
  ⟨[], exchange, by rw [recorded, List.append_nil], follows⟩

/-- What comes of the last exchange does so behind one exchange more. -/
theorem EndsBy.cons {between : σ × List Exchange} {exchange : Exchange}
    (recorded : between.2 = before.2 ++ [exchange]) (ends : failure.EndsBy between after) :
    failure.EndsBy before after := by
  obtain ⟨earlier, last, later, follows⟩ := ends
  -- The exchange in front is one of the earlier ones, and the last one stays the last.
  refine ⟨exchange :: earlier, last, ?_, follows⟩
  rw [later, recorded]
  simp

/-- What comes of the last exchange fails honestly. -/
theorem EndsBy.isHonest (ends : failure.EndsBy before after) : failure.IsHonest before after := by
  obtain ⟨earlier, exchange, recorded, follows⟩ := ends
  constructor
  · intro refusal refused
    subst refused
    -- No answer makes an argument a bad one.
    generalize exchange.answer = answer at follows
    cases follows with
    | read response ofAnswer => cases ofAnswer
  · intro others last response recordedToo answered success
    rw [recorded] at recordedToo
    obtain ⟨-, same⟩ := List.append_inj' recordedToo rfl
    cases same
    rw [answered] at follows
    cases follows with
    | status response noSuccess => exact absurd success (by simp [noSuccess])
    | read response ofAnswer => exact ofAnswer

end Failure

/-- Whether a result that fails does so because of the answer. -/
def FailsByAnswer (result : Except Failure α) : Prop :=
  ∀ failure, result = .error failure → failure.IsOfAnswer

namespace FailsByAnswer

/-- What succeeds does not fail otherwise. -/
theorem ok (value : α) : FailsByAnswer (.ok value) := by
  intro failure failed
  cases failed

/-- What a document is not is said of the answer. -/
theorem document (result : Except Fault α) : FailsByAnswer (result.mapError .document) := by
  intro failure failed
  obtain ⟨fault, -, rfl⟩ := mapError_error_iff.mp failed
  exact .document fault

/-- What an answer lacks is said of it. -/
theorem lacks (shortage : Shortage) :
    FailsByAnswer (.error (.unexpected shortage) : Except _ α) := by
  intro failure failed
  cases failed
  exact .unexpected shortage

/-- A chain fails by the answer if each of its links does. -/
theorem bind {result : Except Failure α} {next : α → Except Failure β}
    (first : FailsByAnswer result) (rest : ∀ value, FailsByAnswer (next value)) :
    FailsByAnswer (result.bind next) := by
  intro failure failed
  -- A chain that fails does so at its first link or behind it.
  rcases bind_error_iff.mp failed with failed | ⟨value, -, failed⟩
  · exact first failure failed
  · exact rest value failure failed

end FailsByAnswer

namespace Response

variable (response : Response)

/-- An untyped answer fails by what its text is not. -/
theorem json_failsByAnswer : FailsByAnswer response.json := by
  rw [json]
  -- A blank text is read as null, and any other one is at fault if it is cut.
  split
  · exact .ok _
  · intro failure failed
    obtain ⟨cut, -, rfl⟩ := mapError_error_iff.mp failed
    exact .document _

/-- A typed answer fails by what its document is not. -/
theorem datum_failsByAnswer (s : Shape) : FailsByAnswer (response.datum s) :=
  .document _

/-- The description of an object fails by what the answer is not. -/
theorem snapshot_failsByAnswer (r : Resource) : FailsByAnswer (response.snapshot r) :=
  response.json_failsByAnswer.bind fun _ => .document _

/-- A collection fails by what the answer is not. -/
theorem entries_failsByAnswer (s : Shape) : FailsByAnswer (response.entries s) :=
  (response.datum_failsByAnswer _).bind fun _ => .ok _

/-- Some items of a folder fail by what the answer is not. -/
theorem itemRange_failsByAnswer : FailsByAnswer response.itemRange :=
  (response.datum_failsByAnswer _).bind fun _ => .ok _

/-- A page fails by what the answer is not. -/
theorem page_failsByAnswer (s : Shape) (cursor : Cursor) : FailsByAnswer (response.page s cursor) :=
  (response.datum_failsByAnswer _).bind fun _ => .ok _

/-- A shared link fails by what the answer is not, or by there being none. -/
theorem sharedLink_failsByAnswer : FailsByAnswer response.sharedLink := by
  -- The item is read first, and then it must have a link.
  refine (response.datum_failsByAnswer _).bind fun item => ?_
  split
  · exact .ok _
  · exact .lacks _

/-- An uploaded file fails by what the answer is not, or by there being none. -/
theorem uploadedFile_failsByAnswer : FailsByAnswer response.uploadedFile := by
  -- The list is read first, and then it must have an entry.
  refine (response.entries_failsByAnswer _).bind fun files => ?_
  split
  · exact .ok _
  · exact .lacks _

/-- A metadata instance fails by the answer exactly if that is not some other value than an object.
-/
theorem metadata_failsByAnswer_iff : FailsByAnswer response.metadata ↔
    ¬ ∃ value, response.json = .ok value ∧ value.isObject = false := by
  constructor
  · rintro fails ⟨value, read, noObject⟩
    have refused : response.metadata = .error (.refused (.notAnObject value)) := by
      show response.json.bind _ = _
      rw [read]
      cases value with
      | object members => cases noObject
      | null | flag | number | text | array => rfl
    -- The value is refused as if it were an argument.
    cases fails _ refused
  · intro object failure failed
    rcases bind_error_iff.mp failed with failed | ⟨value, read, failed⟩
    · exact response.json_failsByAnswer failure failed
    · cases value with
      | object members => cases failed
      | null | flag | number | text | array => exact absurd ⟨_, read, rfl⟩ object

end Response

/-- What fails in a call follows from the answer, if answers of success are read as such. -/
theorem Call.follows {call : Call α} {answer : Option Response}
    (reads : ∀ response, answer = some response → response.isSuccess = true →
      FailsByAnswer (call.read response)) {failure : Failure}
    (failed : call.outcome answer = .error failure) : failure.Follows answer := by
  -- Without an answer the transport has failed, and otherwise the status decides who did.
  cases answer with
  | none =>
    cases failed
    exact .unanswered
  | some response =>
    rw [Call.outcome] at failed
    by_cases success : response.isSuccess = true
    · rw [if_pos success] at failed
      exact .read response (reads response rfl success failure failed)
    · rw [if_neg success] at failed
      cases failed
      exact .status response (Bool.eq_false_iff.mpr success)

namespace Operation

variable (transport : Transport σ) (state : σ × List Exchange)

/-- An operation that is refused sends nothing. -/
theorem isHonest_error (failure : Failure) :
    IsHonest (.error failure : Operation α) transport state :=
  fun _ _ => Failure.isHonest_of_unsent rfl

/-- An operation that is sent fails honestly exactly if an answer of success is read as one. -/
theorem isHonest_ok_iff (call : Call α) : IsHonest (.ok call) transport state ↔
    ∀ response, (transport.exchange call.request state.1).1 = some response →
      response.isSuccess = true → FailsByAnswer (call.read response) := by
  -- The traced run ends with one exchange, so that the answer is the last one.
  have ran := Call.run_traced call transport state.1 state.2
  constructor
  · intro honest response answered success failure failed
    simp only [answered, Call.outcome, if_pos success, failed] at ran
    have here : (run (.ok call) transport.traced state).1 = .error failure :=
      congrArg Prod.fst ran
    refine (honest failure here).ofAnswer [] ⟨call.request, some response⟩ response ?_ rfl success
    rw [List.append_nil]
    exact congrArg (fun ended => ended.2.2) ran
  · intro reads failure failed
    have follows := Call.follows reads ((congrArg Prod.fst ran).symm.trans failed)
    exact (Failure.endsBy_single (congrArg (fun ended => ended.2.2) ran) follows).isHonest

/-- An operation fails honestly if it reads every answer as one, whatever its address is. -/
theorem isHonest_map {made : Except Failure Url} {send : Url → Call α}
    (reads : ∀ url response, FailsByAnswer ((send url).read response)) :
    IsHonest (made.map send) transport state := by
  -- An address that is not built is refused before anything is sent.
  cases made with
  | error failure => exact isHonest_error transport state failure
  | ok url => exact (isHonest_ok_iff transport state _).mpr fun response _ _ => reads url response

variable {transport state}

/-- The three operations that read a metadata instance fail by what that says of the answer.
-/
theorem ReadsMetadata.read_error_iff {operation : Operation α} {call : Call α}
    (reads : operation.ReadsMetadata) (sent : operation = .ok call) (response : Response)
    {failure : Failure} : call.read response = .error failure ↔
      response.metadata = .error failure := by
  -- The three operations are told apart by their routes, and all read their answer in one way.
  cases reads with
  | create k h place m =>
    obtain ⟨url, -, rfl⟩ := map_ok_iff.mp sent
    exact Iff.rfl
  | get k h place =>
    obtain ⟨url, -, rfl⟩ := map_ok_iff.mp sent
    exact Iff.rfl
  | update k h m =>
    rw [Content.updateMetadata] at sent
    split at sent
    · obtain ⟨url, -, rfl⟩ := map_ok_iff.mp sent
      exact Iff.rfl
    · cases sent

/-- What an operation makes of an answer that it reads as a metadata instance. -/
theorem ReadsMetadata.failsByAnswer_iff {operation : Operation α}
    (reads : operation.ReadsMetadata) {call : Call α} (sent : operation = .ok call)
    (response : Response) : FailsByAnswer (call.read response) ↔
      ¬ ∃ value, response.json = .ok value ∧ value.isObject = false := by
  -- Whichever operation it is, it fails just where metadata are not read.
  rw [← response.metadata_failsByAnswer_iff]
  exact forall_congr' fun failure => imp_congr_left (reads.read_error_iff sent response)

/-- An operation that reads a metadata instance fails honestly exactly if it misreads no answer. -/
theorem ReadsMetadata.isHonest_iff {operation : Operation α} (reads : operation.ReadsMetadata) :
    operation.IsHonest transport state ↔ ¬ operation.Misreads transport state := by
  -- What is not sent is honest and misreads nothing; what is sent is judged by its one answer.
  cases operation with
  | error failure =>
    refine ⟨fun _ misreads => ?_, fun _ => isHonest_error transport state failure⟩
    obtain ⟨-, call, -, -, sent, -⟩ := misreads
    cases sent
  | ok call =>
    rw [isHonest_ok_iff]
    constructor
    · rintro honest ⟨-, sent, response, value, same, answered, success, read, noObject⟩
      cases same
      have fails := honest response answered success
      exact (reads.failsByAnswer_iff rfl response).mp fails ⟨value, read, noObject⟩
    · intro reading response answered success
      refine (reads.failsByAnswer_iff rfl response).mpr ?_
      rintro ⟨value, read, noObject⟩
      exact reading ⟨reads, call, response, value, rfl, answered, success, read, noObject⟩

end Operation

/-- Every operation fails honestly, unless it reads a metadata instance from an answer of success
that is no object. -/
theorem Offered.isHonest_iff {operation : Operation α} (offered : Offered operation)
    (transport : Transport σ) (state : σ × List Exchange) :
    operation.IsHonest transport state ↔ ¬ operation.Misreads transport state := by
  constructor
  · rintro honest misreads
    exact misreads.1.isHonest_iff.mp honest misreads
  · intro reading
    obtain ⟨inquiry, rfl⟩ := offered
    -- The readers of all other operations take no answer for an argument.
    cases inquiry with
    | createMetadata k h place m =>
      exact (Operation.ReadsMetadata.create k h place m).isHonest_iff.mpr reading
    | getMetadata k h place =>
      exact (Operation.ReadsMetadata.get k h place).isHonest_iff.mpr reading
    | updateMetadata k h m =>
      exact (Operation.ReadsMetadata.update k h m).isHonest_iff.mpr reading
    | update h s editable =>
      refine Operation.isHonest_map transport state fun url response => ?_
      exact response.json_failsByAnswer.bind fun answer => .document _
    | delete | deleteMetadata | deleteVersion | deleteFolder | deleteTemplate =>
      exact Operation.isHonest_map transport state fun url response => .ok ()
    | download | downloadVersion =>
      exact Operation.isHonest_map transport state fun url response => .ok response.body
    | downloadRange h range =>
      rw [Inquiry.operation, Handle.downloadRange]
      split
      · exact Operation.isHonest_error transport state _
      · exact Operation.isHonest_map transport state fun url response => .ok response.body
    | share =>
      exact Operation.isHonest_map transport state fun url response =>
        response.sharedLink_failsByAnswer
    | uploadVersion | uploadFile =>
      exact Operation.isHonest_map transport state fun url response =>
        response.uploadedFile_failsByAnswer
    | versions | tasks | taskAssignments =>
      exact Operation.isHonest_map transport state fun url response =>
        response.entries_failsByAnswer _
    | itemRange =>
      exact Operation.isHonest_map transport state fun url response =>
        response.itemRange_failsByAnswer
    | getTemplate | createTemplate =>
      exact Operation.isHonest_map transport state fun url response =>
        response.datum_failsByAnswer _
    | info | copy | move | rename | lock | unlock | promote | createFolder | createWebLink
    | createHold | assignHold | hold | createPolicy | assignPolicy | retainEnterprise
    | retainFolder | addTask | assignTask =>
      exact Operation.isHonest_map transport state fun url response =>
        response.snapshot_failsByAnswer _

/-- The failure by which the fetching of pages ends, if it does. -/
def Outcome.failure? : Outcome α → Option Failure
  | .failed failure => some failure
  | .complete _ | .short => none

/-- The failure that a walk comes to, if it does. -/
def Found.failure? {s : Shape} : Found s → Option Failure
  | .failed failure => some failure
  | .entry _ | .ended | .short => none

namespace Listing

variable {s : Shape} {transport : Transport σ}

/-- Gathers the entries of a listing, unless its arguments are refused. -/
def gatherOf (made : Except Failure (Listing s)) (transport : Transport σ) (enough : Nat → Bool)
    (pages : Nat) (world : σ) : Outcome (List (Datum s)) × σ :=
  match made with
  | .ok l => l.gather transport enough pages world
  | .error failure => (.failed failure, world)

/-- A page of a listing is had by one exchange, and if it is not, the failure follows from it. -/
theorem run_page (l : Listing s) (transport : Transport σ) (cursor : Cursor)
    (state : σ × List Exchange) : ∃ exchange later,
    ((l.page cursor).run transport.traced state).2 = (later, state.2 ++ [exchange]) ∧
    ∀ failure, ((l.page cursor).run transport.traced state).1 = .error failure →
      failure.Follows exchange.answer := by
  obtain ⟨world, record⟩ := state
  -- The failure of a page follows from the answer to its one request.
  rw [Call.run_traced]
  refine ⟨_, _, rfl, fun failure failed => ?_⟩
  exact Call.follows (fun response _ _ => response.page_failsByAnswer s cursor) failed

/-- Gathering that fails does so by the last answer. -/
theorem endsBy_of_gatherFrom (l : Listing s) {enough : Nat → Bool} {pages : Nat}
    {cursor : Option Cursor} {gathered : List (Datum s)} {state after : σ × List Exchange}
    {failure : Failure}
    (ran : l.gatherFrom transport.traced enough pages cursor gathered state =
      (.failed failure, after)) : failure.EndsBy state after := by
  -- The induction is on the pages that may be fetched, of which only the last one can fail.
  induction pages generalizing cursor gathered state with
  | zero =>
    cases cursor with
    | none => cases ran
    | some cursor => cases ran
  | succ pages ih =>
    cases cursor with
    | none => cases ran
    | some cursor =>
      obtain ⟨exchange, later, recorded, follows⟩ := l.run_page transport cursor state
      rcases had : (l.page cursor).run transport.traced state with ⟨failed | page, between⟩
      · rw [gatherFrom_error l had] at ran
        cases ran
        rw [had] at recorded follows
        exact Failure.endsBy_single (congrArg Prod.snd recorded) (follows failure rfl)
      · rw [gatherFrom_ok l had] at ran
        split at ran
        · cases ran
        · rw [had] at recorded
          exact (ih ran).cons (congrArg Prod.snd recorded)

/-- A walk that fails does so by the last answer. -/
theorem endsBy_of_next {pages : Nat} {w rest : Walk s} {state after : σ × List Exchange}
    {failure : Failure}
    (ran : w.next transport.traced pages state = (.failed failure, rest, after)) :
    failure.EndsBy state after := by
  -- The induction is on the pages that may be fetched, and the last one of them is what failed.
  induction pages generalizing w state with
  | zero =>
    obtain ⟨l, buffer, cursor⟩ := w
    cases buffer <;> cases cursor <;> cases ran
  | succ pages ih =>
    obtain ⟨l, buffer, cursor⟩ := w
    cases buffer with
    | cons entry buffer => cases ran
    | nil =>
    cases cursor with
    | none => cases ran
    | some cursor =>
      obtain ⟨exchange, later, recorded, follows⟩ := l.run_page transport cursor state
      rw [Walk.next] at ran
      rcases had : (l.page cursor).run transport.traced state with ⟨failed | page, between⟩
      · simp only [had] at ran
        cases ran
        rw [had] at recorded follows
        exact Failure.endsBy_single (congrArg Prod.snd recorded) (follows failure rfl)
      · simp only [had] at ran
        rw [had] at recorded
        exact (ih ran).cons (congrArg Prod.snd recorded)

end Listing

/-- An argument is refused before anything is sent, and what is wrong with an answer of success is
said of the answer, by every operation and every listing; except that the operations which read a
metadata instance refuse an answer of success that is no object as if it were an argument. -/
theorem failures_honest :
    (∀ (α : Type) (operation : Operation α), Offered operation →
      ∀ (transport : Transport σ) (state : σ × List Exchange),
        operation.IsHonest transport state ↔ ¬ operation.Misreads transport state) ∧
    (∀ (s : Shape) (made : Except Failure (Listing s)) (transport : Transport σ)
      (enough : Nat → Bool) (pages : Nat) (state : σ × List Exchange),
      let run := Listing.gatherOf made transport.traced enough pages state
      ∀ failure, run.1.failure? = some failure → failure.IsHonest state run.2) ∧
    (∀ (s : Shape) (w : Walk s) (transport : Transport σ) (pages : Nat)
      (state : σ × List Exchange),
      let run := w.next transport.traced pages state
      ∀ failure, run.1.failure? = some failure → failure.IsHonest state run.2.2) := by
  refine ⟨fun α operation offered transport state => offered.isHonest_iff transport state, ?_, ?_⟩
  · intro s made transport enough pages state run failure failed
    -- A listing whose arguments are refused has sent nothing.
    cases made with
    | error refused => exact Failure.isHonest_of_unsent rfl
    | ok l =>
      rcases ran : run with ⟨outcome, after⟩
      rw [ran] at failed
      cases outcome with
      | complete entries => cases failed
      | short => cases failed
      | failed cause =>
        cases failed
        exact (Listing.endsBy_of_gatherFrom l ran).isHonest
  · intro s w transport pages state run failure failed
    -- A walk that finds something has no failure to be honest about.
    rcases ran : run with ⟨found, rest, after⟩
    rw [ran] at failed
    cases found with
    | entry entry => cases failed
    | ended => cases failed
    | short => cases failed
    | failed cause =>
      cases failed
      exact (Listing.endsBy_of_next ran).isHonest

/-- Where the properties of a file are kept that follow no template. -/
def freeProperties : MetadataPlace := ⟨"properties", "global"⟩

/-- Properties that are an object are read honestly. -/
theorem getMetadata_object_honest :
    (Content.file.getMetadata Calls.someFile freeProperties).IsHonest Calls.answering
      ([some (.carrying "\x7b\x7d")], []) := by
  refine (failures_honest.1 _ _ ⟨.getMetadata .file Calls.someFile freeProperties, rfl⟩ _ _).mpr ?_
  rintro ⟨-, call, response, value, -, answered, -, read, noObject⟩
  cases answered
  -- The answer is an object, so that there is nothing to misread.
  have object : (Response.carrying "\x7b\x7d").json = .ok (.object []) :=
    Response.json_carrying (by decide) rfl
  rw [object] at read
  cases read
  cases noObject

/-- Properties that are a list are refused as if they were an argument, though a request was sent.
-/
theorem getMetadata_list_refused : ∃ exchange,
    (Content.file.getMetadata Calls.someFile freeProperties).run Calls.answering.traced
      ([some (.carrying "[]")], []) =
        (.error (.refused (.notAnObject (.array []))), [], [exchange]) ∧
    ¬ (Content.file.getMetadata Calls.someFile freeProperties).IsHonest Calls.answering
      ([some (.carrying "[]")], []) := by
  -- The address is computed once, and then the one exchange is told from it.
  obtain ⟨url, address⟩ : ∃ url, Content.file.metadataUrl Calls.someFile freeProperties = .ok url :=
    ⟨_, by cbv⟩
  have list : (Response.carrying "[]").json = .ok (.array []) :=
    Response.json_carrying (by decide) rfl
  have refused : (Content.file.getMetadata Calls.someFile freeProperties).run Calls.answering.traced
      ([some (.carrying "[]")], []) = (.error (.refused (.notAnObject (.array []))), [],
        [⟨Calls.someFile.connection.request .get url .empty, some (.carrying "[]")⟩]) := by
    have sent : Content.file.getMetadata Calls.someFile freeProperties =
        .ok (Calls.someFile.connection.get url Response.metadata) := by
      show (Content.file.metadataUrl Calls.someFile freeProperties).map _ = _
      rw [address]
      rfl
    have read : (Response.carrying "[]").metadata =
        .error (.refused (.notAnObject (.array []))) := by
      show (Response.carrying "[]").json.bind _ = _
      rw [list]
      rfl
    rw [sent]
    exact Prod.ext read rfl
  refine ⟨_, refused, fun honest => ?_⟩
  -- An honest refusal leaves the record as it was, but there is a request in it.
  have unsent := (honest _ (congrArg Prod.fst refused)).unsent _ rfl
  rw [refused] at unsent
  cases unsent

end ContentApi
