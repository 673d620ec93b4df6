import ContentApi.Listing.Catalogue
import ContentApi.Proofs.Listing.Pulls
import ContentApi.Proofs.Listing.Walks
import ContentApi.Proofs.Operation.Inquiries

/-! Whatever is done through a connection is done in the same way in the name of someone else. -/

namespace ContentApi

variable {α σ : Type} {s : Shape}

/-- A connection in the name of someone else. -/
def Connection.withToken (c : Connection) (token : String) : Connection :=
  { c with token := token }

/-- A request in the name of someone else. -/
def Request.withToken (r : Request) (token : String) : Request :=
  { r with token := token }

/-- A call in the name of someone else, whose answer is read as before. -/
def Call.withToken (call : Call α) (token : String) : Call α :=
  ⟨call.request.withToken token, call.read⟩

/-- A listing that is asked for in the name of someone else. -/
def Listing.withToken (l : Listing s) (token : String) : Listing s :=
  { l with connection := l.connection.withToken token }

/-- A walk that goes on in the name of someone else. -/
def Walk.withToken (w : Walk s) (token : String) : Walk s :=
  { w with listing := w.listing.withToken token }

/-- A script as if everything had been asked in the name of someone else. -/
def Script.withToken (script : Script) (token : String) : Script :=
  { script with requests := script.requests.map (·.withToken token) }

/-- An exchange as if it had been asked for in the name of someone else. -/
def Exchange.withToken (exchange : Exchange) (token : String) : Exchange :=
  { exchange with request := exchange.request.withToken token }

/-- The same object through another connection. -/
def Handle.via {r : Resource} (h : Handle r) (c : Connection) : Handle r :=
  ⟨c, h.id⟩

/-- The same assignee through another connection. -/
def Assignee.via (assignee : Assignee) (c : Connection) : Assignee :=
  match assignee with
  | .user h => .user (h.via c)
  | .login name => .login name

/-- The same inquiry through another connection. -/
def Inquiry.via (c : Connection) : {α : Type} → Inquiry α → Inquiry α
  | _, .info h fields routed => .info (h.via c) fields routed
  | _, .update h s editable => .update (h.via c) s editable
  | _, .delete h deletable => .delete (h.via c) deletable
  | _, .copy k h folder name => .copy k (h.via c) (folder.via c) name
  | _, .move k h folder name => .move k (h.via c) (folder.via c) name
  | _, .rename k h name => .rename k (h.via c) name
  | _, .share k h offer => .share k (h.via c) offer
  | _, .createMetadata k h place m => .createMetadata k (h.via c) place m
  | _, .getMetadata k h place => .getMetadata k (h.via c) place
  | _, .updateMetadata k h m => .updateMetadata k (h.via c) m
  | _, .deleteMetadata k h place => .deleteMetadata k (h.via c) place
  | _, .lock h expiry preventDownload => .lock (h.via c) expiry preventDownload
  | _, .unlock h => .unlock (h.via c)
  | _, .download h => .download (h.via c)
  | _, .downloadRange h range => .downloadRange (h.via c) range
  | _, .uploadVersion h content modifiedAt => .uploadVersion (h.via c) content modifiedAt
  | _, .versions h => .versions (h.via c)
  | _, .deleteVersion version file => .deleteVersion (version.via c) (file.via c)
  | _, .promote version file => .promote (version.via c) (file.via c)
  | _, .downloadVersion version file => .downloadVersion (version.via c) (file.via c)
  | _, .createFolder h name => .createFolder (h.via c) name
  | _, .deleteFolder h recursive => .deleteFolder (h.via c) recursive
  | _, .itemRange h offset limit fields => .itemRange (h.via c) offset limit fields
  | _, .createWebLink h address name description =>
    .createWebLink (h.via c) address name description
  | _, .uploadFile h upload => .uploadFile (h.via c) upload
  | _, .createHold _ planned => .createHold c planned
  | _, .assignHold _ policy type id => .assignHold c policy type id
  | _, .hold h target => .hold (h.via c) (target.via c)
  | _, .createPolicy _ name term => .createPolicy c name term
  | _, .assignPolicy _ policy type id => .assignPolicy c policy type id
  | _, .retainEnterprise h => .retainEnterprise (h.via c)
  | _, .retainFolder h folder => .retainFolder (h.via c) (folder.via c)
  | _, .addTask h action message due => .addTask (h.via c) action message due
  | _, .tasks h fields => .tasks (h.via c) fields
  | _, .assignTask h assignee => .assignTask (h.via c) (assignee.via c)
  | _, .taskAssignments h => .taskAssignments (h.via c)
  | _, .getTemplate _ template scope fields => .getTemplate c template scope fields
  | _, .createTemplate _ t => .createTemplate c t
  | _, .deleteTemplate _ scope template => .deleteTemplate c scope template

/-- What the service lists, with all that is said in asking for it. -/
inductive Survey : Shape → Type where
  | holds (c : Connection) (name : Option String) (limit : Nat) (fields : List String) :
    Survey (.record .legalHold)
  | policies (c : Connection) (filter : PolicyFilter) (limit : Nat) (fields : List String) :
    Survey (.record .retentionPolicy)
  | versionRetentions (c : Connection) (filter : VersionRetentionFilter) (limit : Nat)
    (fields : List String) : Survey (.record .fileVersionRetention)
  | templates (c : Connection) (scope : String) (limit : Nat) (fields : List String) :
    Survey (.record .template)
  | children (h : Handle .folder) (limit : Nat) (fields : List String) : Survey .item
  | holdAssignments (h : Handle .legalHold) (filter : HoldAssignmentFilter) (limit : Nat)
    (fields : List String) : Survey (.record .legalHoldAssignment)
  | policyAssignments (h : Handle .retentionPolicy) (type : Option String) (limit : Nat)
    (fields : List String) : Survey (.record .retentionPolicyAssignment)
  | allMetadata (k : Content) (h : Handle k.resource) (limit : Nat) (fields : List String) :
    Survey (.leaf .properties)

namespace Survey

/-- The listing that is asked for. -/
def listing : {s : Shape} → Survey s → Except Failure (Listing s)
  | _, .holds c name limit fields => c.holds name limit fields
  | _, .policies c filter limit fields => c.policies filter limit fields
  | _, .versionRetentions c filter limit fields => c.versionRetentions filter limit fields
  | _, .templates c scope limit fields => c.templates scope limit fields
  | _, .children h limit fields => h.children limit fields
  | _, .holdAssignments h filter limit fields => h.holdAssignments filter limit fields
  | _, .policyAssignments h type limit fields => h.policyAssignments type limit fields
  | _, .allMetadata k h limit fields => k.allMetadata h limit fields

/-- The same survey through another connection. -/
def via (c : Connection) : {s : Shape} → Survey s → Survey s
  | _, .holds _ name limit fields => .holds c name limit fields
  | _, .policies _ filter limit fields => .policies c filter limit fields
  | _, .versionRetentions _ filter limit fields => .versionRetentions c filter limit fields
  | _, .templates _ scope limit fields => .templates c scope limit fields
  | _, .children h limit fields => .children (h.via c) limit fields
  | _, .holdAssignments h filter limit fields => .holdAssignments (h.via c) filter limit fields
  | _, .policyAssignments h type limit fields => .policyAssignments (h.via c) type limit fields
  | _, .allMetadata k h limit fields => .allMetadata k (h.via c) limit fields

end Survey

/-- What is done through a connection, by what comes of it. -/
inductive Errand : Type → Type 1 where
  /-- Something is asked. -/
  | ask {α : Type} (inquiry : Inquiry α) : Errand (Except Failure α)
  /-- The changes of a snapshot are sent. -/
  | send {r : Resource} (h : Handle r) (s : Snapshot r) (editable : r.isEditable = true) :
    Errand (Except Failure Unit × Snapshot r)
  /-- The entries of a listing are gathered until there are enough. -/
  | gather {s : Shape} (survey : Survey s) (enough : Nat → Bool) (pages : Nat) :
    Errand (Except Failure (Outcome (List (Datum s))))
  /-- The next entry of a listing is asked for again and again. -/
  | pull {s : Shape} (survey : Survey s) (allowed pulls : Nat) :
    Errand (Except Failure (List (Found s)))

namespace Errand

/-- Does what is to be done. -/
def run (transport : Transport σ) (world : σ) : {β : Type} → Errand β → β × σ
  | _, .ask inquiry => inquiry.operation.run transport world
  | _, .send h s editable =>
    let sent := h.sendChanges s transport world editable
    ((sent.1, sent.2.1), sent.2.2)
  | _, .gather survey enough pages =>
    match survey.listing with
    | .error failure => (.error failure, world)
    | .ok l => (l.gather transport enough pages world).map .ok id
  | _, .pull survey allowed pulls =>
    match survey.listing with
    | .error failure => (.error failure, world)
    | .ok l =>
      let pulled := l.walk.pulls transport allowed pulls world
      (.ok pulled.1, pulled.2.2)

/-- The same through another connection. -/
def via (c : Connection) : {β : Type} → Errand β → Errand β
  | _, .ask inquiry => .ask (inquiry.via c)
  | _, .send h s editable => .send (h.via c) s editable
  | _, .gather survey enough pages => .gather (survey.via c) enough pages
  | _, .pull survey allowed pulls => .pull (survey.via c) allowed pulls

end Errand

/-- Whether a transport answers the same to someone else, where the states of the world are told as
if everything had been asked by them. -/
def Transport.Overlooks (transport : Transport σ) (token : String) (retold : σ → σ) : Prop :=
  ∀ request world, transport.exchange (request.withToken token) (retold world) =
    (transport.exchange request world).map id retold

/-- Whether a transport answers everyone the same, and is in the same state afterwards. -/
def Transport.IsBlind (transport : Transport σ) : Prop :=
  ∀ request token world,
    transport.exchange (request.withToken token) world = transport.exchange request world

/-- A script is played the same to anyone. -/
theorem Transport.scripted_overlooks (token : String) :
    scripted.Overlooks token (·.withToken token) := by
  intro request script
  obtain ⟨answers, requests⟩ := script
  -- The name is no part of what a script looks at, and is recorded with the request.
  simp only [scripted, Request.withToken, Script.withToken]
  split
  · cases answers <;> simp [Script.play]
  · rfl

/-- A transport that answers everyone the same is recorded the same, apart from who asked. -/
theorem Transport.IsBlind.traced_overlooks {transport : Transport σ} (blind : transport.IsBlind)
    (token : String) :
    transport.traced.Overlooks token (Prod.map id (List.map (·.withToken token))) := by
  intro request world
  simp [traced, blind request token, Exchange.withToken]

section

variable {transport : Transport σ} {token : String} {retold : σ → σ}

/-- A call comes to the same in the name of someone else. -/
theorem Call.run_withToken (overlooks : transport.Overlooks token retold) (call : Call α)
    (world : σ) : (call.withToken token).run transport (retold world) =
      (call.run transport world).map id retold := by
  rw [run, run, withToken, overlooks call.request world]
  rfl

/-- An operation comes to the same in the name of someone else. -/
theorem Operation.run_withToken (overlooks : transport.Overlooks token retold)
    (operation : Operation α) (world : σ) :
    Operation.run (operation.map (·.withToken token)) transport (retold world) =
      (operation.run transport world).map id retold := by
  -- What is not sent leaves the world as it is in either name.
  cases operation with
  | error failure => rfl
  | ok call => exact call.run_withToken overlooks world

namespace Listing

variable (l : Listing s)

/-- A page is the same in the name of someone else. -/
theorem run_page_withToken (overlooks : transport.Overlooks token retold) (cursor : Cursor)
    (world : σ) : ((l.withToken token).page cursor).run transport (retold world) =
      ((l.page cursor).run transport world).map id retold :=
  (l.page cursor).run_withToken overlooks world

/-- The entries of a listing that are gathered are the same in the name of someone else. -/
theorem gatherFrom_withToken (overlooks : transport.Overlooks token retold)
    (enough : Nat → Bool) (pages : Nat) (cursor : Option Cursor) (gathered : List (Datum s))
    (world : σ) :
    (l.withToken token).gatherFrom transport enough pages cursor gathered (retold world) =
      (l.gatherFrom transport enough pages cursor gathered world).map id retold := by
  -- Page by page the same is had, so that the same leads on to the next one.
  induction pages generalizing cursor gathered world with
  | zero => cases cursor <;> rfl
  | succ pages ih =>
    cases cursor with
    | none => rfl
    | some cursor =>
      have page := l.run_page_withToken overlooks cursor world
      rcases ran : (l.page cursor).run transport world with ⟨failure | had, after⟩
      · rw [ran] at page
        rw [gatherFrom_error _ ran, gatherFrom_error _ page]
        rfl
      · rw [ran] at page
        rw [gatherFrom_ok _ ran, gatherFrom_ok _ page]
        split
        · rfl
        · exact ih had.next _ after

end Listing

namespace Walk

variable (w : Walk s)

/-- The next entry of a walk is the same in the name of someone else. -/
theorem next_withToken (overlooks : transport.Overlooks token retold) (allowed : Nat) (world : σ) :
    (w.withToken token).next transport allowed (retold world) =
      (w.next transport allowed world).map id (Prod.map (·.withToken token) retold) := by
  obtain ⟨l, buffer, cursor⟩ := w
  -- Only a page that must be fetched first makes the walk ask for anything.
  induction allowed generalizing buffer cursor world with
  | zero => cases buffer <;> cases cursor <;> rfl
  | succ allowed ih =>
    cases buffer with
    | cons entry rest => rfl
    | nil =>
      cases cursor with
      | none => rfl
      | some cursor =>
        have page := l.run_page_withToken overlooks cursor world
        rcases ran : (l.page cursor).run transport world with ⟨failure | had, after⟩
        · rw [ran] at page
          rw [next_failed ran, withToken, next_failed page]
          rfl
        · rw [ran] at page
          rw [next_fetched ran, withToken, next_fetched page]
          exact ih after had.entries had.next

/-- However often it is asked for an entry, a walk comes to the same in the name of someone else. -/
theorem pulls_withToken (overlooks : transport.Overlooks token retold) (allowed pulls : Nat)
    (world : σ) : (w.withToken token).pulls transport allowed pulls (retold world) =
      (w.pulls transport allowed pulls world).map id (Prod.map (·.withToken token) retold) := by
  -- The induction is on the pulls, each of which goes on from the same walk in the other name.
  induction pulls generalizing w world with
  | zero => rfl
  | succ others ih =>
    rw [pulls, pulls, w.next_withToken overlooks allowed world]
    simp only [Prod.map_fst, Prod.map_snd, ih]
    rfl

end Walk

end

/-- What is made in one step of a value is made in two, if it is so for every value. -/
theorem map_eq_map_map {β γ : Type} {made : Except Failure α} {once : α → γ} {first : α → β}
    {second : β → γ} (same : ∀ value, once value = second (first value)) :
    made.map once = (made.map first).map second := by
  -- A failure is kept in either way.
  cases made with
  | error failure => rfl
  | ok value => exact congrArg Except.ok (same value)

section

variable (c : Connection) (token : String)

/-- What is asked in the name of someone else is the same operation in their name. -/
theorem Inquiry.operation_via (inquiry : Inquiry α) :
    (inquiry.via (c.withToken token)).operation =
      (inquiry.via c).operation.map (·.withToken token) := by
  -- The address does not depend on the token, and what is sent to it has the token as its own.
  cases inquiry with
  | downloadRange h range =>
    rw [via, via, operation, operation, Handle.downloadRange, Handle.downloadRange]
    cases range.refusal? with
    | some refusal => rfl
    | none => exact map_eq_map_map fun _ => rfl
  | updateMetadata k h m =>
    rw [via, via, operation, operation, Content.updateMetadata_eq, Content.updateMetadata_eq]
    cases m.place? with
    | none => rfl
    | some place => exact map_eq_map_map fun _ => rfl
  | assignTask h assignee => cases assignee <;> exact map_eq_map_map fun _ => rfl
  | _ => exact map_eq_map_map fun _ => rfl

/-- What is listed in the name of someone else is the same listing in their name. -/
theorem Survey.listing_via (survey : Survey s) :
    (survey.via (c.withToken token)).listing =
      (survey.via c).listing.map (·.withToken token) := by
  -- Each listing is made from its connection, and the token is in that alone.
  cases survey with
  | _ => exact map_eq_map_map fun _ => rfl

section

variable {transport : Transport σ} {retold : σ → σ}

/-- What is asked in the name of someone else comes to the same. -/
theorem Inquiry.run_via (overlooks : transport.Overlooks token retold) (inquiry : Inquiry α)
    (world : σ) : (inquiry.via (c.withToken token)).operation.run transport (retold world) =
      ((inquiry.via c).operation.run transport world).map id retold := by
  rw [inquiry.operation_via]
  exact Operation.run_withToken overlooks _ world

/-- Whatever is done in the name of someone else comes to the same. -/
theorem Errand.run_via (overlooks : transport.Overlooks token retold) {β : Type}
    (errand : Errand β) (world : σ) :
    (errand.via (c.withToken token)).run transport (retold world) =
      ((errand.via c).run transport world).map id retold := by
  -- Each errand is sent, or made of pages, and both are known to come to the same.
  cases errand with
  | ask inquiry => exact inquiry.run_via c token overlooks world
  | send h s editable =>
    have sent : ((h.via (c.withToken token)).update s editable).run transport (retold world) =
        (((h.via c).update s editable).run transport world).map id retold :=
      (Inquiry.update h s editable).run_via c token overlooks world
    rw [via, via, run, run, Handle.sendChanges, Handle.sendChanges, sent]
    rcases ((h.via c).update s editable).run transport world with ⟨_ | _, _⟩ <;> rfl
  | gather survey enough pages =>
    rw [via, via, run, run, survey.listing_via]
    cases (survey.via c).listing with
    | error failure => rfl
    | ok l =>
      exact congrArg (Prod.map Except.ok id)
        (l.gatherFrom_withToken overlooks enough pages (some l.first) [] world)
  | pull survey allowed pulls =>
    rw [via, via, run, run, survey.listing_via]
    cases (survey.via c).listing with
    | error failure => rfl
    | ok l =>
      exact congrArg (fun pulled => (Except.ok pulled.1, pulled.2.2))
        (l.walk.pulls_withToken overlooks allowed pulls world)

end

end

/-- Whoever may ask has the same connection as anyone else. -/
theorem Settings.connect_withToken {settings : Settings} {c : Connection}
    (connected : settings.connect = .ok c) {token : String} (sendable : isSendable token = true) :
    { settings with token := token }.connect = .ok (c.withToken token) := by
  -- The token is checked on its own and has no part in the bases.
  obtain ⟨⟨-, agent⟩, base, uploadBase, -, userAgent, timeout⟩ := connect_ok_iff.mp connected
  exact connect_ok_iff.mpr ⟨⟨sendable, agent⟩, base, uploadBase, rfl, userAgent, timeout⟩

/-- What is done in two names comes to the same, and leaves the same world behind, told in the one
and the other name. -/
theorem Errand.exists_run_via {transport : Transport σ} {token other : String}
    {retold retoldOther : σ → σ} (overlooks : transport.Overlooks token retold)
    (overlooksOther : transport.Overlooks other retoldOther) (c : Connection) {β : Type}
    (errand : Errand β) (world : σ) (start : retold world = world)
    (startOther : retoldOther world = world) : ∃ result after,
      (errand.via (c.withToken token)).run transport world = (result, retold after) ∧
      (errand.via (c.withToken other)).run transport world = (result, retoldOther after) := by
  -- Both runs are the one in the name of the connection, told in another name each.
  have ran := errand.run_via c token overlooks world
  have ranOther := errand.run_via c other overlooksOther world
  rw [start] at ran
  rw [startOther] at ranOther
  exact ⟨_, _, ran, ranOther⟩

end ContentApi
