import ContentApi.Http.Script
import ContentApi.Proofs.Operation.Refusals
import ContentApi.Proofs.Service.Connections
import ContentApi.Proofs.Service.Routes
import ContentApi.Proofs.Url.Queries

/-! Whatever is asked of the service is asked by one request, which is settled before any answer. -/

namespace ContentApi

variable {α : Type}

/-- The place where metadata say that they are kept. -/
def Metadata.place? (m : Metadata) : Option MetadataPlace := do
  let scope ← m.scope?
  let template ← m.template?
  return ⟨template, scope⟩

/-- Metadata do not say where they are kept if they lack the scope or the template. -/
theorem Metadata.place?_eq_none_iff {m : Metadata} :
    m.place? = none ↔ m.scope? = none ∨ m.template? = none := by
  rw [place?]
  cases m.scope? <;> cases m.template? <;> simp

/-- The steps taken on metadata are sent to where these say that they are kept. -/
theorem Content.updateMetadata_eq (k : Content) (h : Handle k.resource) (m : Metadata) :
    k.updateMetadata h m =
      match m.place? with
      | some place => (k.metadataUrl h place).map fun url =>
        ⟨h.connection.request .put url (.patch m.patch), Response.metadata⟩
      | none => .error (.refused .unnamedMetadata) := by
  rw [updateMetadata, Metadata.place?]
  -- The steps are sent only if both parts of the place are known, which is what the place is.
  cases m.scope? <;> cases m.template? <;> rfl

/-- Where something is asked. -/
structure Target where
  /-- The connection through which it is asked. -/
  connection : Connection
  /-- The address below which it is asked. -/
  base : Url
  /-- The route by which it is asked. -/
  route : Route
  /-- The names that stand in the path. -/
  arguments : List String

/-- A target where the service answers. -/
def Connection.target (c : Connection) (route : Route) (arguments : List String) : Target :=
  ⟨c, c.base, route, arguments⟩

/-- A target where the service takes uploads. -/
def Connection.uploadTarget (c : Connection) (route : Route) (arguments : List String) : Target :=
  ⟨c, c.uploadBase, route, arguments⟩

/-- A target with the name of an object alone. -/
def Handle.target {r : Resource} (h : Handle r) (route : Route) : Target :=
  h.connection.target route [h.id]

namespace Inquiry

/-- Where something is asked. -/
def target : {α : Type} → Inquiry α → Target
  | _, .info (r := r) h _ routed => h.target (r.route routed)
  | _, .update (r := r) h _ editable =>
    h.target (r.route (Resource.ne_fileVersion_of_isEditable editable))
  | _, .delete (r := r) h deletable =>
    h.target (r.route (Resource.ne_fileVersion_of_isDeletable deletable))
  | _, .copy k h _ _ => h.target (.copies k)
  | _, .move k h _ _ | _, .rename k h _ | _, .share k h _ => h.target (.content k)
  | _, .createMetadata k h place _ | _, .getMetadata k h place | _, .deleteMetadata k h place =>
    h.connection.target (.metadataInstance k) [h.id, place.scope, place.template]
  | _, .updateMetadata k h m =>
    h.connection.target (.metadataInstance k)
      (h.id :: m.place?.elim [] fun place => [place.scope, place.template])
  | _, .lock h _ _ | _, .unlock h => h.target (.content .file)
  | _, .download h | _, .downloadRange h _ => h.target .fileBytes
  | _, .uploadVersion h _ _ => h.connection.uploadTarget .fileBytes [h.id]
  | _, .versions h => h.target .fileVersions
  | _, .deleteVersion version file =>
    version.connection.target .fileVersion [file.id, version.id]
  | _, .promote version file => version.connection.target .currentVersion [file.id]
  | _, .downloadVersion version file => version.connection.target .fileBytes [file.id]
  | _, .createFolder h _ => h.connection.target .folders []
  | _, .deleteFolder h _ => h.target (.content .folder)
  | _, .itemRange h _ _ _ => h.target .folderItems
  | _, .createWebLink h _ _ _ => h.connection.target .webLinks []
  | _, .uploadFile h _ => h.connection.uploadTarget .uploads []
  | _, .createHold c _ => c.target .legalHolds []
  | _, .assignHold c _ _ _ => c.target .holdAssignments []
  | _, .hold h _ => h.connection.target .holdAssignments []
  | _, .createPolicy c _ _ => c.target .retentionPolicies []
  | _, .assignPolicy c _ _ _ => c.target .policyAssignments []
  | _, .retainEnterprise h | _, .retainFolder h _ => h.connection.target .policyAssignments []
  | _, .addTask h _ _ _ => h.connection.target .tasks []
  | _, .tasks h _ => h.target .fileTasks
  | _, .assignTask h _ => h.connection.target .taskAssignments []
  | _, .taskAssignments h => h.target .assignmentsOfTask
  | _, .getTemplate c template scope _ | _, .deleteTemplate c scope template =>
    c.target .schema [scope, template]
  | _, .createTemplate c _ => c.target .schemas []

/-- Why something is not asked, whatever the address would be. -/
def refusal? : {α : Type} → Inquiry α → Option Refusal
  | _, .downloadRange _ range => range.refusal?
  | _, .updateMetadata _ _ m =>
    match m.place? with
    | some _ => none
    | none => some .unnamedMetadata
  | _, _ => none

/-- Whether something cannot be asked: a step in a path is given for a name, a range of bytes ends
before it begins, or metadata are changed that do not say where they are kept. -/
inductive IsFlawed : {α : Type} → Inquiry α → Prop where
  | step {α : Type} {inquiry : Inquiry α} {argument : String}
    (given : argument ∈ inquiry.target.arguments) (isStep : argument = "." ∨ argument = "..") :
    IsFlawed inquiry
  | emptyRange (h : Handle .file) {first last : Nat} (empty : last < first) :
    IsFlawed (downloadRange h ⟨first, some last⟩)
  | unnamed (k : Content) (h : Handle k.resource) {m : Metadata}
    (unnamed : m.scope? = none ∨ m.template? = none) : IsFlawed (updateMetadata k h m)

end Inquiry

/-- The request of an operation, if it sends one. -/
def Operation.request? (operation : Operation α) : Option Request :=
  operation.toOption.map Call.request

/-- Whether a request goes out to a target: in the name of its connection, and to the address where
its route stands behind the directory of its base, with a segment for each of its names. -/
structure Request.GoesTo (request : Request) (target : Target) : Prop where
  token : request.token = target.connection.token
  userAgent : request.userAgent = target.connection.userAgent
  address : ∃ (segments : List (List Char)) (query : Query),
    Fills target.route.endpoint.pieces target.arguments segments ∧
    request.url = { target.base with
      path := .segments (target.base.directory ++ segments)
      query := if query.isEmpty then none else some query.chars
      fragment := none }

/-- An empty query changes nothing about an address. -/
theorem Endpoint.buildWith_empty (endpoint : Endpoint) (base : Url) (arguments : List String) :
    endpoint.buildWith base Query.empty.chars arguments = endpoint.build base arguments := by
  rw [buildWith]
  -- An address that is built stays as it is, and a refusal stays the same.
  cases endpoint.build base arguments <;> rfl

namespace Target

/-- Whether what is sent to an address is sent there, and in the name of the connection. -/
def IsServedBy (target : Target) (send : Url → Call α) : Prop :=
  ∀ url, (send url).request.url = url ∧ (send url).request.token = target.connection.token ∧
    (send url).request.userAgent = target.connection.userAgent

/-- Whether an operation sends something to the address of a target and to no other. -/
def IsAskedBy (target : Target) (operation : Operation α) : Prop :=
  target.arguments.length = target.route.arity ∧ ∃ (query : Query) (send : Url → Call α),
    operation =
      (target.route.endpoint.buildWith target.base query.chars target.arguments).map send ∧
    target.IsServedBy send

variable {target : Target} {operation : Operation α} {query : Query} {send : Url → Call α}

/-- A request with a query is sent to a target. -/
theorem isAskedBy_buildWith (enough : target.arguments.length = target.route.arity)
    (sends : target.IsServedBy send) :
    target.IsAskedBy ((target.route.endpoint.buildWith target.base query.chars
      target.arguments).map send) :=
  ⟨enough, query, send, rfl, sends⟩

/-- A request without a query is sent to a target. -/
theorem isAskedBy_build (enough : target.arguments.length = target.route.arity)
    (sends : target.IsServedBy send) :
    target.IsAskedBy ((target.route.endpoint.build target.base target.arguments).map send) := by
  rw [← Endpoint.buildWith_empty]
  exact isAskedBy_buildWith enough sends

/-- A target has no address if one of its names is a step in a path, and otherwise the one where its
route stands behind the directory of its base, with a query unless that is empty. -/
theorem address_cases (target : Target) (query : Query)
    (enough : target.arguments.length = target.route.arity) (has : target.base.HasSegments)
    (web : isFileScheme target.base.scheme = false) :
    ((∃ argument ∈ target.arguments, argument = "." ∨ argument = "..") ∧ ∃ refusal,
      target.route.endpoint.buildWith target.base query.chars target.arguments =
        .error (.refused refusal)) ∨
    ((¬ ∃ argument ∈ target.arguments, argument = "." ∨ argument = "..") ∧ ∃ segments,
      Fills target.route.endpoint.pieces target.arguments segments ∧
      target.route.endpoint.buildWith target.base query.chars target.arguments =
        .ok { target.base with
          path := .segments (target.base.directory ++ segments)
          query := if query.isEmpty then none else some query.chars
          fragment := none }) := by
  -- The names are looked at before anything else, and the first that is a step decides.
  cases found : target.arguments.find? isDotSegment with
  | some step =>
    have refused := target.route.takes.build_refused enough found target.base
    refine Or.inl ⟨⟨step, List.mem_of_find?_eq_some found,
      isDotSegment_iff.mp (List.find?_some found)⟩, .dotSegment step, ?_⟩
    rw [Endpoint.buildWith, refused]
    rfl
  | none =>
    obtain ⟨parts, path⟩ := has
    -- Without steps the address is built, so that nothing is left that could fail.
    obtain ⟨segments, fills, built⟩ := target.route.takes.build_behind enough found path web
    refine Or.inr ⟨?_, segments, fills, query.buildWith_chars built rfl⟩
    rintro ⟨argument, given, isStep⟩
    exact List.find?_eq_none.mp found argument given (isDotSegment_iff.mpr isStep)

/-- What is asked at a target is refused if one of its names is a step in a path, and otherwise a
request goes out to it. -/
theorem IsAskedBy.run_cases (asked : target.IsAskedBy operation)
    (has : target.base.HasSegments) (web : isFileScheme target.base.scheme = false) :
    ((∃ argument ∈ target.arguments, argument = "." ∨ argument = "..") ∧
      ∃ refusal, operation = .error (.refused refusal)) ∨
    ((¬ ∃ argument ∈ target.arguments, argument = "." ∨ argument = "..") ∧
      ∃ call, operation = .ok call ∧ call.request.GoesTo target) := by
  obtain ⟨enough, query, send, rfl, sends⟩ := asked
  -- The names alone decide whether there is an address, and whoever asks makes the request of it.
  rcases target.address_cases query enough has web with
    ⟨step, refusal, refused⟩ | ⟨noStep, segments, fills, attached⟩
  · exact Or.inl ⟨step, refusal, congrArg (Except.map send) refused⟩
  · obtain ⟨url, token, userAgent⟩ := sends _
    exact Or.inr ⟨noStep, _, congrArg (Except.map send) attached,
      token, userAgent, segments, query, fills, url⟩

end Target

/-- The route to an object has a place for its name. -/
theorem Resource.arity_route {r : Resource} (routed : r ≠ .fileVersion) :
    (r.route routed).arity = 1 := by
  -- Only file versions have no route, and all others have one place.
  cases r with
  | fileVersion => exact absurd rfl routed
  | _ => rfl

namespace Inquiry

/-- What is not refused is asked at its target. -/
theorem isAskedBy_operation (inquiry : Inquiry α) (free : inquiry.refusal? = none) :
    inquiry.target.IsAskedBy inquiry.operation := by
  -- There are three forms: by the route of a kind, by a route with a query, and by one without.
  cases inquiry with
  | info | update | delete =>
    exact Target.isAskedBy_buildWith (Resource.arity_route _).symm fun _ => ⟨rfl, rfl, rfl⟩
  | copy | move | rename | share | lock | unlock | download | versions | deleteFolder | itemRange
  | tasks | taskAssignments | downloadVersion | getTemplate =>
    exact Target.isAskedBy_buildWith rfl fun _ => ⟨rfl, rfl, rfl⟩
  | createMetadata | getMetadata | deleteMetadata | uploadVersion | deleteVersion | promote
  | createFolder | createWebLink | uploadFile | createHold | assignHold | hold | createPolicy
  | assignPolicy | retainEnterprise | retainFolder | addTask | assignTask | createTemplate
  | deleteTemplate =>
    exact Target.isAskedBy_build rfl fun _ => ⟨rfl, rfl, rfl⟩
  -- Two look at more than the names, and have the second and the third form once they are free.
  | downloadRange h range =>
    have fine : range.refusal? = none := free
    rw [operation, Handle.downloadRange, fine]
    exact Target.isAskedBy_buildWith rfl fun _ => ⟨rfl, rfl, rfl⟩
  | updateMetadata k h m =>
    rw [refusal?] at free
    rw [operation, Content.updateMetadata_eq, target]
    -- The same place decides whether there are names and which, so it is generalised in both.
    generalize m.place? = place at free ⊢
    cases place with
    | none => cases free
    | some place => exact Target.isAskedBy_build rfl fun _ => ⟨rfl, rfl, rfl⟩

/-- What is refused is not sent. -/
theorem operation_of_refusal (inquiry : Inquiry α) {refusal : Refusal}
    (found : inquiry.refusal? = some refusal) :
    inquiry.operation = .error (.refused refusal) := by
  cases inquiry with
  -- Two of them may be refused by themselves: a range that is empty and an instance without a
  -- place.
  | downloadRange h range =>
    have refused : range.refusal? = some refusal := found
    rw [operation, Handle.downloadRange, refused]
  | updateMetadata k h m =>
    rw [refusal?] at found
    rw [operation, Content.updateMetadata_eq]
    generalize m.place? = place at found ⊢
    cases place with
    | none =>
      cases found
      rfl
    | some place => cases found
  | _ => cases found

/-- Just what is flawed by itself is refused, whatever names it has. -/
theorem isFlawed_iff (inquiry : Inquiry α) : inquiry.IsFlawed ↔
    (∃ argument ∈ inquiry.target.arguments, argument = "." ∨ argument = "..") ∨
      inquiry.refusal?.isSome = true := by
  constructor
  · intro flawed
    -- Each way to be flawed is one of the two, a name that is a step or what is refused by itself.
    cases flawed with
    | step given isStep => exact Or.inl ⟨_, given, isStep⟩
    | emptyRange h empty => exact Or.inr (by simp [refusal?, ByteRange.refusal?, empty])
    | @unnamed k h m unnamed =>
      refine Or.inr ?_
      rw [refusal?, Metadata.place?_eq_none_iff.mpr unnamed]
      rfl
  · rintro (⟨argument, given, isStep⟩ | refused)
    · exact .step given isStep
    · cases inquiry with
      -- A range without an end is never empty.
      | downloadRange h range =>
        obtain ⟨first, last⟩ := range
        cases last with
        | none => cases refused
        | some last =>
          by_cases empty : last < first
          · exact .emptyRange h empty
          · simp [refusal?, ByteRange.refusal?, empty] at refused
      | updateMetadata k h m =>
        rw [refusal?] at refused
        cases place : m.place? with
        | none => exact .unnamed k h (Metadata.place?_eq_none_iff.mp place)
        | some there =>
          rw [place] at refused
          cases refused
      | _ => cases refused

/-- Something is asked where the service answers, or where it takes uploads. -/
theorem base_target (inquiry : Inquiry α) :
    inquiry.target.base = inquiry.target.connection.base ∨
      inquiry.target.base = inquiry.target.connection.uploadBase := by
  cases inquiry with
  -- Uploads go to the base of their own, and all else to the other one.
  | uploadVersion | uploadFile => exact Or.inr rfl
  | _ => exact Or.inl rfl

/-- What is flawed is refused, and for anything else a request goes out to its target. -/
theorem operation_cases (inquiry : Inquiry α) (has : inquiry.target.base.HasSegments)
    (web : isFileScheme inquiry.target.base.scheme = false) :
    (inquiry.IsFlawed ∧ ∃ refusal, inquiry.operation = .error (.refused refusal)) ∨
      (¬ inquiry.IsFlawed ∧
        ∃ call, inquiry.operation = .ok call ∧ call.request.GoesTo inquiry.target) := by
  rw [isFlawed_iff]
  -- What is refused by itself never gets as far as its address.
  cases found : inquiry.refusal? with
  | some refusal => exact Or.inl ⟨Or.inr rfl, refusal, inquiry.operation_of_refusal found⟩
  | none =>
    rcases (inquiry.isAskedBy_operation found).run_cases has web with
      ⟨step, refused⟩ | ⟨noStep, sent⟩
    · exact Or.inl ⟨Or.inl step, refused⟩
    · refine Or.inr ⟨?_, sent⟩
      rintro (step | refused)
      · exact noStep step
      · cases refused

end Inquiry

/-- The outcome of a call whose answer is played, which has no body if its status never has one. -/
def Call.playedOutcome (call : Call α) (answer : Option Response) : Except Failure α :=
  call.outcome (answer.map fun r => if isBodiless r.status then { r with body := [] } else r)

/-- A script gives its first answer to a request in clear text. -/
theorem Call.run_scripted (call : Call α) (plain : call.request.url.isPlain = true)
    (answers : List (Option Response)) : call.run .scripted (.ofAnswers answers) =
      (call.playedOutcome answers.head?.join, ⟨answers.drop 1, [call.request]⟩) := by
  rw [run]
  -- In clear text the script is asked, and otherwise nobody is.
  simp only [Transport.scripted, if_pos plain]
  cases answers <;> rfl

/-- A request that goes out to a target is as plain as the base of the target. -/
theorem Request.GoesTo.isPlain {request : Request} {target : Target}
    (goes : request.GoesTo target) : request.url.isPlain = target.base.isPlain := by
  obtain ⟨segments, query, -, url⟩ := goes.address
  -- Going to a target changes the segments and the query, and neither is looked at.
  rw [url]
  rfl

/-- Whatever is asked through a connection in clear text is asked by one request at most, and by
none exactly if it is flawed, for which it is refused. The request is settled by what is asked and
through which connection, before there are answers: it goes out to the address that the route and
its names have. What comes of it depends on the first answer alone, and no transport is asked again.
-/
theorem Inquiry.asked_once {settings : Settings} {c : Connection}
    (connected : settings.connect = .ok c) (plain : c.base.isPlain = true)
    (plainUploads : c.uploadBase.isPlain = true) (inquiry : Inquiry α)
    (through : inquiry.target.connection = c) :
    let sent := inquiry.operation.request?
    (sent = none ↔ inquiry.IsFlawed) ∧
    (inquiry.IsFlawed → ∃ refusal, inquiry.operation = .error (.refused refusal)) ∧
    (∀ request ∈ sent, request.GoesTo inquiry.target) ∧
    (∃ outcome : Option Response → Except Failure α, ∀ answers : List (Option Response),
      inquiry.operation.run .scripted (.ofAnswers answers) =
        (outcome answers.head?.join, ⟨answers.drop sent.toList.length, sent.toList⟩)) ∧
    ∀ (σ : Type) (transport : Transport σ) (world : σ) (record : List Exchange),
      (inquiry.operation.run transport.traced (world, record)).2.2 = record ++
        sent.toList.map fun request => ⟨request, (transport.exchange request world).1⟩ := by
  intro sent
  obtain ⟨-, read, readUploads, -⟩ := Settings.connect_ok_iff.mp connected
  -- Both bases were read from texts, so routes lead on from either of them.
  obtain ⟨has, plainBase⟩ : inquiry.target.base.HasSegments ∧
      inquiry.target.base.isPlain = true := by
    rcases inquiry.base_target with base | base
    · rw [base, through]
      exact ⟨hasSegments_of_parseBase read plain, plain⟩
    · rw [base, through]
      exact ⟨hasSegments_of_parseBase readUploads plainUploads, plainUploads⟩
  rcases inquiry.operation_cases has (Url.special_of_isPlain plainBase).2 with
    ⟨flawed, refusal, refused⟩ | ⟨sound, call, asks, goes⟩
  · have none : sent = none := by
      rw [show sent = inquiry.operation.request? from rfl, refused]
      rfl
    rw [none, refused]
    refine ⟨iff_of_true rfl flawed, fun _ => ⟨refusal, rfl⟩,
      fun request isSent => absurd isSent (Option.not_mem_none request),
      ⟨fun _ => .error (.refused refusal), fun answers => rfl⟩, fun σ transport world record => ?_⟩
    exact (List.append_nil _).symm
  · have one : sent = some call.request := by
      rw [show sent = inquiry.operation.request? from rfl, asks]
      rfl
    rw [one, asks]
    have played := call.run_scripted (goes.isPlain.trans plainBase)
    refine ⟨iff_of_false (Option.some_ne_none _) sound, fun flawed => absurd flawed sound,
      fun request isSent => ?_, ⟨call.playedOutcome, played⟩, fun σ transport world record => ?_⟩
    · cases isSent
      exact goes
    · exact congrArg (fun ended => ended.2.2) (call.run_traced transport world record)

/-- Settings by which the service is reached in clear text. -/
def plainSettings : Settings :=
  { Settings.standard with
    baseUrl := "http://api.box.test/2.0/"
    uploadUrl := "http://upload.box.test/2.0/" }

/-- The connection of settings in clear text. -/
def plainConnection : Connection :=
  ⟨below "api.box.test", below "upload.box.test", "", "box-sdk-rust/0.1.0", 60⟩
where
  below (host : String) : Url :=
    ⟨"http".toList, some ⟨[], [], .domain host, none⟩, .segments ["2.0".toList, []], none, none⟩

theorem connect_plainSettings : plainSettings.connect = .ok plainConnection := by
  -- Both bases end in a slash already, and are read by computing.
  have base : Url.parse "http://api.box.test/2.0/" =
      .ok (plainConnection.below "api.box.test") := by
    cbv
  have uploadBase : Url.parse "http://upload.box.test/2.0/" =
      .ok (plainConnection.below "upload.box.test") := by
    cbv
  refine Settings.connect_ok_iff.mpr ⟨⟨rfl, by decide⟩, ?_, ?_, rfl, rfl, rfl⟩
  · rw [parseBase, show completedBase plainSettings.baseUrl = plainSettings.baseUrl from rfl]
    exact mapError_ok_iff.mpr base
  · rw [parseBase, show completedBase plainSettings.uploadUrl = plainSettings.uploadUrl from rfl]
    exact mapError_ok_iff.mpr uploadBase

/-- The deletion of a version of a file goes out, unless its name is a step in a path. -/
theorem asked_deleteVersion :
    let version (name : String) :=
      Inquiry.deleteVersion ⟨plainConnection, name⟩ ⟨plainConnection, "7"⟩
    (∃ request, (version "8").operation.request? = some request ∧
      request.GoesTo (version "8").target) ∧
    (version "..").operation.request? = none := by
  intro version
  obtain ⟨sent, -, goes, -⟩ :=
    Inquiry.asked_once connect_plainSettings rfl rfl (version "8") rfl
  obtain ⟨sentOther, -⟩ := Inquiry.asked_once connect_plainSettings rfl rfl (version "..") rfl
  have sound : ¬ (version "8").IsFlawed := by
    rw [Inquiry.isFlawed_iff]
    rintro (⟨argument, given, isStep⟩ | refused)
    · -- There are two names to look at.
      revert argument
      decide
    · cases refused
  have flawed : (version "..").IsFlawed :=
    .step (List.mem_cons_of_mem _ List.mem_cons_self) (Or.inr rfl)
  obtain ⟨request, isSent⟩ := Option.ne_none_iff_exists'.mp (sound ∘ sent.mp)
  exact ⟨⟨request, isSent, goes request isSent⟩, sentOther.mpr flawed⟩

end ContentApi
