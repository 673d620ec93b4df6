import ContentApi.Proofs.Listing.Filters

/-! Who asks is shown in one header of every request: by the token, unless the address of the
service holds a name or a password. Nothing else that is sent, answered or shown depends on the
token. -/

namespace ContentApi

variable {σ : Type} {s : Shape}

section

variable {transport : Transport σ} {I : σ → Prop}

/-- A call leaves alone what its exchange leaves alone. -/
theorem Call.run_preserves {α : Type} (call : Call α)
    (keeps : ∀ world, I world → I (transport.exchange call.request world).2) {world : σ}
    (holds : I world) : I (call.run transport world).2 :=
  keeps world holds

/-- Entries are gathered by asking for pages and for nothing else. -/
theorem Listing.gatherFrom_preserves (l : Listing s)
    (keeps : ∀ cursor world, I world → I (transport.exchange (l.page cursor).request world).2)
    (enough : Nat → Bool) (pages : Nat) (cursor : Option Cursor) (gathered : List (Datum s))
    {world : σ} (holds : I world) :
    I (l.gatherFrom transport enough pages cursor gathered world).2 := by
  -- Each page that is asked for leads to the next one, of which there are at most so many.
  induction pages generalizing cursor gathered world with
  | zero => cases cursor <;> exact holds
  | succ pages ih =>
    cases cursor with
    | none => exact holds
    | some cursor =>
      have kept := (l.page cursor).run_preserves (keeps cursor) holds
      rcases ran : (l.page cursor).run transport world with ⟨failure | page, after⟩ <;>
        rw [ran] at kept
      · rw [gatherFrom_error l ran]
        exact kept
      · rw [gatherFrom_ok l ran]
        split
        · exact kept
        · exact ih page.next _ kept

/-- The next entry of a walk is had by asking for pages of its listing, which stays the same. -/
theorem Walk.next_preserves (w : Walk s)
    (keeps : ∀ cursor world, I world →
      I (transport.exchange (w.listing.page cursor).request world).2)
    (allowed : Nat) {world : σ} (holds : I world) :
    (w.next transport allowed world).2.1.listing = w.listing ∧
      I (w.next transport allowed world).2.2 := by
  obtain ⟨l, buffer, cursor⟩ := w
  induction allowed generalizing buffer cursor world with
  | zero => cases buffer <;> cases cursor <;> exact ⟨rfl, holds⟩
  | succ allowed ih =>
    cases buffer with
    | cons entry rest => exact ⟨rfl, holds⟩
    | nil =>
      cases cursor with
      | none => exact ⟨rfl, holds⟩
      | some cursor =>
        have kept := (l.page cursor).run_preserves (keeps cursor) holds
        -- A page without entries leads to the next one, for which the same is known.
        rcases ran : (l.page cursor).run transport world with ⟨failure | page, after⟩ <;>
          rw [ran] at kept
        · rw [next_failed ran]
          exact ⟨rfl, kept⟩
        · rw [next_fetched ran]
          exact ih kept page.entries page.next keeps

/-- However often an entry is asked for, pages of the one listing are asked for. -/
theorem Walk.pulls_preserves (w : Walk s)
    (keeps : ∀ cursor world, I world →
      I (transport.exchange (w.listing.page cursor).request world).2)
    (allowed pulls : Nat) {world : σ} (holds : I world) :
    I (w.pulls transport allowed pulls world).2.2 := by
  -- The induction is on the entries that are asked for, and the listing stays the same.
  induction pulls generalizing w world with
  | zero => exact holds
  | succ others ih =>
    obtain ⟨same, kept⟩ := w.next_preserves keeps allowed holds
    exact ih _ (by rwa [same]) kept

end

/-- A script records the requests that are made, and no others. -/
theorem Transport.scripted_records {P : Request → Prop} {request : Request} {script : Script}
    (holds : P request) (made : ∀ r ∈ script.requests, P r) :
    ∀ r ∈ (scripted.exchange request script).2.requests, P r := by
  obtain ⟨answers, requests⟩ := script
  -- The new request is put behind those that were recorded.
  have more : ∀ r ∈ requests ++ [request], P r := by
    intro r inside
    rcases List.mem_append.mp inside with before | last
    · exact made r before
    · rwa [List.mem_singleton.mp last]
  simp only [scripted]
  split
  · cases answers <;> exact more
  · exact made

/-- A traced transport records the exchanges that are made, and no others. -/
theorem Transport.traced_records {transport : Transport σ} {P : Request → Prop} {request : Request}
    {state : σ × List Exchange} (holds : P request) (made : ∀ e ∈ state.2, P e.request) :
    ∀ e ∈ (transport.traced.exchange request state).2.2, P e.request := by
  -- The new exchange is put behind those that were recorded.
  intro e inside
  rcases List.mem_append.mp inside with before | last
  · exact made e before
  · rwa [List.mem_singleton.mp last]

/-- Whether a request is for where the service answers or takes uploads, under whatever name that is
to be asked. -/
def Request.IsFor (r : Request) (c : Connection) : Prop :=
  r.url.authority = c.base.authority ∨ r.url.authority = c.uploadBase.authority

/-- A request for the service shows a name and a password if the base does that it goes to. -/
theorem Request.IsFor.credentials?_eq {r : Request} {c : Connection} (isFor : r.IsFor c) :
    r.url.credentials? = c.base.credentials? ∨
      r.url.credentials? = c.uploadBase.credentials? := by
  -- What is shown stands before the host, in a part that no path or query changes.
  rcases isFor with same | same
  · exact Or.inl (by rw [Url.credentials?, same, Url.credentials?])
  · exact Or.inr (by rw [Url.credentials?, same, Url.credentials?])

/-- Whether both bases of a connection are in the web, where every path has segments. -/
structure Connection.IsWeb (c : Connection) : Prop where
  base : c.base.IsWeb ∧ c.base.HasSegments
  uploadBase : c.uploadBase.IsWeb ∧ c.uploadBase.HasSegments

/-- The bases of a connection in the web have segments, as they were read from texts. -/
theorem Settings.isWeb_of_connect {settings : Settings} {c : Connection}
    (connected : settings.connect = .ok c) (web : c.base.IsWeb) (webUploads : c.uploadBase.IsWeb) :
    c.IsWeb := by
  -- Both bases were read from texts, and an address of the web is read with segments.
  obtain ⟨-, read, readUploads, -⟩ := connect_ok_iff.mp connected
  exact ⟨⟨web, web.hasSegments read⟩, ⟨webUploads, webUploads.hasSegments readUploads⟩⟩

/-- What is asked through another connection is asked at that. -/
theorem Inquiry.connection_target_via {α : Type} (inquiry : Inquiry α) (c : Connection) :
    (inquiry.via c).target.connection = c := by
  cases inquiry <;> rfl

/-- What is surveyed through another connection is surveyed at that. -/
theorem Survey.connection_target_via (survey : Survey s) (c : Connection) :
    (survey.via c).target.connection = c := by
  cases survey <;> rfl

section

variable {c : Connection} (web : c.IsWeb)

include web

/-- What is asked through a connection is asked of its service. -/
theorem Inquiry.isFor_of_operation {α : Type} (inquiry : Inquiry α) {call : Call α}
    (asked : (inquiry.via c).operation = .ok call) : call.request.IsFor c := by
  have through := inquiry.connection_target_via c
  have based := (inquiry.via c).base_target
  rw [through] at based
  -- The base is one of two, and routes lead on from both.
  obtain ⟨onWeb, has⟩ : (inquiry.via c).target.base.IsWeb ∧
      (inquiry.via c).target.base.HasSegments := by
    rcases based with base | base <;> rw [base]
    · exact web.base
    · exact web.uploadBase
  rcases (inquiry.via c).operation_cases has (IsWebScheme.special onWeb).2 with
    ⟨-, refusal, refused⟩ | ⟨-, sent, sends, goes⟩
  · rw [refused] at asked
    cases asked
  · cases asked.symm.trans sends
    obtain ⟨segments, query, -, url⟩ := goes.address
    have authority : call.request.url.authority = (inquiry.via c).target.base.authority := by
      rw [url]
    rw [Request.IsFor, authority]
    exact based.imp (congrArg Url.authority) (congrArg Url.authority)

/-- The pages of what is surveyed through a connection are asked of its service. -/
theorem Survey.isFor_page (survey : Survey s) {l : Listing s}
    (listed : (survey.via c).listing = .ok l) (cursor : Cursor) :
    (l.page cursor).request.IsFor c := by
  obtain ⟨address, built, -, -, same, -⟩ := Survey.exists_address listed
  have based := (survey.via c).base_target
  rw [survey.connection_target_via] at based
  have has : (survey.via c).target.base.HasSegments := based ▸ web.base.2
  have notFile : isFileScheme (survey.via c).target.base.scheme = false :=
    based ▸ (IsWebScheme.special web.base.1).2
  -- The address of the listing stands behind the base, and its pages differ in their queries alone.
  rcases (survey.via c).target.address_cases Query.empty (survey.via c).length_arguments has
    notFile with ⟨-, refusal, refused⟩ | ⟨-, segments, -, attached⟩
  · rw [Endpoint.buildWith_empty, built] at refused
    cases refused
  · rw [Endpoint.buildWith_empty, built] at attached
    cases attached
    have authority : l.url.authority = (survey.via c).target.base.authority := by
      injection same
    rw [based] at authority
    exact Or.inl authority

/-- Whatever is done through a connection leaves alone what the exchanges with its service leave
alone. -/
theorem Errand.run_preserves {transport : Transport σ} {I : σ → Prop}
    (keeps : ∀ request world, request.IsFor c → I world → I (transport.exchange request world).2)
    {β : Type} (errand : Errand β) {world : σ} (holds : I world) :
    I ((errand.via c).run transport world).2 := by
  -- A single question makes one exchange, and a listing one for each page.
  have asked : ∀ {α : Type} (inquiry : Inquiry α),
      I ((inquiry.via c).operation.run transport world).2 := by
    intro α inquiry
    cases asks : (inquiry.via c).operation with
    | error failure => exact holds
    | ok call =>
      exact call.run_preserves (fun world => keeps _ world (inquiry.isFor_of_operation web asks))
        holds
  cases errand with
  | ask inquiry => exact asked inquiry
  | send h s editable =>
    have kept := asked (.update h s editable)
    rw [via, run, Handle.sendChanges]
    rcases ran : ((h.via c).update s editable).run transport world with ⟨_ | _, after⟩ <;>
      rw [show ((Inquiry.update h s editable).via c).operation.run transport world = _ from ran]
        at kept <;>
      exact kept
  | gather survey enough pages =>
    rw [via, run]
    cases listed : (survey.via c).listing with
    | error failure => exact holds
    | ok l =>
      exact l.gatherFrom_preserves
        (fun cursor world => keeps _ world (survey.isFor_page web listed cursor)) enough pages _ _
        holds
  | pull survey allowed pulls =>
    rw [via, run]
    cases listed : (survey.via c).listing with
    | error failure => exact holds
    | ok l =>
      exact l.walk.pulls_preserves
        (fun cursor world => keeps _ world (survey.isFor_page web listed cursor)) allowed pulls
        holds

end

namespace Request

/-- Whether two requests are the same but for the header that shows who asks. That shows the one and
the other token, unless it shows a name or a password in the address, which it does for both. -/
structure AlikeBut (token other : String) (first second : Request) : Prop where
  method : first.method = second.method
  url : first.url = second.url
  body : first.body = second.body
  headers : ∀ boundary, (first.headers boundary).filter (·.1 ≠ "authorization") =
    (second.headers boundary).filter (·.1 ≠ "authorization")
  bearer : first.url.credentials? = none → ∀ boundary,
    (first.headers boundary).filter (·.1 = "authorization") =
      [("authorization", "Bearer " ++ token)] ∧
    (second.headers boundary).filter (·.1 = "authorization") =
      [("authorization", "Bearer " ++ other)]
  basic : ∀ known, first.url.credentials? = some known → ∀ boundary,
    (first.headers boundary).filter (·.1 = "authorization") = [("authorization", known.basic)] ∧
    (second.headers boundary).filter (·.1 = "authorization") = [("authorization", known.basic)]

variable (r : Request) (boundary : String)

/-- No other header has the name of the one that shows who asks. -/
theorem name_ne_authorization {header : String × String}
    (inside : header ∈ r.otherHeaders boundary) : header.1 ≠ "authorization" := by
  rintro shown
  -- The names are fixed whatever the request holds, so that they can be looked at.
  have names : ∀ name ∈ (r.otherHeaders boundary).map Prod.fst, name ≠ "authorization" := by
    obtain ⟨method, url, token, userAgent, range, body⟩ := r
    cases range <;> cases body <;> simp [otherHeaders, RequestBody.contentType?]
  exact names _ (List.mem_map_of_mem inside) shown

/-- One header at most shows who asks. -/
theorem filter_authorization : (r.headers boundary).filter (·.1 = "authorization") =
    r.authorization?.toList.map fun words => ("authorization", words) := by
  -- Only the header in front is left, which is there if the request shows who asks.
  have unshown : (r.otherHeaders boundary).filter (·.1 = "authorization") = [] :=
    List.filter_eq_nil_iff.mpr fun header inside => by
      simpa using r.name_ne_authorization boundary inside
  rw [headers, List.filter_append, unshown, List.append_nil]
  cases r.authorization? <;> rfl

/-- All other headers are left where that one is taken out. -/
theorem filter_ne_authorization :
    (r.headers boundary).filter (·.1 ≠ "authorization") = r.otherHeaders boundary := by
  -- Nothing but the header in front is taken out.
  have others : (r.otherHeaders boundary).filter (·.1 ≠ "authorization") =
      r.otherHeaders boundary :=
    List.filter_eq_self.mpr fun header inside => by
      simpa using r.name_ne_authorization boundary inside
  rw [headers, List.filter_append, others]
  cases r.authorization? <;> rfl

/-- Without a name and a password in the address a request shows the token in whose name it is. -/
theorem authorization?_withToken (unknown : r.url.credentials? = none) {token : String}
    (given : token ≠ "") : (r.withToken token).authorization? = some ("Bearer " ++ token) := by
  -- The token is no part of the address.
  have same : (r.withToken token).url.credentials? = none := unknown
  rw [authorization?, same]
  simp [withToken, given]

/-- A request in two names is the same but for the header that shows them, if it does. -/
theorem alikeBut_withToken {token other : String} (given : token ≠ "") (otherGiven : other ≠ "") :
    AlikeBut token other (r.withToken token) (r.withToken other) := by
  refine ⟨rfl, rfl, rfl, fun boundary => ?_, fun unknown boundary => ?_,
    fun known shown boundary => ?_⟩
  · rw [filter_ne_authorization, filter_ne_authorization]
    rfl
  · rw [filter_authorization, filter_authorization, r.authorization?_withToken unknown given,
      r.authorization?_withToken unknown otherGiven]
    exact ⟨rfl, rfl⟩
  · -- Whatever the token is, the address decides.
    have decided (name : String) : (r.withToken name).authorization? = some known.basic := by
      have same : (r.withToken name).url.credentials? = some known := shown
      rw [authorization?, same]
    rw [filter_authorization, filter_authorization, decided, decided]
    exact ⟨rfl, rfl⟩

end Request

/-- Whatever is done through two connections that differ in their tokens comes to the same, be it a
success or a failure, whether a script is played or any transport answers that does not look at who
asks. The same requests are made, but for the header that shows who asks: the token, unless the
address of the request holds a name or a password, which are shown in its place. The address holds
them if the base does that it stands behind, where both bases are in the web. The connections are
displayed alike. -/
theorem Errand.tokens_shown_alone {settings : Settings} {token other : String}
    (given : token ≠ "") (otherGiven : other ≠ "") {c otherC : Connection}
    (connected : { settings with token := token }.connect = .ok c)
    (otherConnected : { settings with token := other }.connect = .ok otherC) :
    c.describe = otherC.describe ∧
    (∀ (β : Type) (errand : Errand β) (answers : List (Option Response)),
      let ran := (errand.via c).run .scripted (.ofAnswers answers)
      let ranOther := (errand.via otherC).run .scripted (.ofAnswers answers)
      ran.1 = ranOther.1 ∧ ran.2.answers = ranOther.2.answers ∧
        List.Forall₂ (Request.AlikeBut token other) ran.2.requests ranOther.2.requests) ∧
    (∀ (β : Type) (errand : Errand β) (σ : Type) (transport : Transport σ) (world : σ),
      transport.IsBlind →
      let ran := (errand.via c).run transport.traced (world, [])
      let ranOther := (errand.via otherC).run transport.traced (world, [])
      ran.1 = ranOther.1 ∧ ran.2.1 = ranOther.2.1 ∧
        List.Forall₂ (fun exchange exchangeOther => exchange.answer = exchangeOther.answer ∧
          Request.AlikeBut token other exchange.request exchangeOther.request)
          ran.2.2 ranOther.2.2) ∧
    (c.base.IsWeb → c.uploadBase.IsWeb → ∀ (β : Type) (errand : Errand β),
      (∀ answers, ∀ request ∈ ((errand.via c).run .scripted (.ofAnswers answers)).2.requests,
        request.url.credentials? = c.base.credentials? ∨
          request.url.credentials? = c.uploadBase.credentials?) ∧
      ∀ (σ : Type) (transport : Transport σ) (world : σ),
        ∀ exchange ∈ ((errand.via c).run transport.traced (world, [])).2.2,
          exchange.request.url.credentials? = c.base.credentials? ∨
            exchange.request.url.credentials? = c.uploadBase.credentials?) := by
  -- The second connection is the first one in the other name.
  obtain ⟨⟨otherSendable, -⟩, -⟩ := Settings.connect_ok_iff.mp otherConnected
  cases otherConnected.symm.trans (Settings.connect_withToken connected otherSendable)
  have self : c = c.withToken token := by
    obtain ⟨-, -, -, rfl, -⟩ := Settings.connect_ok_iff.mp connected
    rfl
  refine ⟨rfl, fun β errand answers => ?_, fun β errand σ transport world blind => ?_,
    fun web webUploads β errand => ⟨fun answers => ?_, fun σ transport world => ?_⟩⟩
  · obtain ⟨result, after, ran, ranOther⟩ := errand.exists_run_via
      (Transport.scripted_overlooks token) (Transport.scripted_overlooks other) c
      (.ofAnswers answers) rfl rfl
    rw [← self] at ran
    rw [ran, ranOther]
    refine ⟨rfl, rfl, List.forall₂_map_left_iff.mpr (List.forall₂_map_right_iff.mpr
      (List.forall₂_same.mpr fun request _ => ?_))⟩
    exact request.alikeBut_withToken given otherGiven
  · obtain ⟨result, after, ran, ranOther⟩ := errand.exists_run_via
      (blind.traced_overlooks token) (blind.traced_overlooks other) c (world, []) rfl rfl
    rw [← self] at ran
    rw [ran, ranOther]
    refine ⟨rfl, rfl, List.forall₂_map_left_iff.mpr (List.forall₂_map_right_iff.mpr
      (List.forall₂_same.mpr fun exchange _ => ⟨rfl, ?_⟩))⟩
    exact exchange.request.alikeBut_withToken given otherGiven
  -- What is recorded, by a script or by any other transport, is for the service of the connection.
  · have kept : ∀ request ∈ ((errand.via c).run .scripted (.ofAnswers answers)).2.requests,
        request.IsFor c :=
      Errand.run_preserves (Settings.isWeb_of_connect connected web webUploads)
        (I := fun script : Script => ∀ request ∈ script.requests, request.IsFor c)
        (fun _ _ => Transport.scripted_records (P := (·.IsFor c))) errand
        (by simp [Script.ofAnswers])
    exact fun request made => (kept request made).credentials?_eq
  · have kept : ∀ exchange ∈ ((errand.via c).run transport.traced (world, [])).2.2,
        exchange.request.IsFor c :=
      Errand.run_preserves (Settings.isWeb_of_connect connected web webUploads)
        (I := fun state : σ × List Exchange => ∀ exchange ∈ state.2, exchange.request.IsFor c)
        (fun _ _ => Transport.traced_records (P := (·.IsFor c))) errand (by simp)
    exact fun exchange made => (kept exchange made).credentials?_eq

/-- The deletion of a version of a file. -/
def deletion (c : Connection) : Errand (Except Failure Unit) :=
  .ask (.deleteVersion ⟨c, "8"⟩ ⟨c, "7"⟩)

/-- A deletion comes to the same in two names, whether it is answered or nobody is reached, and is
asked for by the same request but for one header, in which the names stand. -/
theorem Errand.tokens_shown_deletion :
    let ran (token : String) := (deletion (plainConnection.withToken token)).run
      .scripted (.ofAnswers [some ⟨204, []⟩])
    let failed (token : String) := (deletion (plainConnection.withToken token)).run
      Transport.unreachable.traced ((), [])
    (ran "spring").1 = .ok () ∧ (ran "autumn").1 = .ok () ∧
    (failed "spring").1 = .error .transport ∧ (failed "autumn").1 = .error .transport ∧
    ∃ request requestOther, (ran "spring").2.requests = [request] ∧
      (ran "autumn").2.requests = [requestOther] ∧
      request.AlikeBut "spring" "autumn" requestOther ∧
      (request.headers "").filter (·.1 = "authorization") =
        [("authorization", "Bearer spring")] := by
  intro ran failed
  obtain ⟨-, scripted, blind, shown⟩ := @Errand.tokens_shown_alone plainSettings "spring" "autumn"
    (by decide) (by decide) _ _
    (Settings.connect_withToken connect_plainSettings (by decide))
    (Settings.connect_withToken connect_plainSettings (by decide))
  obtain ⟨same, -, alike⟩ := scripted _ (deletion plainConnection) [some ⟨204, []⟩]
  obtain ⟨sameFailure, -⟩ :=
    blind _ (deletion plainConnection) Unit .unreachable () fun _ _ _ => rfl
  have deleted : (ran "spring").1 = .ok () := rfl
  have unreached : (failed "spring").1 = .error .transport := rfl
  -- Neither base holds a name or a password, so no request does.
  have unnamed : ∀ request ∈ (ran "spring").2.requests, request.url.credentials? = none := by
    have base : plainConnection.base.credentials? = none := by cbv
    have uploadBase : plainConnection.uploadBase.credentials? = none := by cbv
    obtain ⟨named, -⟩ := shown (Or.inl rfl) (Or.inl rfl) _ (deletion plainConnection)
    intro request made
    rcases named [some ⟨204, []⟩] request made with atBase | atUploads
    · exact atBase.trans base
    · exact atUploads.trans uploadBase
  refine ⟨deleted, same ▸ deleted, unreached, sameFailure ▸ unreached, _, _, rfl, rfl, ?_⟩
  cases alike with
  | cons request _ =>
    exact ⟨request, (request.bearer (unnamed _ List.mem_cons_self) "").1⟩

/-- Settings by which the service is reached as a guest. -/
def guestSettings : Settings :=
  { plainSettings with baseUrl := "http://u:p@h/2.0/", token := "spring" }

/-- The connection of a guest. -/
def guestConnection : Connection :=
  { plainConnection with base := below [[]], token := "spring" }
where
  below (segments : List (List Char)) : Url :=
    ⟨"http".toList, some ⟨['u'], ['p'], .domain "h", none⟩, .segments ("2.0".toList :: segments),
      none, none⟩

theorem connect_guestSettings : guestSettings.connect = .ok guestConnection := by
  obtain ⟨-, -, uploadBase, -⟩ := Settings.connect_ok_iff.mp connect_plainSettings
  refine Settings.connect_ok_iff.mpr ⟨⟨by decide, by decide⟩, ?_, uploadBase, rfl, rfl, rfl⟩
  -- The base ends in a slash already, and is read by computing.
  have base : Url.parse "http://u:p@h/2.0/" = .ok guestConnection.base := by cbv
  rw [parseBase, show completedBase guestSettings.baseUrl = guestSettings.baseUrl from rfl]
  exact mapError_ok_iff.mpr base

/-- A guest is shown by a name and a password, and no token is shown. -/
theorem Errand.token_unshown_guest : guestSettings.connect = .ok guestConnection ∧
    let ran := (deletion guestConnection).run .scripted (.ofAnswers [some ⟨204, []⟩])
    ran.1 = .ok () ∧ ∃ request, ran.2.requests = [request] ∧
      request.target.render = "http://h/2.0/files/7/versions/8" ∧
      (request.headers "").filter (·.1 = "authorization") = [("authorization", "Basic dTpw")] := by
  refine ⟨connect_guestSettings, ?_⟩
  let address := guestConnection.below
    ["files".toList, "7".toList, "versions".toList, "8".toList]
  have built : Route.fileVersion.endpoint.build guestConnection.base ["7", "8"] = .ok address := by
    cbv
  have ran : (deletion guestConnection).run .scripted (.ofAnswers [some ⟨204, []⟩]) =
      (.ok (), ⟨[], [guestConnection.request .delete address .empty]⟩) := by
    rw [deletion, Errand.run, Inquiry.operation, Handle.deleteVersion, built]
    rfl
  have url : (guestConnection.request .delete address .empty).url = address := rfl
  have known : address.credentials? = some ⟨"u", some "p"⟩ := by cbv
  have basic : (Credentials.mk "u" (some "p")).basic = "Basic dTpw" := by cbv
  rw [ran]
  refine ⟨rfl, _, rfl, ?_, ?_⟩
  · -- The name and the password are taken out of the address, and stand in the header.
    rw [Request.target, url, known]
    rfl
  · rw [Request.filter_authorization, Request.authorization?, url, known, ← basic]
    rfl

end ContentApi
