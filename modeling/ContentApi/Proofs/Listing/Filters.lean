import ContentApi.Proofs.Calendar.Timestamps
import ContentApi.Proofs.Listing.Exchanges
import ContentApi.Proofs.Operation.Tokens

/-! Every page of a listing is asked for with the filters that are set, however many pages were
asked for before it. -/

namespace ContentApi

variable {s : Shape} {σ : Type}

namespace Survey

/-- Where a survey is made. -/
def target : {s : Shape} → Survey s → Target
  | _, .holds c _ _ _ => c.target .legalHolds []
  | _, .policies c _ _ _ => c.target .retentionPolicies []
  | _, .versionRetentions c _ _ _ => c.target .versionRetentions []
  | _, .templates c scope _ _ => c.target .templates [scope]
  | _, .children h _ _ => h.target .folderItems
  | _, .holdAssignments h _ _ _ => h.target .assignmentsOfHold
  | _, .policyAssignments h _ _ _ => h.target .assignmentsOfPolicy
  | _, .allMetadata k h _ _ => h.target (.metadata k)

/-- The filters of a survey with their texts, of which those count that are set. -/
def filters : {s : Shape} → Survey s → List (String × Option String)
  | _, .holds _ name _ _ => [("policy_name", name)]
  | _, .policies _ filter _ _ =>
    [("policy_name", filter.name), ("policy_type", filter.type.map Word.text),
      ("created_by_user_id", filter.creator)]
  | _, .versionRetentions _ filter _ _ =>
    [("file_id", filter.file), ("file_version_id", filter.version), ("policy_id", filter.policy),
      ("disposition_action", filter.action.map Word.text),
      ("disposition_before", filter.before.map Timestamp.format),
      ("disposition_after", filter.after.map Timestamp.format)]
  | _, .holdAssignments _ filter _ _ =>
    [("assign_to_type", filter.type), ("assign_to_id", filter.id)]
  | _, .policyAssignments _ type _ _ => [("type", type)]
  | _, .templates _ _ _ _ | _, .children _ _ _ | _, .allMetadata _ _ _ _ => []

/-- The members that the entries of a survey are to have, where they are not to have them all. -/
def fields : {s : Shape} → Survey s → List String
  | _, .holds _ _ _ fields | _, .policies _ _ _ fields | _, .versionRetentions _ _ _ fields
  | _, .templates _ _ _ fields | _, .children _ _ fields | _, .holdAssignments _ _ _ fields
  | _, .policyAssignments _ _ _ fields | _, .allMetadata _ _ _ fields => fields

/-- How many entries a page of a survey is asked to have. -/
def limit : {s : Shape} → Survey s → Nat
  | _, .holds _ _ limit _ | _, .policies _ _ limit _ | _, .versionRetentions _ _ limit _
  | _, .templates _ _ limit _ | _, .children _ limit _ | _, .holdAssignments _ _ limit _
  | _, .policyAssignments _ _ limit _ | _, .allMetadata _ _ limit _ => limit

/-- How the pages of a survey follow each other. -/
def paging : {s : Shape} → Survey s → Paging
  | _, .children _ _ _ => .counted
  | _, _ => .marked

/-- What a survey asks for apart from its pages: the filters that are set, and then the members. -/
def pairs (survey : Survey s) : List (String × String) :=
  (survey.filters.filterMap fun filter => filter.2.map fun text => (filter.1, text)) ++
    if survey.fields = [] then [] else [("fields", ",".intercalate survey.fields)]

/-- The steps in which the query of a survey is built. -/
def steps (survey : Survey s) : List Query.Step :=
  survey.filters.map (fun filter => .ifPresent filter.1 filter.2) ++ [.fields survey.fields]

/-- The steps add what the survey asks for. -/
theorem pairs_steps (survey : Survey s) : (Query.built survey.steps).pairs = survey.pairs := by
  rw [Query.pairs_built, steps, List.flatMap_append, List.flatMap_map, pairs]
  congr 1
  · -- A filter that is not set adds no step and no pair, and so do members that are not named.
    induction survey.filters with
    | nil => rfl
    | cons filter rest ih =>
      rw [List.flatMap_cons, ih]
      obtain ⟨name, _ | text⟩ := filter <;> rfl
  · rw [List.flatMap_singleton]
    cases survey.fields <;> rfl

/-- A survey is a listing at its target, narrowed down by its query. -/
theorem listing_eq (survey : Survey s) : survey.listing =
    (survey.target.route.endpoint.buildWith survey.target.base (Query.built survey.steps).chars
      survey.target.arguments).map fun url =>
        ⟨survey.target.connection, url, survey.limit, survey.paging⟩ := by
  cases survey with
  -- A word in a query has the text that it has in documents.
  | policies c filter limit fields =>
    rw [listing, Connection.policies, PolicyFilter.query, Word.map_requestText]
    rfl
  | versionRetentions c filter limit fields =>
    rw [listing, Connection.versionRetentions, VersionRetentionFilter.query,
      Word.map_requestText]
    rfl
  | _ => rfl

/-- A target has the names that its route has places for. -/
theorem length_arguments (survey : Survey s) :
    survey.target.arguments.length = survey.target.route.arity := by
  cases survey <;> rfl

/-- A listing that is had is at the address of its route, with the query of the survey. -/
theorem exists_address {survey : Survey s} {l : Listing s} (listed : survey.listing = .ok l) :
    ∃ address, survey.target.route.endpoint.build survey.target.base survey.target.arguments =
        .ok address ∧ address.query = none ∧
      l.url.queryPairs = survey.pairs ∧ { l.url with query := none } = address ∧
      l.limit = survey.limit ∧ l.paging = survey.paging := by
  rw [survey.listing_eq] at listed
  obtain ⟨url, attached, rfl⟩ := map_ok_iff.mp listed
  obtain ⟨address, built, -⟩ := bind_ok_iff.mp attached
  have bare : address.query = none :=
    (survey.target.route.takes.bare_of_build survey.length_arguments built).1
  rw [Query.buildWith_chars _ built bare] at attached
  cases attached
  refine ⟨address, built, bare, ?_, by rw [← bare], rfl, rfl⟩
  rw [Url.queryPairs, ← survey.pairs_steps]
  -- A query without pairs is not attached, and nothing is read where there is none.
  cases empty : (Query.built survey.steps).isEmpty with
  | true =>
    rw [Query.isEmpty, List.isEmpty_iff] at empty
    rw [empty]
    rfl
  | false => exact formPairs_formChars _

/-- What is surveyed cannot be listed if one of its names is a step in a path, and is listed
otherwise. -/
theorem listing_cases (survey : Survey s) (has : survey.target.base.HasSegments)
    (web : isFileScheme survey.target.base.scheme = false) :
    ((∃ argument ∈ survey.target.arguments, argument = "." ∨ argument = "..") ∧
      ∃ refusal, survey.listing = .error (.refused refusal)) ∨
    ((¬ ∃ argument ∈ survey.target.arguments, argument = "." ∨ argument = "..") ∧
      ∃ l, survey.listing = .ok l) := by
  rw [survey.listing_eq]
  -- The names decide whether the route has an address, and the query is attached to any.
  rcases survey.target.address_cases (Query.built survey.steps) survey.length_arguments has web with
    ⟨step, refusal, refused⟩ | ⟨noStep, segments, -, attached⟩
  · exact Or.inl ⟨step, refusal, by rw [refused]; rfl⟩
  · exact Or.inr ⟨noStep, _, by rw [attached]; rfl⟩

/-- What is surveyed is at the base of its connection. -/
theorem base_target (survey : Survey s) :
    survey.target.base = survey.target.connection.base := by
  cases survey <;> rfl

end Survey

/-- Whether a request asks for a page of what a survey lists: at the address of the survey, with
what it asks for apart from its pages, with how many entries the page is to have and with what leads
to the page, in this order and with nothing else. -/
structure Request.AsksIn (r : Request) (survey : Survey s) (address : Url) (cursor : Cursor) :
    Prop where
  method : r.method = .get
  pairs : r.url.queryPairs = survey.pairs ++ ("limit", toString survey.limit) :: cursor.pairs
  address : { r.url with query := none } = address

/-- What is surveyed through a connection in the web is listed unless one of its names is a step in
a path. Each page of the listing is asked for at the one address that the route has: with the
filters that are set, each as its text, in their order, then with the members, if not all of them
are asked for, then with how many entries the page is to have, and then with what leads to the page,
and with nothing else. Whatever is answered, both the entries that are gathered and those that are
pulled one by one are asked for by page after page like that, from the first one on and each by what
the answer before it leads to. An instant in a filter is read back to the second; where it counts a
second more in its nanoseconds though no minute ends, it is read back as the next second. -/
theorem Survey.asked_with_filters (survey : Survey s) :
    (∀ settings : Settings, settings.connect = .ok survey.target.connection →
      survey.target.connection.base.IsWeb →
      ((∃ argument ∈ survey.target.arguments, argument = "." ∨ argument = "..") ∧
        ∃ refusal, survey.listing = .error (.refused refusal)) ∨
      ((¬ ∃ argument ∈ survey.target.arguments, argument = "." ∨ argument = "..") ∧
        ∃ l, survey.listing = .ok l)) ∧
    (∀ l, survey.listing = .ok l → ∃ address,
      survey.target.route.endpoint.build survey.target.base survey.target.arguments =
        .ok address ∧ l.first = survey.paging.first ∧
      (∀ cursor, (l.page cursor).request.AsksIn survey address cursor) ∧
      (∀ cursor answer page next, (l.page cursor).outcome answer = .ok page →
        page.next = some next → cursor.Continues next) ∧
      ∀ (σ : Type) (transport : Transport σ) (world : σ),
        (∀ enough pages, ∃ failure last, l.Leads (some survey.paging.first)
          (l.gather transport.traced enough pages (world, [])).2.2 failure last) ∧
        ∀ allowed pulls, ∃ failure last, l.Leads (some survey.paging.first)
          (l.walk.pulls transport.traced allowed pulls (world, [])).2.2.2 failure last) ∧
    ∀ t : Timestamp, ∃ back, Timestamp.parse t.format = .ok back ∧
      (¬ t.IsOverrun → back.seconds = t.seconds) ∧
      (t.IsOverrun → back.seconds = t.seconds + 1 ∧ back.nanos = 0) := by
  refine ⟨fun settings connected web => ?_, fun l listed => ?_,
    fun t => ⟨t.settled, t.parse_format, fun within => if_neg within,
      Timestamp.settled_of_isOverrun⟩⟩
  · rw [← survey.base_target] at web
    obtain ⟨-, read, -⟩ := Settings.connect_ok_iff.mp connected
    rw [← survey.base_target] at read
    exact survey.listing_cases (web.hasSegments read) (IsWebScheme.special web).2
  · obtain ⟨address, built, bare, asked, same, limit, paging⟩ := Survey.exists_address listed
    have first : l.first = survey.paging.first := congrArg Paging.first paging
    refine ⟨address, built, first, fun cursor => ⟨rfl, ?_, same⟩,
      fun _ _ _ _ => Listing.continues_of_outcome, fun σ transport world => ⟨?_, ?_⟩⟩
    · -- What asks for the page is added behind what is asked for on every page.
      show (l.url.addPairs _).queryPairs = _
      rw [Url.queryPairs_addPairs, asked, limit]
    · intro enough pages
      obtain ⟨added, last, record, leads⟩ :=
        l.leads_gatherFrom transport enough pages (some l.first) [] (world, [])
      rw [← first, Listing.gather, record]
      exact ⟨_, last, leads⟩
    · intro allowed pulls
      obtain ⟨added, failure, last, record, -, leads⟩ :=
        l.walk.leads_pulls transport allowed pulls (world, [])
      rw [← first, record]
      exact ⟨failure, last, leads⟩

/-- The retentions of the versions of a file that end before a new year, where the names of the file
and of the policy hold what divides the parts of a query. -/
def hostileSurvey : Survey (.record .fileVersionRetention) :=
  .versionRetentions plainConnection ⟨some "a&b=c", none, some "é+ %#", none, some newYear, none⟩ 7
    ["id", "file"]
where
  newYear : Timestamp := ⟨1767225600, 0, by decide⟩

/-- The text of a page that has no entries and leads to a next one. -/
def leadingText : String := "\x7b\"next_marker\":\"b&c\"\x7d"

/-- A transport that answers every request with a page that leads to a next one. -/
def leadingOn : Transport Unit where
  exchange _ _ := (some (.carrying leadingText), ())

/-- Each page of retentions is asked for with the same filters, and the second one with its marker.
-/
theorem asked_hostileSurvey : ∃ l, hostileSurvey.listing = .ok l ∧
    let record := (l.gather leadingOn.traced (fun _ => false) 2 ((), [])).2.2
    let asked := [("file_id", "a&b=c"), ("policy_id", "é+ %#"),
      ("disposition_before", "2026-01-01T00:00:00+00:00"), ("fields", "id,file"), ("limit", "7")]
    record.map (·.request.url.queryPairs) = [asked, asked ++ [("marker", "b&c")]] := by
  obtain ⟨made, pages, -⟩ := hostileSurvey.asked_with_filters
  rcases made plainSettings connect_plainSettings (Or.inl rfl) with
    ⟨⟨_, given, -⟩, -⟩ | ⟨-, l, listed⟩
  · cases given
  obtain ⟨address, -, first, asks, -⟩ := pages l listed
  refine ⟨l, listed, ?_⟩
  -- The answer is read as a page without entries, which leads to the one behind the marker.
  have read : (Response.carrying leadingText).datum
      (.record (.page (.record .fileVersionRetention))) =
        .ok (.record (pageRecord [] none (.text "b&c"))) :=
    Response.datum_page (by cbv) (Members.distinct_singleton "next_marker" (.text "b&c")) (by cbv)
      (readFrom_entries .nil rfl) (readFrom_total rfl) (readFrom_marker rfl)
  have ran (cursor : Cursor) (record : List Exchange) := (Call.run_traced (l.page cursor)
    leadingOn () record).trans (congrArg (·, _, _) (Listing.page_of_datum rfl read))
  have fetched : (l.gather leadingOn.traced (fun _ => false) 2 ((), [])).2.2 =
      [⟨(l.page (.marker none)).request, some (.carrying leadingText)⟩,
        ⟨(l.page (.marker (some "b&c"))).request, some (.carrying leadingText)⟩] := by
    rw [Listing.gather, first]
    rw [Listing.gatherFrom_ok l (ran _ _), if_neg (by decide)]
    show (l.gatherFrom leadingOn.traced _ 1 (some (.marker (some "b&c"))) [] _).2.2 = _
    rw [Listing.gatherFrom_ok l (ran _ _), if_neg (by decide)]
    rfl
  have newYear : hostileSurvey.newYear.format = "2026-01-01T00:00:00+00:00" := by cbv
  have asked : hostileSurvey.pairs = [("file_id", "a&b=c"), ("policy_id", "é+ %#"),
      ("disposition_before", "2026-01-01T00:00:00+00:00"), ("fields", "id,file")] := by
    rw [← newYear]
    rfl
  intro record asking
  rw [show record = _ from fetched, List.map_cons, List.map_singleton, (asks _).pairs,
    (asks _).pairs, asked]
  rfl

/-- The retentions that end before an instant that overruns its second. -/
def overrunSurvey : Survey (.record .fileVersionRetention) :=
  .versionRetentions plainConnection
    ⟨none, none, none, none, some Timestamp.overrunInstant, none⟩ 7 []

/-- What is asked for names another second than the filter has. -/
theorem overrunSurvey_names_later : ∃ text back,
    overrunSurvey.pairs = [("disposition_before", text)] ∧ Timestamp.parse text = .ok back ∧
      back.seconds ≠ Timestamp.overrunInstant.seconds :=
  -- The text names the next second, and it is the only filter that is set.
  ⟨_, Timestamp.overrunInstant.settled, rfl, Timestamp.parse_format _, by decide⟩

end ContentApi
