import ContentApi.Proofs.Service.Connections
import ContentApi.Proofs.Service.Routes
import ContentApi.Proofs.Url.Closed

/-! The bases of a connection are completed on their paths. -/

namespace ContentApi

section

variable {text : String} {url : Url}

/-- Whether the text of an address is completed on its path: it ends in a slash that is part of the
path, or in the path and without a slash. -/
def ClosesPath (text : String) (url : Url) : Prop :=
  (text.toList.getLast? = some '/' ∧ url.closed = url) ∨
    (text.toList.getLast? ≠ some '/' ∧ EndsInPath text url)

/-- The completed text of an address of the web stands for the address with its path closed exactly
if the text is completed on its path. -/
theorem parseBase_eq_closed_iff (read : Url.parse text = .ok url) (web : url.IsWeb) :
    parseBase text = .ok url.closed ↔ ClosesPath text url := by
  rw [parseBase, mapError_ok_iff, completedBase, ClosesPath]
  -- A text that ends in a slash is read as it is, and any other one with a slash behind it.
  by_cases slash : text.toList.getLast? = some '/'
  · rw [if_pos slash, read]
    simp [slash, eq_comm]
  · rw [if_neg slash, Url.parse_slash_eq_closed_iff read web]
    simp [slash]

/-- The text of an address of the web is completed on its path if it has no query and no fragment
and ends in a visible character other than a backslash. -/
theorem closesPath_of_visible (read : Url.parse text = .ok url) (web : url.IsWeb)
    (noQuery : '?' ∉ text.toList) (noFragment : '#' ∉ text.toList)
    (visible : ∀ c ∈ text.toList.getLast?, 0x20 < c.toNat ∧ c ≠ '\\') : ClosesPath text url := by
  obtain ⟨spelling⟩ := Url.exists_spelling read web
  have inText {c : Char} (member : c ∈ spelling.after) : c ∈ text.toList :=
    mem_of_mem_cleanedUrlChars (spelling.suffix.subset (List.mem_append_right _ member))
  have noQuery : '?' ∉ spelling.after := fun member => noQuery (inText member)
  have noFragment : '#' ∉ spelling.after := fun member => noFragment (inText member)
  rcases List.eq_nil_or_concat text.toList with empty | ⟨front, c, chars⟩
  · -- An address has an authority at least.
    obtain ⟨a, authority⟩ := List.exists_mem_of_ne_nil _ spelling.nonempty
    have member := mem_of_mem_cleanedUrlChars
      (spelling.suffix.subset (List.mem_append_left _ authority))
    rw [empty] at member
    cases member
  · rw [List.concat_eq_append] at chars
    have shown := visible c (by rw [chars, List.getLast?_concat]; rfl)
    obtain ⟨last, noBlanks⟩ := cleanedUrlChars_concat chars shown.1
    rw [ClosesPath, chars, List.getLast?_concat]
    by_cases slash : c = '/'
    · -- The text is kept, so its own path must be closed already.
      subst slash
      exact .inl ⟨rfl, spelling.closed_of_slash web noQuery noFragment last⟩
    · refine .inr ⟨by simpa using slash, ?_, noBlanks, fun d same => ?_⟩
      · rw [spelling.isBehind, Url.behind, UrlTail.of_unmarked noFragment noQuery]
        exact ⟨rfl, rfl⟩
      · rw [last, Option.mem_some_iff] at same
        subst same
        rw [isSlash, beq_eq_false_iff_ne.mpr slash, beq_eq_false_iff_ne.mpr shown.2]
        rfl

end

/-- Whether every route leads below the whole path of an address, once that path is closed. -/
def Url.IsAboveRoutes (url : Url) : Prop :=
  ∃ before, (url.path = .segments before ∨ url.path = .segments (before ++ [[]])) ∧
    url.closed = { url with path := .segments (before ++ [[]]) } ∧
    ∀ (route : Route) (arguments : List String), arguments.length = route.arity →
      (∀ argument ∈ arguments, argument ≠ "." ∧ argument ≠ "..") →
        ∃ segments, Fills route.endpoint.pieces arguments segments ∧
          route.endpoint.build url.closed arguments = .ok
            { url with path := .segments (before ++ segments), query := none, fragment := none }

/-- Every route leads below the whole path of an address of the web, once that path is closed. -/
theorem Url.IsWeb.isAboveRoutes {text : String} {url : Url} (web : url.IsWeb)
    (read : Url.parse text = .ok url) : url.IsAboveRoutes := by
  have special := IsWebScheme.special web
  obtain ⟨before, path, closed⟩ := Url.exists_closed (Url.hasSegments_of_parse read special.1)
  refine ⟨before, path, closed, fun route arguments enough noSteps => ?_⟩
  -- An argument is a step only where it is written as one.
  have none : arguments.find? isDotSegment = none :=
    List.find?_eq_none.mpr fun argument member isStep =>
      (isDotSegment_iff.mp isStep).elim (noSteps argument member).1 (noSteps argument member).2
  rw [closed]
  exact route.takes.build_filled enough none rfl special.2

/-- The bases of a connection are the addresses that their texts stand for with their paths closed,
exactly where the texts are completed on their paths, and then every route leads below these. -/
theorem Settings.closed_bases {settings : Settings} {url uploads : Url}
    (read : Url.parse settings.baseUrl = .ok url) (web : url.IsWeb)
    (readUploads : Url.parse settings.uploadUrl = .ok uploads) (webUploads : uploads.IsWeb)
    (sendable : isSendable settings.token = true ∧ isSendable settings.userAgent = true) :
    ((∃ c, settings.connect = .ok c ∧ c.base = url.closed ∧ c.uploadBase = uploads.closed) ↔
      ClosesPath settings.baseUrl url ∧ ClosesPath settings.uploadUrl uploads) ∧
    (∀ c, settings.connect = .ok c →
      (c.base = url.closed ↔ ClosesPath settings.baseUrl url) ∧
      (c.uploadBase = uploads.closed ↔ ClosesPath settings.uploadUrl uploads)) ∧
    url.IsAboveRoutes ∧ uploads.IsAboveRoutes := by
  have closes := parseBase_eq_closed_iff read web
  have closesUploads := parseBase_eq_closed_iff readUploads webUploads
  refine ⟨⟨?_, ?_⟩, fun c connected => ?_, web.isAboveRoutes read,
    webUploads.isAboveRoutes readUploads⟩
  · -- What a connection has for a base is what was read from the completed text.
    rintro ⟨c, connected, base, uploadBase⟩
    obtain ⟨-, parsed, parsedUploads, -⟩ := connect_ok_iff.mp connected
    exact ⟨closes.mp (base ▸ parsed), closesUploads.mp (uploadBase ▸ parsedUploads)⟩
  · rintro ⟨closed, closedUploads⟩
    exact ⟨⟨url.closed, uploads.closed, settings.token, settings.userAgent, settings.timeout⟩,
      connect_ok_iff.mpr
        ⟨sendable, closes.mpr closed, closesUploads.mpr closedUploads, rfl, rfl, rfl⟩, rfl, rfl⟩
  · -- Whatever the bases came to, each of them is compared with the one address.
    obtain ⟨-, parsed, parsedUploads, -⟩ := connect_ok_iff.mp connected
    rw [← closes, ← closesUploads, parsed, parsedUploads, Except.ok.injEq, Except.ok.injEq]
    exact ⟨Iff.rfl, Iff.rfl⟩

/-- Settings with a base that does not end in a slash. -/
def openSettings : Settings :=
  { Settings.standard with baseUrl := "http://h:8080/api/2.0" }

/-- An open base. -/
def openBase : Url :=
  ⟨"http".toList, some ⟨[], [], .domain "h", some 8080⟩, .segments ["api".toList, "2.0".toList],
    none, none⟩

/-- The standard base for uploads. -/
def standardUploads : Url :=
  ⟨"https".toList, some ⟨[], [], .domain "upload.box.com", none⟩,
    .segments ["api".toList, "2.0".toList, []], none, none⟩

/-- A base that does not end in a slash is completed, and one that does is kept. -/
theorem closed_openBase : ∃ c, openSettings.connect = .ok c ∧
    c.base = { openBase with path := .segments ["api".toList, "2.0".toList, []] } ∧
    c.uploadBase = standardUploads := by
  -- Both addresses are read by computing, and their texts have neither a query nor a fragment.
  have read : Url.parse openSettings.baseUrl = .ok openBase := by decide
  have web : openBase.IsWeb := .inl rfl
  have readUploads : Url.parse openSettings.uploadUrl = .ok standardUploads := by decide
  have webUploads : standardUploads.IsWeb := .inr rfl
  refine (Settings.closed_bases read web readUploads webUploads ⟨rfl, rfl⟩).1.mpr ⟨?_, ?_⟩
  · have last : openSettings.baseUrl.toList.getLast? = some '0' := by decide
    exact closesPath_of_visible read web (by decide) (by decide) (by simp [last])
  · have last : openSettings.uploadUrl.toList.getLast? = some '/' := by decide
    exact closesPath_of_visible readUploads webUploads (by decide) (by decide) (by simp [last])

/-- Settings with a query behind the path of the base. -/
def querySettings : Settings :=
  { Settings.standard with baseUrl := "http://h/2.0?x=1" }

/-- A base with a query. -/
def queryBase : Url :=
  ⟨"http".toList, some ⟨[], [], .domain "h", none⟩, .segments ["2.0".toList],
    some "x=1".toList, none⟩

/-- The slash is not put behind the path but behind the query, so that routes do not lead below the
path. -/
theorem connect_queryBase_open : Url.parse querySettings.baseUrl = .ok queryBase ∧ queryBase.IsWeb ∧
    ∃ c, querySettings.connect = .ok c ∧ c.base ≠ queryBase.closed ∧
      c.base = { queryBase with query := some "x=1/".toList } ∧
      Route.user.endpoint.build c.base ["7"] = .ok
        { queryBase with path := .segments ["users".toList, "7".toList], query := none } := by
  refine ⟨by decide, .inl rfl, ⟨_, standardUploads, "", "box-sdk-rust/0.1.0", 60⟩, ?_, ?_, rfl, ?_⟩
  · -- The slash is added to the text, which ends in its query.
    exact Settings.connect_ok_iff.mpr ⟨⟨rfl, rfl⟩, by decide, by decide, rfl, rfl, rfl⟩
  · decide
  · decide

end ContentApi
