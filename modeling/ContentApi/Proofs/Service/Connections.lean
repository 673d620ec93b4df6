import ContentApi.Proofs.Results
import ContentApi.Service.Connection

/-! The bases of a connection in clear text have paths that go on with the segments of a route. -/

namespace ContentApi

/-- Whether a scheme is one of the web, be the channel secured or not. -/
def IsWebScheme (scheme : List Char) : Prop :=
  scheme = "http".toList ∨ scheme = "https".toList

/-- A scheme of the web is one that knows segments, and not one of files. -/
theorem IsWebScheme.special {scheme : List Char} (web : IsWebScheme scheme) :
    isSpecialScheme scheme = true ∧ isFileScheme scheme = false := by
  rcases web with rfl | rfl <;> decide

namespace Url

/-- Whether the path of an address is made of segments. -/
def HasSegments (url : Url) : Prop :=
  ∃ parts, url.path = .segments parts

variable {base url : Url} {scheme cs : List Char}

/-- Whatever leads on from segments leads to segments. -/
theorem HasSegments.follow (has : base.HasSegments) (cs : List Char) :
    (base.follow cs).HasSegments := by
  rw [Url.follow]
  -- Only a path takes the place of the segments, and it is made of segments itself.
  by_cases noPath : (UrlTail.of cs).path.isEmpty = true
  · simp only [if_pos noPath]
    cases (UrlTail.of cs).query with
    | none => exact has
    | some query => exact has
  · simp only [if_neg noPath]
    exact ⟨_, rfl⟩

/-- Behind an authority stand segments. -/
theorem hasSegments_urlOfAuthority (read : urlOfAuthority scheme cs = .ok url) :
    url.HasSegments := by
  -- Only an address whose authority is read is made, and it is made with segments.
  obtain ⟨authority, -, made⟩ := bind_ok_iff.mp read
  cases made
  exact ⟨_, rfl⟩

/-- An address of files has segments. -/
theorem hasSegments_fileUrl (read : fileUrl none cs = .ok url) : url.HasSegments := by
  rw [fileUrl.eq_def] at read
  -- Where no authority follows, the path leads on from the root of all files.
  have fresh : Url.HasSegments ⟨"file".toList, some localAuthority, .segments [[]], none, none⟩ :=
    ⟨_, rfl⟩
  split at read
  · split at read
    · obtain ⟨authority, -, made⟩ := bind_ok_iff.mp read
      cases made
      exact ⟨_, rfl⟩
    · cases read
      exact fresh.follow _
  · cases read
    exact fresh.follow _

/-- An address that is read on its own has segments, if its scheme is one that knows them. -/
theorem hasSegments_of_parse {text : String} (read : parse text = .ok url)
    (special : isSpecialScheme url.scheme = true) : url.HasSegments := by
  rw [parse, resolve] at read
  -- A text without a scheme is no address on its own.
  split at read
  · rename_i scheme rest split
    rw [urlAfterScheme.eq_def] at read
    by_cases file : isFileScheme scheme = true
    · simp only [if_pos file] at read
      exact hasSegments_fileUrl read
    · simp only [if_neg file] at read
      by_cases known : isSpecialScheme scheme = true
      · simp only [if_pos known] at read
        exact hasSegments_urlOfAuthority read
      · simp only [if_neg known] at read
        split at read
        · exact hasSegments_urlOfAuthority read
        · -- Only here a path may be without structure, and the scheme is not one of those.
          cases read
          exact absurd special known
  · cases read

/-- Whether an address is one of the web. -/
def IsWeb (url : Url) : Prop :=
  IsWebScheme url.scheme

/-- An address in clear text is one of the web. -/
theorem isWeb_of_isPlain (plain : url.isPlain = true) : url.IsWeb :=
  Or.inl (eq_of_beq plain)

/-- A scheme of clear text is one that knows segments, and not one of files. -/
theorem special_of_isPlain (plain : url.isPlain = true) :
    isSpecialScheme url.scheme = true ∧ isFileScheme url.scheme = false :=
  IsWebScheme.special (isWeb_of_isPlain plain)

end Url

/-- A connection is set up exactly if what goes into headers may stand there and both bases are
addresses. -/
theorem Settings.connect_ok_iff {settings : Settings} {c : Connection} :
    settings.connect = .ok c ↔
      (isSendable settings.token = true ∧ isSendable settings.userAgent = true) ∧
      parseBase settings.baseUrl = .ok c.base ∧ parseBase settings.uploadUrl = .ok c.uploadBase ∧
      c.token = settings.token ∧ c.userAgent = settings.userAgent ∧
      c.timeout = settings.timeout := by
  rw [connect]
  -- The checks are made in this order, so the bases are read only if both texts may be sent.
  by_cases token : isSendable settings.token = true
  · by_cases agent : isSendable settings.userAgent = true
    · simp only [token, agent, Bool.not_true, Bool.false_eq_true, if_false, true_and, and_true]
      constructor
      · intro connected
        obtain ⟨base, read, connected⟩ := bind_ok_iff.mp connected
        obtain ⟨uploadBase, readUploads, made⟩ := bind_ok_iff.mp connected
        cases made
        exact ⟨read, readUploads, rfl, rfl, rfl⟩
      · obtain ⟨base, uploadBase, token, userAgent, timeout⟩ := c
        rintro ⟨read, readUploads, rfl, rfl, rfl⟩
        rw [read, readUploads]
        rfl
    · simp [token, agent, throw, throwThe, MonadExceptOf.throw, Bind.bind, Except.bind]
  · simp [token, throw, throwThe, MonadExceptOf.throw, Bind.bind, Except.bind]

/-- A base in the web has segments. -/
theorem Url.IsWeb.hasSegments {text : String} {base : Url} (web : base.IsWeb)
    (read : parseBase text = .ok base) : base.HasSegments :=
  Url.hasSegments_of_parse (mapError_ok_iff.mp read) (IsWebScheme.special web).1

/-- A base in clear text has segments. -/
theorem hasSegments_of_parseBase {text : String} {base : Url} (read : parseBase text = .ok base)
    (plain : base.isPlain = true) : base.HasSegments :=
  (Url.isWeb_of_isPlain plain).hasSegments read

end ContentApi
