import ContentApi.Proofs.Results
import ContentApi.Proofs.Service.Connections
import ContentApi.Proofs.Url.Hosts
import ContentApi.Proofs.Url.Segments

/-! What becomes of an address of the web when something is written behind its text. -/

namespace ContentApi

/-- Whether a character is left out of the text of an address wherever it stands. -/
def isUrlBreak (c : Char) : Bool :=
  c == '\t' || c == '\n' || c == '\r'

/-- What is cut off at the end of the text of an address. -/
def urlTrail (text : String) : List Char :=
  text.toList.rtakeWhile isUrlEdge

/-- What would not be cut off at the end of the text of an address if something stood behind it. -/
def urlBlanks (text : String) : List Char :=
  (urlTrail text).filter (!isUrlBreak ·)

/-- The text of an address is read without its edges and its breaks. -/
theorem cleanedUrlChars_eq (text : String) : cleanedUrlChars text =
    ((text.toList.dropWhile isUrlEdge).rdropWhile isUrlEdge).filter (!isUrlBreak ·) :=
  rfl

/-- What a text ends in stays the same when something is taken off its front, as long as something
else is left. -/
theorem rtakeWhile_of_suffix {p : Char → Bool} {front cs : List Char} (suffix : front <:+ cs)
    (inside : front.rdropWhile p ≠ []) : cs.rtakeWhile p = front.rtakeWhile p := by
  obtain ⟨start, rfl⟩ := suffix
  -- The ends are read backwards, and that stops within the front.
  have stops : (front.reverse.takeWhile p).length ≠ front.reverse.length := fun same => by
    have halves := congrArg List.length
      (List.takeWhile_append_dropWhile (p := p) (l := front.reverse))
    rw [List.length_append, same] at halves
    have none : front.reverse.dropWhile p = [] := List.eq_nil_of_length_eq_zero (by omega)
    exact inside (by rw [List.rdropWhile, none, List.reverse_nil])
  rw [List.rtakeWhile, List.reverse_append, List.takeWhile_append, if_neg stops]
  rfl

/-- What is cut off keeps its place in front of a slash that is written behind it. -/
theorem cleanedUrlChars_slash {text : String} (nonempty : cleanedUrlChars text ≠ []) :
    cleanedUrlChars (text ++ "/") = cleanedUrlChars text ++ urlBlanks text ++ ['/'] := by
  let front := text.toList.dropWhile isUrlEdge
  -- Something is left at the front, so the blanks at the end are no part of those at the start.
  have inside : front.rdropWhile isUrlEdge ≠ [] := fun none => by
    rw [cleanedUrlChars_eq,
      show (text.toList.dropWhile isUrlEdge).rdropWhile isUrlEdge = [] from none] at nonempty
    exact nonempty rfl
  have halves : front = front.rdropWhile isUrlEdge ++ front.rtakeWhile isUrlEdge :=
    List.rdropWhile_append_rtakeWhile.symm
  have trail : urlTrail text = front.rtakeWhile isUrlEdge :=
    rtakeWhile_of_suffix (List.dropWhile_suffix _) inside
  have behind : (text ++ "/").toList.dropWhile isUrlEdge = front ++ ['/'] := by
    have some : ¬ front.isEmpty = true := fun none => by
      rw [List.isEmpty_iff.mp none] at inside
      exact inside rfl
    rw [String.toList_append, List.dropWhile_append, if_neg some]
    rfl
  -- The slash is visible, so nothing behind the front is cut off any more.
  rw [cleanedUrlChars_eq, behind, List.rdropWhile_concat_neg _ _ _ (by decide), halves,
    List.filter_append, List.filter_append, urlBlanks, trail, cleanedUrlChars_eq]
  rfl

section

variable {text : String}

/-- Nothing is put into the text of an address that is read. -/
theorem mem_of_mem_cleanedUrlChars {c : Char} (member : c ∈ cleanedUrlChars text) :
    c ∈ text.toList := by
  -- Cleaning cuts off both ends and leaves characters out in between.
  have inTrimmed : c ∈ (text.toList.dropWhile isUrlEdge).rdropWhile isUrlEdge :=
    List.mem_of_mem_filter member
  exact (List.dropWhile_suffix _).subset ((List.rdropWhile_prefix _ _).subset inTrimmed)

/-- A text that ends in a visible character keeps that, and nothing is cut off behind it. -/
theorem cleanedUrlChars_concat {front : List Char} {c : Char} (chars : text.toList = front ++ [c])
    (visible : 0x20 < c.toNat) :
    (cleanedUrlChars text).getLast? = some c ∧ urlBlanks text = [] := by
  -- A visible character is none of those at the edges, nor one that breaks lines.
  have noEdge : ¬ isUrlEdge c = true := by
    simpa [isUrlEdge] using visible
  have kept : (!isUrlBreak c) = true := by
    have ne {d : Char} (low : d.toNat ≤ 0x20) : (c == d) = false :=
      beq_eq_false_iff_ne.mpr fun same => by rw [same] at visible; omega
    rw [isUrlBreak, ne (by decide), ne (by decide), ne (by decide)]
    rfl
  constructor
  · -- The front may go as a whole, but not the last character.
    obtain ⟨rest, trimmed⟩ : ∃ rest, text.toList.dropWhile isUrlEdge = rest ++ [c] := by
      rw [chars, List.dropWhile_append]
      split
      · exact ⟨[], List.dropWhile_cons_of_neg noEdge⟩
      · exact ⟨_, rfl⟩
    rw [cleanedUrlChars_eq, trimmed, List.rdropWhile_concat_neg _ _ _ noEdge, List.filter_append,
      List.filter_cons_of_pos (p := (!isUrlBreak ·)) kept, List.filter_nil,
      List.getLast?_concat]
  · rw [urlBlanks, urlTrail, chars, List.rtakeWhile_concat_neg _ _ _ noEdge]
    rfl

end

section

variable {cs scheme rest : List Char}

/-- What is in front of a place is dropped by its length. -/
theorem drop_length_takeWhile (p : Char → Bool) (cs : List Char) :
    cs.drop (cs.takeWhile p).length = cs.dropWhile p := by
  -- Both halves make up the text, and the first of them is what is dropped.
  have halves := List.takeWhile_append_dropWhile (p := p) (l := cs)
  calc cs.drop (cs.takeWhile p).length
      = (cs.takeWhile p ++ cs.dropWhile p).drop (cs.takeWhile p).length := by rw [halves]
    _ = cs.dropWhile p := List.drop_left

/-- A scheme is a letter and what may stand behind it, in front of a colon. -/
theorem splitScheme?_eq_some_iff : splitScheme? cs = some (scheme, rest) ↔
    ∃ c name, cs = c :: name ++ ':' :: rest ∧ (∀ d ∈ c :: name, isSchemeChar d = true) ∧
      c.isAlpha = true ∧ (c :: name).map Char.toLower = scheme := by
  constructor
  · intro split
    cases cs with
    | nil => cases split
    | cons c others =>
      rw [splitScheme?, drop_length_takeWhile] at split
      split at split
      · rename_i colon
        split at split
        · rename_i letter
          cases split
          -- A letter may stand in a scheme, so the scheme starts with it.
          have kept : isSchemeChar c = true := by
            rw [isSchemeChar, isAsciiAlnum, letter]
            rfl
          have halves := List.takeWhile_append_dropWhile (p := isSchemeChar) (l := c :: others)
          rw [colon, List.takeWhile_cons_of_pos kept] at halves
          refine ⟨c, others.takeWhile isSchemeChar, halves.symm, fun d member => ?_, letter,
            by rw [List.takeWhile_cons_of_pos kept]⟩
          rw [← List.takeWhile_cons_of_pos kept] at member
          exact List.mem_takeWhile_imp member
        · cases split
      · cases split
  · rintro ⟨c, name, rfl, kept, letter, rfl⟩
    have taken : (c :: (name ++ ':' :: rest)).takeWhile isSchemeChar = c :: name := by
      rw [← List.cons_append, List.takeWhile_append_of_pos kept,
        List.takeWhile_cons_of_neg (by decide), List.append_nil]
    rw [List.cons_append, splitScheme?, taken]
    simp [letter]

/-- A scheme is found in front of its colon, whatever stands behind that. -/
theorem splitScheme?_append (split : splitScheme? cs = some (scheme, rest)) (more : List Char) :
    splitScheme? (cs ++ more) = some (scheme, rest ++ more) := by
  -- The scheme is the part in front of the first colon, which more text behind it does not move.
  obtain ⟨c, name, rfl, found⟩ := splitScheme?_eq_some_iff.mp split
  exact splitScheme?_eq_some_iff.mpr ⟨c, name, List.append_assoc _ _ _, found⟩

/-- What stands behind the colon of a scheme ends the text. -/
theorem splitScheme?_suffix (split : splitScheme? cs = some (scheme, rest)) : rest <:+ cs := by
  obtain ⟨c, name, rfl, -⟩ := splitScheme?_eq_some_iff.mp split
  exact (List.suffix_cons ':' rest).trans (List.suffix_append _ _)

/-- A text with a scheme of the web is read as an address with an authority behind its slashes. -/
theorem Url.parse_of_web {text : String} (split : splitScheme? (cleanedUrlChars text) =
    some (scheme, rest)) (web : IsWebScheme scheme) :
    Url.parse text = urlOfAuthority scheme (rest.dropWhile (isSlash true)) := by
  -- Without a base there is nothing to lead on from, and the slashes are counted only.
  rw [Url.parse, Url.resolve, split, ← drop_length_takeWhile]
  show urlAfterScheme none scheme rest = _
  rw [urlAfterScheme.eq_def, if_neg (by rw [web.special.2]; decide), if_pos web.special.1]
  rfl

/-- Whatever leads on from an address keeps its scheme. -/
theorem Url.scheme_follow (base : Url) (cs : List Char) :
    (base.follow cs).scheme = base.scheme := by
  -- Each of the ways to go on changes the authority, the path, the query or the fragment only.
  rw [Url.follow]
  split
  · split <;> rfl
  · rfl

/-- An address has the scheme that it was read with. -/
theorem Url.scheme_urlAfterScheme {url : Url} (read : urlAfterScheme none scheme rest = .ok url) :
    url.scheme = scheme := by
  have ofAuthority {cs : List Char} (read : urlOfAuthority scheme cs = .ok url) :
      url.scheme = scheme := by
    obtain ⟨_, -, same⟩ := bind_ok_iff.mp read
    cases same
    rfl
  rw [urlAfterScheme.eq_def] at read
  by_cases file : isFileScheme scheme = true
  · rw [if_pos file, fileUrl.eq_def] at read
    have same : scheme = "file".toList := eq_of_beq file
    rw [same]
    -- Whatever an address of files goes on with, it keeps the scheme of the root of all files.
    split at read
    · split at read
      · obtain ⟨_, -, made⟩ := bind_ok_iff.mp read
        cases made
        rfl
      · cases read
        exact Url.scheme_follow _ _
    · cases read
      exact Url.scheme_follow _ _
  · rw [if_neg file] at read
    by_cases special : isSpecialScheme scheme = true
    · rw [if_pos special] at read
      exact ofAuthority read
    · rw [if_neg special] at read
      split at read
      · exact ofAuthority read
      · cases read
        rfl

/-- An address was read from a text with its scheme. -/
theorem Url.exists_split {text : String} {url : Url} (read : Url.parse text = .ok url) : ∃ rest,
    splitScheme? (cleanedUrlChars text) = some (url.scheme, rest) := by
  rw [Url.parse, Url.resolve] at read
  -- A scheme that was found is kept, and without one there is no address.
  split at read
  · rename_i scheme rest split
    exact ⟨rest, split.trans (by rw [Url.scheme_urlAfterScheme read])⟩
  · cases read

end

section

variable {scheme authority after front : List Char}

/-- Behind its mark all of a text is the fragment. -/
theorem UrlTail.of_fragment (first : '#' ∉ front) (fragment : List Char) :
    UrlTail.of (front ++ '#' :: fragment) =
      { UrlTail.of front with fragment := some fragment } := by
  -- Everything in front of the first mark is the rest, whatever marks stand behind it.
  simp only [UrlTail.of, takeWhile_ne_append first, takeWhile_ne_self first, List.drop_left]

/-- Behind its mark a text without a fragment is the query. -/
theorem UrlTail.of_query (first : '?' ∉ front) {query : List Char}
    (noFragment : '#' ∉ front ++ '?' :: query) :
    UrlTail.of (front ++ '?' :: query) = ⟨front, some query, none⟩ := by
  -- There is no mark of a fragment, so the query runs to the end.
  simp only [UrlTail.of, takeWhile_ne_self noFragment, takeWhile_ne_append first, List.drop_left,
    List.drop_length]

/-- What is written behind an address belongs to its fragment, or else to its query, or else to its
path. -/
theorem UrlTail.of_append {more : List Char} (noFragment : '#' ∉ more) (noQuery : '?' ∉ more)
    (cs : List Char) :
    (∃ fragment, (UrlTail.of cs).fragment = some fragment ∧
      (UrlTail.of (cs ++ more)).fragment = some (fragment ++ more)) ∨
    (∃ query, (UrlTail.of cs).query = some query ∧
      (UrlTail.of (cs ++ more)).query = some (query ++ more)) ∨
    ('#' ∉ cs ∧ '?' ∉ cs) ∧ UrlTail.of (cs ++ more) = ⟨cs ++ more, none, none⟩ := by
  -- The first mark decides: behind a fragment's all is fragment, and a query's counts before it.
  by_cases inFragment : '#' ∈ cs
  · obtain ⟨front, fragment, rfl, first⟩ := List.eq_append_cons_of_mem inFragment
    rw [List.append_assoc, List.cons_append, UrlTail.of_fragment first, UrlTail.of_fragment first]
    exact .inl ⟨fragment, rfl, rfl⟩
  · have noLater : '#' ∉ cs ++ more := by simp [inFragment, noFragment]
    by_cases inQuery : '?' ∈ cs
    · obtain ⟨front, query, rfl, first⟩ := List.eq_append_cons_of_mem inQuery
      rw [List.append_assoc, List.cons_append] at noLater ⊢
      rw [UrlTail.of_query first inFragment, UrlTail.of_query first noLater]
      exact .inr (.inl ⟨query, rfl, rfl⟩)
    · exact .inr (.inr ⟨⟨inFragment, inQuery⟩,
        UrlTail.of_unmarked noLater (by simp [inQuery, noQuery])⟩)

/-- Whether a character ends the authority of an address of the web. -/
def endsAuthority (c : Char) : Bool :=
  isSlash true c || c == '?' || c == '#'

/-- The address with an authority and what stands behind it. -/
def Url.behind (scheme : List Char) (authority : Authority) (after : List Char) : Url :=
  let tail := UrlTail.of after
  ⟨scheme, some authority, .segments (rootedSegments scheme tail.path),
    tail.query.map (encodeQuery scheme), tail.fragment.map encodeFragment⟩

/-- Whether more follows an authority does not matter where there must be a host. -/
theorem authorityOf_isLast (special : isSpecialScheme scheme = true) (cs : List Char)
    (isLast : Bool) : authorityOf scheme cs isLast = authorityOf scheme cs true := by
  -- The two differ only in what an empty host comes to, which a special scheme refuses.
  rw [authorityOf, authorityOf, special]
  simp

/-- An address of the web is its authority and what stands behind that. -/
theorem urlOfAuthority_append (special : isSpecialScheme scheme = true)
    (inside : ∀ c ∈ authority, endsAuthority c = false)
    (ends : ∀ c ∈ after.head?, endsAuthority c = true) :
    urlOfAuthority scheme (authority ++ after) =
      (authorityOf scheme authority true).map (Url.behind scheme · after) := by
  have taken : (authority ++ after).takeWhile
      (fun c => !(isSlash true c || c == '?' || c == '#')) = authority := by
    rw [List.takeWhile_append_of_pos fun c member => by
      rw [show (isSlash true c || c == '?' || c == '#') = false from inside c member]
      rfl]
    cases after with
    | nil => exact List.append_nil _
    | cons c rest =>
      have stops : (isSlash true c || c == '?' || c == '#') = true := ends c rfl
      rw [List.takeWhile_cons_of_neg (by rw [stops]; decide), List.append_nil]
  rw [urlOfAuthority, special]
  simp only [taken, List.drop_left, authorityOf_isLast special]
  -- Only the authority can fail to be read.
  cases authorityOf scheme authority true <;> rfl

end

/-- How an address of the web is written: an authority, and what stands behind it. -/
structure Url.Spelling (text : String) (url : Url) where
  /-- The text of the authority. -/
  authority : List Char
  /-- The text behind the authority. -/
  after : List Char
  /-- The authority that is read. -/
  known : Authority
  nonempty : authority ≠ []
  inside : ∀ c ∈ authority, endsAuthority c = false
  ends : ∀ c ∈ after.head?, endsAuthority c = true
  reads : authorityOf url.scheme authority true = .ok known
  isBehind : url = Url.behind url.scheme known after
  suffix : authority ++ after <:+ cleanedUrlChars text
  parses : ∀ other more, cleanedUrlChars other = cleanedUrlChars text ++ more →
    Url.parse other = urlOfAuthority url.scheme (authority ++ after ++ more)

/-- Where there must be a host, an authority is not empty. -/
theorem ne_nil_of_authorityOf {scheme cs : List Char} {isLast : Bool} {read : Authority}
    (special : isSpecialScheme scheme = true) (ok : authorityOf scheme cs isLast = .ok read) :
    cs ≠ [] := by
  -- An empty authority would have an empty host.
  rintro rfl
  exact (exists_host_of_authorityOf special ok).1 rfl

/-- An address of the web that was read is written as an authority and what stands behind that. -/
theorem Url.exists_spelling {text : String} {url : Url} (read : Url.parse text = .ok url)
    (web : url.IsWeb) : Nonempty (Url.Spelling text url) := by
  have special := (IsWebScheme.special web).1
  obtain ⟨rest, split⟩ := Url.exists_split read
  let body := rest.dropWhile (isSlash true)
  let authority := body.takeWhile fun c => !endsAuthority c
  let after := body.dropWhile fun c => !endsAuthority c
  have halves : authority ++ after = body := List.takeWhile_append_dropWhile
  have inside : ∀ c ∈ authority, endsAuthority c = false := fun c member => by
    simpa using List.mem_takeWhile_imp member
  have ends : ∀ c ∈ after.head?, endsAuthority c = true := fun c member => by
    have stops := List.head?_dropWhile_not (fun c => !endsAuthority c) body
    rw [show (body.dropWhile fun c => !endsAuthority c).head? = some c from member] at stops
    simpa using stops
  rw [Url.parse_of_web split web, show rest.dropWhile (isSlash true) = authority ++ after from
    halves.symm, urlOfAuthority_append special inside ends] at read
  obtain ⟨known, reads, same⟩ := map_ok_iff.mp read
  have nonempty : authority ≠ [] := ne_nil_of_authorityOf special reads
  refine ⟨authority, after, known, nonempty, inside, ends, reads, same.symm, ?_,
    fun other more cleaned => ?_⟩
  · -- In front of the authority stand the scheme and any number of slashes.
    rw [halves]
    exact (List.dropWhile_suffix _).trans (splitScheme?_suffix split)
  · -- The slashes are passed over up to a character of the authority, whatever follows it.
    have some : ¬ body.isEmpty = true := fun none => by
      have empty : authority ++ after = [] := halves.trans (List.isEmpty_iff.mp none)
      exact nonempty (List.append_eq_nil_iff.mp empty).1
    rw [Url.parse_of_web (cleaned ▸ splitScheme?_append split more) web, List.dropWhile_append,
      if_neg some, halves]

/-- The text of an address of the web ends as its authority and what stands behind that. -/
theorem Url.Spelling.getLast?_cleaned {text : String} {url : Url}
    (spelling : Url.Spelling text url) :
    (cleanedUrlChars text).getLast? = (spelling.authority ++ spelling.after).getLast? := by
  -- What stands behind the scheme and its slashes is not empty, so the text ends as that does.
  obtain ⟨front, whole⟩ := spelling.suffix
  rw [← whole, List.getLast?_append_of_ne_nil]
  exact fun none => spelling.nonempty (List.append_eq_nil_iff.mp none).1

/-- A slash that is written behind an address of the web stands behind what was cut off. -/
theorem Url.Spelling.parse_slash {text : String} {url : Url} (spelling : Url.Spelling text url) :
    Url.parse (text ++ "/") = urlOfAuthority url.scheme
      (spelling.authority ++ spelling.after ++ (urlBlanks text ++ ['/'])) := by
  refine spelling.parses _ _
    ((cleanedUrlChars_slash fun none => ?_).trans (List.append_assoc _ _ _))
  -- Something is left of the text, as its authority is.
  have suffix := spelling.suffix
  rw [none, List.suffix_nil] at suffix
  exact spelling.nonempty (List.append_eq_nil_iff.mp suffix).1

end ContentApi
