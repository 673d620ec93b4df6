import ContentApi.Proofs.Url.Endings
import ContentApi.Proofs.Url.Endpoint

/-! When a slash that is written behind an address of the web closes its path. -/

namespace ContentApi

/-- Whether a piece of a path is a step in it and no segment. -/
def IsStep (piece : List Char) : Prop :=
  dotForm piece = ['.'] ∨ dotForm piece = ['.', '.']

/-- A piece is looked at for being a step. -/
instance (piece : List Char) : Decidable (IsStep piece) :=
  inferInstanceAs (Decidable (_ ∨ _))

/-- What a piece of a path in the web that is not the last one makes of the segments before it, kept
last first. -/
def passSegment (reversed : List (List Char)) (piece : List Char) : List (List Char) :=
  if dotForm piece = ['.', '.'] then dropLastSegment false reversed
  else if dotForm piece = ['.'] then reversed
  else percentEncode keepsInPath piece :: reversed

section

variable {piece : List Char} {reversed : List (List Char)}

/-- No piece that is passed adds more than one segment. -/
theorem passSegment_of_step (step : IsStep piece) :
    (passSegment reversed piece).length ≤ reversed.length := by
  rw [passSegment]
  -- A point leaves the segments as they are, and two points take one away if there is any.
  rcases step with point | points
  · rw [point, if_neg (by decide), if_pos rfl]
  · rw [if_pos points]
    rcases reversed with _ | ⟨a, _ | ⟨b, rest⟩⟩
    · exact Nat.le_refl _
    · exact Nat.zero_le _
    · exact Nat.le_succ _

/-- A segment is passed encoded. -/
theorem passSegment_of_not_step (noStep : ¬ IsStep piece) :
    passSegment reversed piece = percentEncode keepsInPath piece :: reversed := by
  rw [passSegment, if_neg fun points => noStep (.inr points),
    if_neg fun point => noStep (.inl point)]

/-- A piece of a path in the web with more pieces behind it is passed. -/
theorem addSegments_cons {rest : List (List Char)} (more : rest ≠ []) :
    addSegments false reversed (piece :: rest) =
      addSegments false (passSegment reversed piece) rest := by
  -- Only the last piece may leave an empty segment behind.
  have notLast : rest.isEmpty = false := by simpa using more
  rw [addSegments, notLast, passSegment]
  simp only [Bool.false_eq_true, if_false, Bool.false_and]
  congr 1
  split
  · rfl
  · split
    · rfl
    · split <;> rfl

/-- The last piece of a path in the web leaves an empty segment behind if it is a step. -/
theorem addSegments_last : addSegments false reversed [piece] =
    if IsStep piece then [] :: passSegment reversed piece else passSegment reversed piece := by
  -- A step of one point or of two ends the path in a slash; a name is its last segment.
  by_cases step : IsStep piece
  · rw [if_pos step, addSegments, addSegments, passSegment]
    rcases step with point | points
    · simp [point]
    · simp [points]
  · rw [if_neg step, passSegment_of_not_step step, addSegments, addSegments,
      if_neg fun points => step (.inr points), if_neg fun point => step (.inl point)]
    simp only [Bool.false_and, Bool.false_eq_true, if_false]
    split <;> rfl

/-- Pieces of a path in the web with more of them behind are passed one after the other. -/
theorem addSegments_append {rest : List (List Char)} (more : rest ≠ [])
    (pieces : List (List Char)) :
    addSegments false reversed (pieces ++ rest) =
      addSegments false (pieces.foldl passSegment reversed) rest := by
  -- The induction is on the pieces in front, behind each of which there are more.
  induction pieces generalizing reversed with
  | nil => rfl
  | cons piece pieces ih =>
    have later : pieces ++ rest ≠ [] := by simp [more]
    rw [List.cons_append, addSegments_cons later, ih]
    rfl

end

/-- The last piece of a text is what stands behind its last break, and what does not break the text
goes on with it. -/
theorem exists_splitChars_last (isBreak : Char → Bool) (cs : List Char) :
    ∃ pieces, ∀ more : List Char, (∀ c ∈ more, isBreak c = false) →
      splitChars isBreak (cs ++ more) = pieces ++ [cs.rtakeWhile (!isBreak ·) ++ more] := by
  have unbroken : ∀ c ∈ cs.rtakeWhile (!isBreak ·), isBreak c = false := fun c member => by
    simpa using List.mem_rtakeWhile_imp member
  have halves : cs = cs.rdropWhile (!isBreak ·) ++ cs.rtakeWhile (!isBreak ·) :=
    (List.rdropWhile_append_rtakeWhile).symm
  rcases List.eq_nil_or_concat (cs.rdropWhile (!isBreak ·)) with none | ⟨front, b, some⟩
  · refine ⟨[], fun more plain => ?_⟩
    rw [none, List.nil_append] at halves
    rw [← halves] at unbroken ⊢
    refine splitChars_of_unbroken fun c member => ?_
    exact (List.mem_append.mp member).elim (unbroken c) (plain c)
  · -- In front of the last piece stands a break.
    have breaks : isBreak b = true := by
      have stops := List.rdropWhile_last_not (!isBreak ·) cs (by simp [some])
      simpa [some] using stops
    refine ⟨splitChars isBreak front, fun more plain => ?_⟩
    rw [some, List.concat_eq_append] at halves
    conv_lhs => rw [halves, List.append_assoc, List.append_assoc, List.singleton_append]
    rw [splitChars_append breaks]
    congr 1
    refine splitChars_of_unbroken fun c member => ?_
    exact (List.mem_append.mp member).elim (unbroken c) (plain c)

/-- What ends in a blank or a control is no step. -/
theorem not_isStep_of_isUrlEdge {c : Char} (edge : isUrlEdge c = true) (cs : List Char) :
    ¬ IsStep (cs ++ [c]) := by
  have low : c.toNat ≤ 0x20 := of_decide_eq_true edge
  -- A step is decoded to points, and the last byte of the piece is none.
  have noPoints {form : List Char} {front : Bytes} (points : ∀ d ∈ form, d = '.')
      (bytes : utf8Bytes (String.ofList form) = front ++ [46]) : dotForm (cs ++ [c]) ≠ form := by
    intro same
    have decoded := percentDecode_of_dotForm (same ▸ points)
    rw [percentDecode_edge edge, same, bytes] at decoded
    have last := congrArg UInt8.toNat (List.cons.inj (List.append_inj' decoded rfl).2).1
    rw [UInt8.toNat_ofNat_of_lt' (show c.toNat < 256 by omega)] at last
    have point : (46 : UInt8).toNat = 46 := rfl
    omega
  have one : utf8Bytes (String.ofList ['.']) = [] ++ [46] := by
    rw [utf8Bytes_eq]
    rfl
  have two : utf8Bytes (String.ofList ['.', '.']) = [46] ++ [46] := by
    rw [utf8Bytes_eq]
    rfl
  rintro (point | points)
  · exact noPoints (by simp) one point
  · exact noPoints (by simp) two points

/-- What is cut off at the ends of an address is no slash. -/
theorem isSlash_of_isUrlEdge {c : Char} (edge : isUrlEdge c = true) : isSlash true c = false := by
  rw [isSlash, beq_of_isUrlEdge edge (by decide), beq_of_isUrlEdge edge (by decide)]
  rfl

/-- What is cut off at the ends of an address does not end an authority. -/
theorem endsAuthority_of_isUrlEdge {c : Char} (edge : isUrlEdge c = true) :
    endsAuthority c = false := by
  -- The characters that end an authority are all visible ones.
  rw [endsAuthority, isSlash_of_isUrlEdge edge, beq_of_isUrlEdge edge (by decide),
    beq_of_isUrlEdge edge (by decide)]
  rfl

/-- The segments of a path that ends in a slash, which is added if it is missing. -/
def closedSegments (parts : List (List Char)) : List (List Char) :=
  if parts.getLast? = some [] then parts else parts ++ [[]]

section

variable {scheme : List Char} {d : Char}

/-- A path in the web that starts with a slash is made of the pieces behind that. -/
theorem rootedSegments_slash (web : IsWebScheme scheme) (slash : isSlash true d = true)
    (rest : List Char) : rootedSegments scheme (d :: rest) =
      (addSegments false [] (splitChars (isSlash true) rest)).reverse := by
  -- The slash in front belongs to no piece, and the web has no drives.
  rw [rootedSegments, web.special.1]
  simp only [slash, if_true]
  rw [pathSegments, web.special.1, web.special.2]
  rfl

/-- What is in front of the last piece of a path in the web stays as it is, also when something is
written behind that piece. -/
theorem exists_rootedSegments (web : IsWebScheme scheme) (slash : isSlash true d = true)
    (rest : List Char) : ∃ front,
      let last := rest.rtakeWhile (!isSlash true ·)
      rootedSegments scheme (d :: rest) = (if IsStep last then [] :: passSegment front last
        else passSegment front last).reverse ∧
      ∀ more, (∀ c ∈ more, isSlash true c = false) →
        rootedSegments scheme (d :: rest ++ (more ++ ['/'])) =
          (passSegment front (last ++ more)).reverse ++ [[]] := by
  obtain ⟨pieces, splits⟩ := exists_splitChars_last (isSlash true) rest
  refine ⟨pieces.foldl passSegment [], ?_, fun more plain => ?_⟩
  · have split := splits [] nofun
    rw [List.append_nil, List.append_nil] at split
    rw [rootedSegments_slash web slash, split, addSegments_append (List.cons_ne_nil _ _),
      addSegments_last]
  · -- The slash that is written behind divides the last piece from an empty one.
    have split := splits more plain
    rw [List.cons_append, rootedSegments_slash web slash, ← List.append_assoc,
      splitChars_append (by decide), split, List.append_assoc,
      addSegments_append (by simp), List.singleton_append, addSegments_cons (by simp [splitChars])]
    rw [splitChars, addSegments_last, if_neg (by decide), passSegment_of_not_step (by decide),
      List.reverse_cons]
    rfl

/-- A path is closed behind its last piece, unless that is empty. -/
theorem closedSegments_last (front : List (List Char)) (last : List Char) :
    closedSegments (if IsStep last then [] :: passSegment front last
      else passSegment front last).reverse =
        (if last = [] then front else passSegment front last).reverse ++ [[]] := by
  -- A step has left the empty segment already, and a name is closed unless it is empty.
  by_cases step : IsStep last
  · have nonempty : last ≠ [] := by
      rintro rfl
      exact absurd step (by decide)
    rw [if_pos step, if_neg nonempty, closedSegments, List.reverse_cons, List.getLast?_concat,
      if_pos rfl]
  · rw [if_neg step, passSegment_of_not_step step, closedSegments, List.reverse_cons,
      List.getLast?_concat]
    by_cases empty : last = []
    · rw [if_pos empty, empty, if_pos (by rfl)]
      rfl
    · rw [if_neg empty, if_neg (by simpa [percentEncode_eq_nil_iff] using empty), List.reverse_cons]

/-- A path in the web that ends in a slash is closed. -/
theorem closedSegments_of_slash (web : IsWebScheme scheme) (slash : isSlash true d = true)
    {rest : List Char} (ends : rest.rtakeWhile (!isSlash true ·) = []) :
    closedSegments (rootedSegments scheme (d :: rest)) = rootedSegments scheme (d :: rest) := by
  -- The last piece is empty, since the text ends in a slash.
  obtain ⟨front, segments, -⟩ := exists_rootedSegments web slash rest
  rw [segments, closedSegments_last, ends, if_pos rfl, if_neg (by decide),
    passSegment_of_not_step (by decide), List.reverse_cons]
  rfl

/-- What is passed is the same with something behind it only if that is nothing. -/
theorem passSegment_append_iff {blanks : List Char} (edges : ∀ c ∈ blanks, isUrlEdge c = true)
    (front : List (List Char)) (last : List Char) :
    (passSegment front (last ++ blanks) = if last = [] then front else passSegment front last) ↔
      blanks = [] ∧ last ≠ [] := by
  rcases List.eq_nil_or_concat blanks with rfl | ⟨others, c, rfl⟩
  · rw [List.append_nil]
    by_cases empty : last = []
    · rw [if_pos empty, empty, passSegment_of_not_step (by decide)]
      simp
    · simp [empty]
  · rw [List.concat_eq_append] at edges ⊢
    have edge : isUrlEdge c = true := edges c (by simp)
    have encoded : passSegment front (last ++ (others ++ [c])) =
        percentEncode keepsInPath (last ++ (others ++ [c])) :: front := by
      rw [← List.append_assoc]
      exact passSegment_of_not_step (not_isStep_of_isUrlEdge edge _)
    rw [encoded]
    refine iff_of_false (fun same => ?_) (by simp)
    -- A segment is added that is too long to be the one of the last piece alone.
    split at same
    · exact List.cons_ne_self _ _ same
    · by_cases step : IsStep last
      · have shorter : (passSegment front last).length ≤ front.length := passSegment_of_step step
        rw [← same, List.length_cons] at shorter
        omega
      · rw [passSegment_of_not_step step] at same
        exact absurd (percentEncode_append_eq_iff.mp (List.cons.inj same).1) (by simp)

/-- Where no mark stands behind an authority, it is a slash that ends it. -/
theorem isSlash_of_endsAuthority {rest : List Char} (ends : endsAuthority d = true)
    (noQuery : '?' ∉ d :: rest) (noFragment : '#' ∉ d :: rest) : isSlash true d = true := by
  rw [endsAuthority, Bool.or_eq_true, Bool.or_eq_true] at ends
  -- Of the three ends that an authority may have, the other two are marks.
  rcases ends with (slash | query) | fragment
  · exact slash
  · exact absurd (eq_of_beq query ▸ List.mem_cons_self) noQuery
  · exact absurd (eq_of_beq fragment ▸ List.mem_cons_self) noFragment

/-- The last piece of a path is empty exactly if the path ends in a slash. -/
theorem rtakeWhile_ne_nil_iff (slash : isSlash true d = true) (rest : List Char) :
    rest.rtakeWhile (!isSlash true ·) ≠ [] ↔
      ∀ c ∈ (d :: rest).getLast?, isSlash true c = false := by
  -- Without anything behind it the slash in front is the last character.
  rcases List.eq_nil_or_concat rest with rfl | ⟨front, c, rfl⟩
  · simp [slash]
  · rw [List.concat_eq_append, ← List.cons_append, List.getLast?_concat, ne_eq,
      List.rtakeWhile_eq_nil_iff]
    simp

end

/-- An address whose path ends in a slash, which is added if it is missing. -/
def Url.closed (url : Url) : Url :=
  match url.path with
  | .segments parts => { url with path := .segments (closedSegments parts) }
  | .opaqueText _ => url

section

variable {scheme after blanks : List Char} {known : Authority}

/-- A slash behind an address of the web closes its path and changes nothing else exactly if the
address has no query and no fragment, nothing is left between it and the slash, and it does not end
in a slash itself. -/
theorem Url.behind_append_eq_closed_iff (known : Authority) (web : IsWebScheme scheme)
    (ends : ∀ c ∈ after.head?, endsAuthority c = true) (nonempty : after ≠ [])
    (edges : ∀ c ∈ blanks, isUrlEdge c = true) :
    Url.behind scheme known (after ++ (blanks ++ ['/'])) = (Url.behind scheme known after).closed ↔
      ((Url.behind scheme known after).query = none ∧
        (Url.behind scheme known after).fragment = none) ∧
      blanks = [] ∧ ∀ c ∈ after.getLast?, isSlash true c = false := by
  have absent {d : Char} (visible : 0x20 < d.toNat) (other : d ≠ '/') : d ∉ blanks ++ ['/'] := by
    intro member
    rcases List.mem_append.mp member with inside | last
    · exact ne_of_isUrlEdge (edges d inside) visible rfl
    · exact other (List.mem_singleton.mp last)
  have goesOn : blanks ++ ['/'] ≠ [] := by simp
  rcases UrlTail.of_append (absent (by decide) (by decide)) (absent (by decide) (by decide)) after
    with ⟨fragment, here, later⟩ | ⟨query, here, later⟩ |
      ⟨⟨noFragment, noQuery⟩, later⟩
  · -- The fragment goes on, while the closed address has the same.
    refine iff_of_false (fun same => ?_) fun bare => ?_
    · have fragments := congrArg Url.fragment same
      simp only [Url.behind, Url.closed, here, later, Option.map_some,
        Option.some.injEq] at fragments
      exact goesOn (percentEncode_append_eq_iff.mp fragments)
    · have fragment := bare.1.2
      simp only [Url.behind, here] at fragment
      cases fragment
  · -- The query goes on in the same way.
    refine iff_of_false (fun same => ?_) fun bare => ?_
    · have queries := congrArg Url.query same
      simp only [Url.behind, Url.closed, here, later, Option.map_some, Option.some.injEq] at queries
      exact goesOn (percentEncode_append_eq_iff.mp queries)
    · have query := bare.1.1
      simp only [Url.behind, here] at query
      cases query
  · -- What remains is the path, so its last piece decides.
    obtain ⟨d, rest, rfl⟩ := List.exists_cons_of_ne_nil nonempty
    have slash : isSlash true d = true :=
      isSlash_of_endsAuthority (ends d rfl) noQuery noFragment
    obtain ⟨front, segments, completed⟩ := exists_rootedSegments web slash rest
    have unbroken : ∀ c ∈ blanks, isSlash true c = false :=
      fun c member => isSlash_of_isUrlEdge (edges c member)
    have here := UrlTail.of_unmarked noFragment noQuery
    simp only [Url.behind, Url.closed, here, later, completed blanks unbroken, segments,
      closedSegments_last, Option.map_none, Url.mk.injEq, UrlPath.segments.injEq, true_and,
      and_true,
      List.append_left_inj, List.reverse_inj]
    rw [passSegment_append_iff edges, rtakeWhile_ne_nil_iff slash]

/-- Whether a slash behind the text of an address closes its path and changes nothing else. -/
structure EndsInPath (text : String) (url : Url) : Prop where
  bare : url.query = none ∧ url.fragment = none
  noBlanks : urlBlanks text = []
  noSlash : ∀ c ∈ (cleanedUrlChars text).getLast?, isSlash true c = false

/-- An address of the web without a path is the one with a slash for its path. -/
theorem Url.behind_slash (web : IsWebScheme scheme) :
    Url.behind scheme known ['/'] = Url.behind scheme known [] ∧
      (Url.behind scheme known []).closed = Url.behind scheme known [] := by
  -- Both texts have one piece, which is empty.
  have empty : rootedSegments scheme [] = [[]] := by
    rw [rootedSegments, web.special.1]
    rfl
  have slash : rootedSegments scheme ['/'] = [[]] := by
    rw [rootedSegments_slash web (by decide)]
    rfl
  constructor
  · show (⟨scheme, some known, .segments (rootedSegments scheme ['/']), none, none⟩ : Url) =
      ⟨scheme, some known, .segments (rootedSegments scheme []), none, none⟩
    rw [slash, empty]
  · show (⟨scheme, some known, .segments (closedSegments (rootedSegments scheme [])), none, none⟩ :
      Url) = ⟨scheme, some known, .segments (rootedSegments scheme []), none, none⟩
    rw [empty]
    rfl

/-- Behind an authority a slash is the path, unless something is left between the two that cannot
belong to a host or a port. -/
theorem urlOfAuthority_slash_iff {authority : List Char} (web : IsWebScheme scheme)
    (inside : ∀ c ∈ authority, endsAuthority c = false)
    (reads : authorityOf scheme authority true = .ok known)
    (edges : ∀ c ∈ blanks, isUrlEdge c = true) :
    urlOfAuthority scheme (authority ++ (blanks ++ ['/'])) = .ok (Url.behind scheme known []) ↔
      blanks = [] := by
  have special := web.special.1
  have insideBlanks : ∀ c ∈ authority ++ blanks, endsAuthority c = false := fun c member => by
    exact (List.mem_append.mp member).elim (inside c) fun late =>
      endsAuthority_of_isUrlEdge (edges c late)
  rw [← List.append_assoc, urlOfAuthority_append special insideBlanks (by simp; decide)]
  rcases List.eq_nil_or_concat blanks with rfl | ⟨others, c, rfl⟩
  · rw [List.append_nil, reads]
    exact iff_of_true (congrArg Except.ok (Url.behind_slash web).1) rfl
  · -- An authority that goes on with a blank is none.
    rw [List.concat_eq_append] at edges ⊢
    refine iff_of_false (fun ok => ?_) (by simp)
    obtain ⟨read, ok, -⟩ := map_ok_iff.mp ok
    rw [← List.append_assoc] at ok
    exact authorityOf_edge special (edges c (by simp)) _ _ _ ok

/-- A slash that is written behind the text of an address of the web closes its path exactly if the
text ends in that path, and not in a slash. -/
theorem Url.parse_slash_eq_closed_iff {text : String} {url : Url} (read : Url.parse text = .ok url)
    (web : url.IsWeb) : Url.parse (text ++ "/") = .ok url.closed ↔ EndsInPath text url := by
  have edges : ∀ c ∈ urlBlanks text, isUrlEdge c = true := fun c member =>
    List.mem_rtakeWhile_imp (List.mem_of_mem_filter member)
  obtain ⟨spelling⟩ := Url.exists_spelling read web
  have ending : EndsInPath text url ↔ (url.query = none ∧ url.fragment = none) ∧
      urlBlanks text = [] ∧ ∀ c ∈ (spelling.authority ++ spelling.after).getLast?,
        isSlash true c = false := by
    rw [← spelling.getLast?_cleaned]
    exact ⟨fun ends => ⟨ends.bare, ends.noBlanks, ends.noSlash⟩, fun ⟨bare, noBlanks, noSlash⟩ =>
      ⟨bare, noBlanks, noSlash⟩⟩
  rw [spelling.parse_slash, ending, List.append_assoc]
  by_cases none : spelling.after = []
  · have bare : url.query = .none ∧ url.fragment = .none := by
      rw [spelling.isBehind, none]
      exact ⟨rfl, rfl⟩
    have closed : url.closed = Url.behind url.scheme spelling.known [] := by
      rw [← (Url.behind_slash web).2, ← none]
      exact congrArg Url.closed spelling.isBehind
    -- The text ends in the authority, which has no slash in it.
    have noSlash : ∀ c ∈ spelling.authority.getLast?, isSlash true c = false := fun c member => by
      have inside := spelling.inside c (List.mem_of_mem_getLast? member)
      rw [endsAuthority, Bool.or_eq_false_iff, Bool.or_eq_false_iff] at inside
      exact inside.1.1
    rw [none, closed, List.nil_append, List.append_nil,
      urlOfAuthority_slash_iff web spelling.inside spelling.reads edges]
    exact ⟨fun empty => ⟨bare, empty, noSlash⟩, fun ends => ends.2.1⟩
  · -- What stands behind the authority goes on, and the authority stays the same.
    have goesOn : ∀ c ∈ (spelling.after ++ (urlBlanks text ++ ['/'])).head?,
        endsAuthority c = true := by
      rw [List.head?_append_of_ne_nil _ none]
      exact spelling.ends
    rw [urlOfAuthority_append (IsWebScheme.special web).1 spelling.inside goesOn, spelling.reads,
      List.getLast?_append_of_ne_nil _ none]
    rw [Except.map, Except.ok.injEq]
    have closes := Url.behind_append_eq_closed_iff spelling.known web spelling.ends none edges
    rwa [← spelling.isBehind] at closes

/-- The path of an address of the web whose text ends in a slash is closed, if no query and no
fragment stand behind it. -/
theorem Url.Spelling.closed_of_slash {text : String} {url : Url}
    (spelling : Url.Spelling text url) (web : url.IsWeb)
    (noQuery : '?' ∉ spelling.after) (noFragment : '#' ∉ spelling.after)
    (ends : (cleanedUrlChars text).getLast? = some '/') : url.closed = url := by
  rw [spelling.getLast?_cleaned] at ends
  -- The slash is not in the authority, so it stands behind that.
  have nonempty : spelling.after ≠ [] := fun none => by
    rw [none, List.append_nil] at ends
    exact absurd (spelling.inside '/' (List.mem_of_getLast? ends)) (by decide)
  obtain ⟨d, rest, after⟩ := List.exists_cons_of_ne_nil nonempty
  have slash : isSlash true d = true :=
    isSlash_of_endsAuthority (spelling.ends d (after ▸ rfl)) (after ▸ noQuery) (after ▸ noFragment)
  have last : rest.rtakeWhile (!isSlash true ·) = [] := by
    rw [List.getLast?_append_of_ne_nil _ nonempty, after] at ends
    by_contra goesOn
    exact absurd ((rtakeWhile_ne_nil_iff slash rest).mp goesOn '/' ends) (by decide)
  have known := spelling.isBehind
  rw [Url.behind, UrlTail.of_unmarked noFragment noQuery, after] at known
  rw [known]
  exact congrArg (fun parts => (⟨_, _, .segments parts, _, _⟩ : Url))
    (closedSegments_of_slash web slash last)

/-- A path of segments is closed behind those that it has. -/
theorem Url.exists_closed {url : Url} (segments : url.HasSegments) : ∃ before,
    (url.path = .segments before ∨ url.path = .segments (before ++ [[]])) ∧
      url.closed = { url with path := .segments (before ++ [[]]) } := by
  obtain ⟨parts, path⟩ := segments
  have closed : url.closed = { url with path := .segments (closedSegments parts) } := by
    rw [Url.closed, path]
  rw [closed, path, closedSegments]
  -- A path that ends in an empty segment is closed already.
  by_cases ends : parts.getLast? = some []
  · obtain ⟨before, rfl⟩ := List.getLast?_eq_some_iff.mp ends
    exact ⟨before, .inr rfl, by rw [if_pos ends]⟩
  · exact ⟨parts, .inl rfl, by rw [if_neg ends]⟩

end

end ContentApi
