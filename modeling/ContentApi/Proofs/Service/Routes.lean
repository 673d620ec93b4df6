import ContentApi.Proofs.Url.Endpoint
import ContentApi.Service.Route

/-! Every route takes its arguments into segments of their own. -/

namespace ContentApi

namespace Route

/-- The names and the marks of a route suit its arguments. -/
theorem takes (route : Route) : route.endpoint.Takes route.arity := by
  rcases route with (_ | _) | (_ | _) | (_ | _) | (_ | _) | _
  -- The templates are known, so their pieces are counted one route after the other.
  all_goals exact ⟨by cbv, by cbv, by cbv⟩

/-- An address is built for every route and its arguments, unless one of these is a step in a path,
which is refused. It differs from the base by its path only, where the pieces of the route stand
behind the directory of the base, with a segment that is decoded to the argument in the place of
each mark. So no other arguments lead to the same address. -/
theorem build_fills (route : Route) {base : Url} {before : List (List Char)}
    (directory : base.path = .segments (before ++ [[]])) (web : isFileScheme base.scheme = false)
    {arguments : List String} (enough : arguments.length = route.arity) :
    ((∃ argument ∈ arguments, argument = "." ∨ argument = "..") →
      ∃ step ∈ arguments, (step = "." ∨ step = "..") ∧
        route.endpoint.build base arguments = .error (.refused (.dotSegment step))) ∧
    ((∀ argument ∈ arguments, argument ≠ "." ∧ argument ≠ "..") →
      ∃ segments, Fills route.endpoint.pieces arguments segments ∧
        route.endpoint.build base arguments = .ok
          { base with path := .segments (before ++ segments), query := none, fragment := none }) ∧
    ∀ others url, others.length = route.arity → route.endpoint.build base arguments = .ok url →
      route.endpoint.build base others = .ok url → arguments = others := by
  have refused {given : List String} {step : String} (length : given.length = route.arity)
      (found : given.find? isDotSegment = some step) :=
    route.takes.build_refused length found base
  have filled {given : List String} (length : given.length = route.arity)
      (noSteps : given.find? isDotSegment = none) :=
    route.takes.build_filled length noSteps directory web
  refine ⟨?_, ?_, ?_⟩
  · rintro ⟨argument, member, isStep⟩
    cases found : arguments.find? isDotSegment with
    | none => exact absurd (isDotSegment_iff.mpr isStep) (List.find?_eq_none.mp found _ member)
    | some step =>
      exact ⟨step, List.mem_of_find?_eq_some found,
        isDotSegment_iff.mp (List.find?_some found), refused enough found⟩
  · intro noSteps
    refine filled enough (List.find?_eq_none.mpr fun argument member isStep => ?_)
    rcases isDotSegment_iff.mp isStep with point | points
    · exact (noSteps argument member).1 point
    · exact (noSteps argument member).2 points
  · intro others url length built builtOthers
    -- Where an address is built, nothing was refused.
    have noSteps {given : List String} (length : given.length = route.arity)
        (built : route.endpoint.build base given = .ok url) :
        given.find? isDotSegment = none := by
      cases found : given.find? isDotSegment with
      | none => rfl
      | some step =>
        rw [refused length found] at built
        cases built
    obtain ⟨segments, fills, address⟩ := filled enough (noSteps enough built)
    obtain ⟨segmentsOthers, fillsOthers, addressOthers⟩ :=
      filled length (noSteps length builtOthers)
    -- One address has one path, behind the same directory.
    have same : before ++ segments = before ++ segmentsOthers := by
      rw [built] at address
      rw [builtOthers] at addressOthers
      cases address
      exact UrlPath.segments.inj (congrArg Url.path (Except.ok.inj addressOthers))
    rw [← List.append_cancel_left same] at fillsOthers
    exact fills.unique fillsOthers

/-- An address without a path of its own. -/
def rootUrl : Url := ⟨"https".toList, none, .segments [[]], none, none⟩

/-- An address of metadata, whose scope would lead elsewhere if it was not encoded. -/
theorem build_metadataInstance : ∃ segments,
    Fills ["files".toList, mark, "metadata".toList, mark, mark] ["5", "../%2e?", "a/b#"] segments ∧
    (Route.metadataInstance .file).endpoint.build rootUrl ["5", "../%2e?", "a/b#"] =
      .ok { rootUrl with path := .segments segments } := by
  have directory : rootUrl.path = .segments ([] ++ [[]]) := rfl
  have enough : ["5", "../%2e?", "a/b#"].length = (Route.metadataInstance .file).arity := rfl
  have pieces : (Route.metadataInstance .file).endpoint.pieces =
      ["files".toList, mark, "metadata".toList, mark, mark] := by cbv
  -- None of the three arguments is a step, although one of them begins with points.
  have filled := ((Route.metadataInstance .file).build_fills directory (by decide) enough).2.1
    (by decide)
  rwa [pieces] at filled

end Route

end ContentApi
