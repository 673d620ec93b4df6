import ContentApi.Proofs.Url.Endpoint

/-! A filled template is what stands between its marks, with the encoded arguments in between. -/

namespace ContentApi

/-- How a template is cut at its marks: at the leftmost one, and then what follows that. -/
@[mk_iff]
inductive IsCutInto : List Char → List (List Char) → Prop where
  | whole {template : List Char} (unmarked : ¬ mark <:+: template) : IsCutInto template [template]
  | marked {front rest : List Char} {pieces : List (List Char)}
      (leftmost : ∀ earlier : List Char, earlier.length < front.length →
        ¬ earlier ++ mark <+: front ++ (mark ++ rest))
      (later : IsCutInto rest pieces) : IsCutInto (front ++ (mark ++ rest)) (front :: pieces)

/-- Pieces with a value behind each of them but the last, as far as there are values. -/
def interleave : List (List Char) → List (List Char) → List Char
  | front :: next :: pieces, value :: values =>
    front ++ (value ++ interleave (next :: pieces) values)
  | pieces, _ => pieces.flatten

namespace IsCutInto

variable {template front rest : List Char} {pieces others : List (List Char)}

/-- A template has a piece, if only an empty one. -/
theorem exists_cons (cut : IsCutInto template pieces) :
    ∃ front later, pieces = front :: later := by
  -- Cut or not, there is a piece in front of the first mark.
  cases cut with
  | whole => exact ⟨_, _, rfl⟩
  | marked => exact ⟨_, _, rfl⟩

/-- A character with which no mark begins belongs to the first piece. -/
theorem cons {c : Char} (cut : IsCutInto rest (front :: pieces)) (unmarked : ¬ mark <+: c :: rest) :
    IsCutInto (c :: rest) ((c :: front) :: pieces) := by
  rcases (isCutInto_iff _ _).mp cut with
    ⟨clear, same⟩ | ⟨first, after, later, leftmost, cut, rfl, same⟩
  · obtain ⟨rfl, rfl⟩ := List.cons.inj same
    refine .whole fun inside => ?_
    -- A mark in the longer text is at its front or in the rest.
    exact (List.infix_cons_iff.mp inside).elim unmarked clear
  · obtain ⟨rfl, rfl⟩ := List.cons.inj same
    refine @IsCutInto.marked (c :: front) _ _ (fun earlier short stands => ?_) cut
    cases earlier with
    | nil => exact unmarked stands
    | cons d earlier =>
      exact leftmost earlier (Nat.lt_of_succ_lt_succ short) (List.cons_prefix_cons.mp stands).2

/-- A template is cut in one way only. -/
theorem unique (cut : IsCutInto template pieces) (cutOther : IsCutInto template others) :
    others = pieces := by
  induction cut generalizing others with
  | whole unmarked =>
    rcases (isCutInto_iff _ _).mp cutOther with ⟨-, same⟩ | ⟨front, rest, _, -, -, rfl, -⟩
    · exact same
    · exact absurd ⟨front, rest, List.append_assoc ..⟩ unmarked
  | @marked front rest pieces leftmost _ ih =>
    rcases (isCutInto_iff _ _).mp cutOther with
      ⟨unmarked, rfl⟩ | ⟨first, after, later, leftmostOther, cutLater, same, rfl⟩
    · exact absurd ⟨front, rest, List.append_assoc ..⟩ unmarked
    · -- The shorter one of the two fronts would be an earlier place for the mark of the other.
      have lengths : front.length = first.length := by
        refine Nat.le_antisymm (Nat.not_lt.mp fun short => ?_) (Nat.not_lt.mp fun short => ?_)
        · exact leftmost first short ⟨after, by rw [List.append_assoc, same]⟩
        · exact leftmostOther front short ⟨rest, by rw [List.append_assoc, same]⟩
      obtain ⟨rfl, tails⟩ := List.append_inj same lengths
      obtain rfl := List.append_cancel_left tails
      rw [ih cutLater]

end IsCutInto

/-- Every template can be cut. -/
theorem exists_isCutInto (template : List Char) : ∃ pieces, IsCutInto template pieces := by
  by_cases stands : mark <+: template
  · -- A mark at the front is the leftmost one, with nothing in front of it.
    obtain ⟨rest, same⟩ := stands
    have shorter : rest.length < template.length := by simp [← same, mark]
    obtain ⟨pieces, cut⟩ := exists_isCutInto rest
    have leftmost : ∀ earlier : List Char, earlier.length < ([] : List Char).length →
        ¬ earlier ++ mark <+: [] ++ (mark ++ rest) :=
      fun _ short => absurd short (Nat.not_lt_zero _)
    exact ⟨[] :: pieces, same ▸ .marked leftmost cut⟩
  · cases template with
    | nil => exact ⟨[[]], .whole (by decide)⟩
    | cons c rest =>
      obtain ⟨pieces, cut⟩ := exists_isCutInto rest
      obtain ⟨front, later, rfl⟩ := cut.exists_cons
      exact ⟨(c :: front) :: later, cut.cons stands⟩
termination_by template.length

@[simp] theorem interleave_nil (pieces : List (List Char)) :
    interleave pieces [] = pieces.flatten := by
  rcases pieces with _ | ⟨_, _ | _⟩ <;> rfl

section

variable {template front rest : List Char} {pieces : List (List Char)} {argument : String}
  {arguments : List String}

/-- What stands in front of the leftmost mark is passed on. -/
theorem fillTemplate_front (leftmost : ∀ earlier : List Char, earlier.length < front.length →
      ¬ earlier ++ mark <+: front ++ (mark ++ rest)) :
    fillTemplate (front ++ (mark ++ rest)) arguments =
      (fillTemplate (mark ++ rest) arguments).map (front ++ ·) := by
  -- The induction is on what stands in front, of which no part begins a mark.
  induction front with
  | nil =>
    rw [List.nil_append]
    cases fillTemplate (mark ++ rest) arguments <;> rfl
  | cons c front ih =>
    have here : ¬ mark <+: c :: (front ++ (mark ++ rest)) := leftmost [] (Nat.succ_pos _)
    have later := fun earlier short stands =>
      leftmost (c :: earlier) (Nat.succ_lt_succ short) (List.cons_prefix_cons.mpr ⟨rfl, stands⟩)
    rw [List.cons_append, fillTemplate_unmarked here, ih later]
    cases fillTemplate (mark ++ rest) arguments <;> rfl

/-- A template without marks is filled as it is. -/
theorem fillTemplate_whole (unmarked : ¬ mark <:+: template) :
    fillTemplate template arguments = .ok template := by
  -- The induction is on the template, no end of which begins with a mark.
  induction template with
  | nil => rfl
  | cons c rest ih =>
    obtain ⟨here, later⟩ := not_or.mp fun stands => unmarked (List.infix_cons_iff.mpr stands)
    rw [fillTemplate_unmarked here, ih later]
    rfl

/-- A template is filled with its pieces and the encoded arguments, unless one of the arguments that
it has places for is a step in a path. Of these the first one is refused. -/
theorem IsCutInto.fillTemplate_eq (cut : IsCutInto template pieces) (arguments : List String) :
    fillTemplate template arguments =
      match (arguments.take (pieces.length - 1)).find? isDotSegment with
      | some step => .error (.dotSegment step)
      | none => .ok (interleave pieces (arguments.map encodeSegment)) := by
  -- Each mark takes the first of the arguments that are left.
  induction cut generalizing arguments with
  | @whole template unmarked =>
    rw [fillTemplate_whole unmarked]
    exact congrArg Except.ok (List.append_nil template).symm
  | @marked front rest _ leftmost later ih =>
    obtain ⟨next, pieces, rfl⟩ := later.exists_cons
    rw [fillTemplate_front leftmost]
    cases arguments with
    | nil =>
      have passed : fillTemplate (mark ++ rest) [] = fillTemplate rest [] := by
        rw [mark, List.cons_append, List.cons_append, List.nil_append, fillTemplate]
      simp [passed, ih, Except.map]
    | cons argument arguments =>
      have taken : fillTemplate (mark ++ rest) (argument :: arguments) =
          if isDotSegment argument then .error (.dotSegment argument)
          else (fillTemplate rest arguments).map (encodeSegment argument ++ ·) := by
        rw [mark, List.cons_append, List.cons_append, List.nil_append, fillTemplate]
      rw [taken]
      simp only [List.length_cons, Nat.add_sub_cancel, List.take_succ_cons, List.map_cons,
        interleave] at ih ⊢
      by_cases step : isDotSegment argument = true
      · simp [step, Except.map]
      · rw [if_neg step, List.find?_cons_of_neg step, ih]
        cases (arguments.take pieces.length).find? isDotSegment <;> rfl

end

namespace Endpoint

variable {endpoint : Endpoint} {arguments : List String}

/-- A path that is refused leads to no address, whatever the base is. -/
theorem build_of_refused {refusal : Refusal} (refused : endpoint.path arguments = .error refusal)
    (base : Url) : endpoint.build base arguments = .error (.refused refusal) := by
  rw [build, refused]
  rfl

/-- The path of an endpoint is what stands between the marks of its template, cut at the leftmost
mark and so on, with the encoded arguments in between. Marks without an argument leave nothing, and
arguments without a mark do not count. Just where an argument that counts is a step in a path, the
first one of these is refused. -/
theorem path_interleaved (endpoint : Endpoint) : ∃ pieces,
    (IsCutInto endpoint.template.toList pieces ∧
      ∀ others, IsCutInto endpoint.template.toList others → others = pieces) ∧
    ∀ arguments : List String,
      let counting := arguments.take (pieces.length - 1)
      let path := interleave pieces (arguments.map encodeSegment)
      ((∀ argument ∈ counting, argument ≠ "." ∧ argument ≠ "..") →
        endpoint.path arguments = .ok path ∧ ∀ base : Url,
          endpoint.build base arguments = (base.join (String.ofList path)).mapError .address) ∧
      (∀ base : Url, (∃ refusal, endpoint.build base arguments = .error (.refused refusal)) ↔
        ∃ argument ∈ counting, argument = "." ∨ argument = "..") ∧
      ∀ step, counting.find? isDotSegment = some step → ∀ base : Url,
        endpoint.build base arguments = .error (.refused (.dotSegment step)) := by
  obtain ⟨pieces, cut⟩ := exists_isCutInto endpoint.template.toList
  refine ⟨pieces, ⟨cut, fun others cutOther => cut.unique cutOther⟩, fun arguments => ?_⟩
  intro counting path
  -- All that is said follows from whether a step in a path is found among what counts.
  have outcome : endpoint.path arguments = match counting.find? isDotSegment with
      | some step => .error (.dotSegment step)
      | none => .ok path := cut.fillTemplate_eq arguments
  cases found : counting.find? isDotSegment with
  | some step =>
    rw [found] at outcome
    have isStep := isDotSegment_iff.mp (List.find?_some found)
    have inside := List.mem_of_find?_eq_some found
    have refused := build_of_refused outcome
    refine ⟨fun free => ?_, fun base => ?_, fun other same => ?_⟩
    · obtain ⟨noPoint, noPoints⟩ := free step inside
      exact (isStep.elim noPoint noPoints).elim
    · exact iff_of_true ⟨_, refused base⟩ ⟨step, inside, isStep⟩
    · cases same
      exact refused
  | none =>
    rw [found] at outcome
    have built := fun base => @build_of_path _ _ base _ outcome
    refine ⟨fun _ => ⟨outcome, built⟩, fun base => iff_of_false ?_ ?_, fun step same => ?_⟩
    · -- An address may still be impossible, but then no argument is refused for it.
      rintro ⟨refusal, refused⟩
      rw [built, mapError_error_iff] at refused
      obtain ⟨fault, -, other⟩ := refused
      cases other
    · rintro ⟨argument, inside, isStep⟩
      exact List.find?_eq_none.mp found argument inside (isDotSegment_iff.mpr isStep)
    · cases same

/-- Marks side by side take an argument each, and the mark in an argument is encoded. -/
example : (Endpoint.mk "%%s%s/%").path ["é", "%s", "x"] = .ok "%%C3%A9%25s/%".toList := by
  decide

end Endpoint

end ContentApi
