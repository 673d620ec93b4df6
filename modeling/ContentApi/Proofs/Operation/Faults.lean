import ContentApi.Proofs.Listing.Exchanges
import ContentApi.Proofs.Listing.Filters
import ContentApi.Proofs.Operation.Refusals
import ContentApi.Proofs.Operation.Tokens
import ContentApi.Proofs.Schema.Reports
import Mathlib.Data.List.Forall2

/-! Every answer outside the two hundreds is told as a fault, with what its body reports as a whole,
and no other answer is. -/

namespace ContentApi

variable {α σ : Type} {s : Shape}

/-- Whether a fault is what an answer says: with the status of the answer, and with what its text
reports as a whole, or else with nothing but the words for the status. -/
structure ApiFault.IsOf (fault : ApiFault) (response : Response) : Prop where
  status : fault.status = response.status
  told : ∀ report : FaultReport, report.IsToldBy response.text →
    fault.code = report.code ∧
      fault.message = report.message.getD (statusText response.status) ∧
      fault.requestId = report.requestId
  untold : (¬ ∃ report : FaultReport, report.IsToldBy response.text) →
    fault.code = none ∧ fault.message = statusText response.status ∧ fault.requestId = none

/-- The words of a report are found in it by their names. -/
theorem FaultReport.text?_datum (report : FaultReport) {fields : Record .apiError}
    (same : Datum.record fields = report.datum) :
    fields.text? "code" = report.code ∧ fields.text? "message" = report.message ∧
      fields.text? "request_id" = report.requestId := by
  cases same
  -- Each of the words is there or not, and is found either way.
  obtain ⟨_ | code, _ | message, _ | requestId⟩ := report <;> exact ⟨rfl, rfl, rfl⟩

/-- The fault that is made of an answer is what the answer says. -/
theorem ApiFault.isOf_ofResponse (response : Response) :
    (ApiFault.ofResponse response).IsOf response := by
  rw [ofResponse]
  -- The reader is exact: it takes just those texts that tell a report.
  cases read : Datum.ofText (.record .apiError) response.text with
  | error fault =>
    have untold : ¬ ∃ report : FaultReport, report.IsToldBy response.text := by
      rintro ⟨report, told⟩
      have ok := Datum.ofText_apiError_ok_iff.mpr ⟨report, told, rfl⟩
      rw [read] at ok
      cases ok
    exact ⟨rfl, fun report told => absurd ⟨report, told⟩ untold, fun _ => ⟨rfl, rfl, rfl⟩⟩
  | ok datum =>
    cases datum with
    | record fields =>
    have words {report : FaultReport} (told : report.IsToldBy response.text) :
        Datum.record fields = report.datum := by
      have ok := Datum.ofText_apiError_ok_iff.mpr ⟨report, told, rfl⟩
      exact Except.ok.inj (read.symm.trans ok)
    refine ⟨rfl, fun report told => ?_, fun untold => ?_⟩
    · obtain ⟨code, message, requestId⟩ := report.text?_datum (words told)
      exact ⟨code, congrArg (·.getD (statusText response.status)) message, requestId⟩
    · obtain ⟨report, told, -⟩ := Datum.ofText_apiError_ok_iff.mp read
      exact absurd ⟨report, told⟩ untold

/-- The fault that a failure tells of, if it tells of one. -/
def Failure.fault? : Failure → Option ApiFault
  | .api fault => some fault
  | _ => none

/-- What is wrong with an answer of success is no fault that it tells. -/
theorem Failure.IsOfAnswer.fault? {failure : Failure} (ofAnswer : failure.IsOfAnswer) :
    failure.fault? = none := by
  cases ofAnswer <;> rfl

/-- An address that is not built was not asked at. -/
theorem Endpoint.fault?_of_buildWith {endpoint : Endpoint} {base : Url} {query : List Char}
    {arguments : List String} {failure : Failure}
    (failed : endpoint.buildWith base query arguments = .error failure) :
    failure.fault? = none := by
  -- The arguments are refused, or the path does not join, and the service hears of neither.
  rcases bind_error_iff.mp failed with failed | ⟨_, -, impossible⟩
  · rcases bind_error_iff.mp failed with failed | ⟨_, -, failed⟩
    · obtain ⟨refusal, -, rfl⟩ := mapError_error_iff.mp failed
      rfl
    · obtain ⟨cause, -, rfl⟩ := mapError_error_iff.mp failed
      rfl
  · cases impossible

/-- An operation that is not sent fails without a fault that the service tells. -/
theorem Inquiry.fault?_of_error (inquiry : Inquiry α) {failure : Failure}
    (unsent : inquiry.operation = .error failure) : failure.fault? = none := by
  -- What is refused by itself never gets to its address, and the others fail there.
  cases refused : inquiry.refusal? with
  | some refusal =>
    rw [inquiry.operation_of_refusal refused] at unsent
    cases unsent
    rfl
  | none =>
    obtain ⟨-, query, send, same, -⟩ := inquiry.isAskedBy_operation refused
    rw [same] at unsent
    exact Endpoint.fault?_of_buildWith (map_error_iff.mp unsent)

/-- No answer of success is read as a fault by anything that is asked. -/
theorem Inquiry.fault?_of_read (inquiry : Inquiry α) {call : Call α}
    (asked : inquiry.operation = .ok call) {response : Response}
    (success : response.isSuccess = true) {failure : Failure}
    (failed : call.read response = .error failure) : failure.fault? = none := by
  by_cases reads : inquiry.operation.ReadsMetadata
  · rcases bind_error_iff.mp ((reads.read_error_iff asked response).mp failed) with
      failed | ⟨value, -, failed⟩
    · exact (response.json_failsByAnswer failure failed).fault?
    · obtain ⟨refusal, -, rfl⟩ := mapError_error_iff.mp failed
      rfl
  · -- All other operations fail by what they are answered, whoever answers.
    let answering : Transport Unit := ⟨fun _ _ => (some response, ())⟩
    have honest : inquiry.operation.IsHonest answering ((), []) :=
      (Offered.isHonest_iff ⟨inquiry, rfl⟩ answering _).mpr fun misreads => reads misreads.1
    rw [asked, Operation.isHonest_ok_iff] at honest
    exact (honest response rfl success failure failed).fault?

/-- The answers outside the two hundreds that a record shows. -/
def refusals (record : List Exchange) : List Response :=
  (record.filterMap Exchange.answer).filter fun response => !response.isSuccess

/-- Whether the faults that some failures tell of are those that a record shows, in their order. -/
def AreOf (failures : List Failure) (record : List Exchange) : Prop :=
  List.Forall₂ ApiFault.IsOf (failures.filterMap Failure.fault?) (refusals record)

/-- What one record shows and what another one shows is shown by both, one after the other. -/
theorem AreOf.append {failures others : List Failure} {record later : List Exchange}
    (first : AreOf failures record) (second : AreOf others later) :
    AreOf (failures ++ others) (record ++ later) := by
  -- The refusals of both records and the faults of both lists stand one after the other.
  rw [AreOf, refusals, List.filterMap_append, List.filterMap_append, List.filter_append]
  exact List.rel_append first second

/-- The failure that a result is, if it is one. -/
def failureOf? : Except Failure α → Option Failure
  | .error failure => some failure
  | .ok _ => none

/-- A failure without a fault is of no answer. -/
theorem areOf_of_unasked {failure : Failure} (faultless : failure.fault? = none) :
    AreOf [failure] [] := by
  -- Neither side has anything to compare.
  rw [AreOf, List.filterMap_cons_none faultless]
  exact .nil

/-- What comes of a call tells of a fault exactly if its answer does, if answers of success are not
read as faults. -/
theorem Call.areOf_outcome {call : Call α} {request : Request} {answer : Option Response}
    (reads : ∀ response failure, response.isSuccess = true →
      call.read response = .error failure → failure.fault? = none) :
    AreOf (failureOf? (call.outcome answer)).toList [⟨request, answer⟩] := by
  -- Without an answer there is neither a fault nor a refusal.
  cases answer with
  | none => exact .nil
  | some response =>
    rw [Call.outcome]
    cases success : response.isSuccess with
    | true =>
      have none : refusals [⟨request, some response⟩] = [] :=
        List.filter_eq_nil_iff.mpr fun other inside => by
          cases List.mem_singleton.mp inside
          simp [success]
      rw [if_pos rfl, AreOf, none]
      cases read : call.read response with
      | ok value => exact .nil
      | error failure =>
        exact areOf_of_unasked (reads response failure success read)
    | false =>
      have one : refusals [⟨request, some response⟩] = [response] :=
        List.filter_eq_self.mpr fun other inside => by
          cases List.mem_singleton.mp inside
          simp [success]
      rw [if_neg (by decide), AreOf, one]
      exact .cons (ApiFault.isOf_ofResponse response) .nil

/-- What is asked tells of a fault exactly if its answer does. -/
theorem Inquiry.areOf_outcome (inquiry : Inquiry α) {call : Call α}
    (asked : inquiry.operation = .ok call) (answer : Option Response) :
    AreOf (failureOf? (call.outcome answer)).toList [⟨call.request, answer⟩] :=
  Call.areOf_outcome fun _ _ success failed => inquiry.fault?_of_read asked success failed

/-- A page of a listing tells of a fault exactly if its answer does. -/
theorem Listing.areOf_outcome (l : Listing s) (cursor : Cursor) (answer : Option Response) :
    AreOf (failureOf? ((l.page cursor).outcome answer)).toList
      [⟨(l.page cursor).request, answer⟩] :=
  Call.areOf_outcome fun response failure _ failed =>
    (response.page_failsByAnswer s cursor failure failed).fault?

/-- A listing that is not made fails without a fault that the service tells. -/
theorem Survey.fault?_of_error {survey : Survey s} {failure : Failure}
    (unmade : survey.listing = .error failure) : failure.fault? = none := by
  -- A listing is not made only when its endpoint has no address.
  rw [survey.listing_eq] at unmade
  exact Endpoint.fault?_of_buildWith (map_error_iff.mp unmade)

section

variable {transport : Transport σ}

/-- What is asked tells of the faults that its answers do. -/
theorem Inquiry.areOf_run (inquiry : Inquiry α) (transport : Transport σ)
    (state : σ × List Exchange) : ∃ added,
      (inquiry.operation.run transport.traced state).2.2 = state.2 ++ added ∧
      AreOf (failureOf? (inquiry.operation.run transport.traced state).1).toList added := by
  -- What is not sent adds no exchange, and what is sent adds one.
  cases asked : inquiry.operation with
  | error failure =>
    exact ⟨[], (List.append_nil _).symm, areOf_of_unasked (inquiry.fault?_of_error asked)⟩
  | ok call => exact ⟨_, rfl, inquiry.areOf_outcome asked _⟩

/-- Pages that are asked for one after another tell of the faults that their answers do. -/
theorem Listing.Leads.areOf {l : Listing s} {first last : Option Cursor} {record : List Exchange}
    {failure : Option Failure} (leads : l.Leads first record failure last) :
    AreOf failure.toList record := by
  -- Only the last page can fail, so those before it add nothing.
  induction leads with
  | stays => exact .nil
  | @fails cursor answer failure outcome =>
    have told := l.areOf_outcome cursor answer
    rwa [outcome] at told
  | @goesOn cursor answer page rest failure last outcome _ ih =>
    have told := l.areOf_outcome cursor answer
    rw [outcome] at told
    exact told.append ih

end

/-- Whether a call fails by a fault exactly if it is answered outside the two hundreds, and then by
what the answer says. -/
def Call.TellsFaults (call : Call α) : Prop :=
  ∀ response : Response,
    if 200 ≤ response.status ∧ response.status ≤ 299 then
      ∀ fault, call.outcome (some response) ≠ .error (.api fault)
    else ∃ fault : ApiFault, call.outcome (some response) = .error (.api fault) ∧
      fault.IsOf response

/-- A call tells faults if it reads no answer of success as one. -/
theorem Call.tellsFaults {call : Call α} (reads : ∀ response failure, response.isSuccess = true →
    call.read response = .error failure → failure.fault? = none) : call.TellsFaults := by
  intro response
  -- Success is to be between the bounds, on which both sides depend.
  have success : response.isSuccess = true ↔ 200 ≤ response.status ∧ response.status ≤ 299 := by
    simp [Response.isSuccess]
  split
  · rename_i inside
    rw [outcome, if_pos (success.mpr inside)]
    intro fault failed
    cases reads response _ (success.mpr inside) failed
  · rename_i outside
    rw [outcome, if_neg (outside ∘ success.mp)]
    exact ⟨_, rfl, ApiFault.isOf_ofResponse response⟩

namespace Errand

/-- The failures that are shown by what something has come to. -/
def failures : {β : Type} → Errand β → β → List Failure
  | _, .ask _, result => (failureOf? result).toList
  | _, .send _ _ _, sent => (failureOf? sent.1).toList
  | _, .gather _ _ _, .error failure => [failure]
  | _, .gather _ _ _, .ok outcome => outcome.failure?.toList
  | _, .pull _ _ _, .error failure => [failure]
  | _, .pull _ _ _, .ok found => found.filterMap Found.failure?

/-- Whatever is done tells of the faults that the answers to it do. -/
theorem areOf_run {β : Type} (errand : Errand β) (transport : Transport σ) (world : σ) :
    let ran := errand.run transport.traced (world, [])
    AreOf (errand.failures ran.1) ran.2.2 := by
  intro ran
  cases errand with
  | ask inquiry =>
    obtain ⟨added, record, told⟩ := inquiry.areOf_run transport (world, [])
    show AreOf _ (inquiry.operation.run transport.traced (world, [])).2.2
    rw [record]
    exact told
  | send h s editable =>
    obtain ⟨added, record, told⟩ :=
      (Inquiry.update h s editable).areOf_run transport (world, [])
    rw [Inquiry.operation] at record told
    show AreOf (failureOf? (h.sendChanges s transport.traced (world, []) editable).1).toList
      (h.sendChanges s transport.traced (world, []) editable).2.2.2
    rw [Handle.sendChanges]
    -- What becomes of the snapshot does not matter to the failure.
    rcases had : (h.update s editable).run transport.traced (world, []) with ⟨failure | next, after⟩
    all_goals
      rw [had] at record told
      exact record.trans (List.nil_append added) ▸ told
  | gather survey enough pages =>
    cases made : survey.listing with
    | error failure =>
      rw [show ran = (.error failure, (world, [])) by simp only [ran, run, made]]
      exact areOf_of_unasked (Survey.fault?_of_error made)
    | ok l =>
      obtain ⟨added, last, record, leads⟩ :=
        l.leads_gatherFrom transport enough pages (some l.first) [] (world, [])
      rw [show ran = (l.gather transport.traced enough pages (world, [])).map .ok id by
        simp only [ran, run, made]]
      exact record.trans (List.nil_append added) ▸ leads.areOf
  | pull survey allowed pulls =>
    cases made : survey.listing with
    | error failure =>
      rw [show ran = (.error failure, (world, [])) by simp only [ran, run, made]]
      exact areOf_of_unasked (Survey.fault?_of_error made)
    | ok l =>
      obtain ⟨added, failure, last, record, failures, leads⟩ :=
        l.walk.leads_pulls transport allowed pulls (world, [])
      rw [show ran = (.ok (l.walk.pulls transport.traced allowed pulls (world, [])).1,
        (l.walk.pulls transport.traced allowed pulls (world, [])).2.2) by
          simp only [ran, run, made]]
      show AreOf (List.filterMap Found.failure? _) _
      rw [failures, record]
      exact leads.areOf

end Errand

/-- Whatever is asked of the service, and each page of whatever it lists, fails by a fault exactly
if it is answered outside the two hundreds: with the status of the answer, and with what the text of
the answer reports as a whole, or else with nothing but the words for the status. However much is
asked one after the other, the faults that are told are those that the answers say, in their order,
and no answer of success is told as a fault. -/
theorem faults_told :
    (∀ (α : Type) (inquiry : Inquiry α) (call : Call α),
      inquiry.operation = .ok call → call.TellsFaults) ∧
    (∀ (s : Shape) (l : Listing s) (cursor : Cursor), (l.page cursor).TellsFaults) ∧
    ∀ (β : Type) (errand : Errand β) (σ : Type) (transport : Transport σ) (world : σ),
      let ran := errand.run transport.traced (world, [])
      List.Forall₂ ApiFault.IsOf ((errand.failures ran.1).filterMap Failure.fault?)
        (refusals ran.2.2) := by
  refine ⟨fun α inquiry call asked => ?_, fun s l cursor => ?_,
    fun β errand σ transport world => errand.areOf_run transport world⟩
  · -- For an operation the reading of answers is looked at one by one, for a page there is one.
    exact Call.tellsFaults fun _ _ success failed => inquiry.fault?_of_read asked success failed
  · exact Call.tellsFaults fun response failure _ failed =>
      (response.page_failsByAnswer s cursor failure failed).fault?

/-- The text of a report that has a code and no words for it, and a number too great for a double.
-/
def missingText : String :=
  "\x7b\"size\":1e400,\"message\":null,\"code\":\"gone\",\"request_id\":\"9\"\x7d"

/-- The report is told as a whole, whatever the number stands for. -/
theorem FaultReport.isToldBy_missingText :
    (FaultReport.mk (some "gone") none (some "9")).IsToldBy missingText := by
  -- The text is written out, so that it is scanned by computing.
  have written : missingText.toList =
      ['\x7b', '"', 's', 'i', 'z', 'e', '"', ':', '1', 'e', '4', '0', '0', ',', '"', 'm',
        'e', 's', 's', 'a', 'g', 'e', '"', ':', 'n', 'u', 'l', 'l', ',', '"', 'c', 'o', 'd',
        'e', '"', ':', '"', 'g', 'o', 'n', 'e', '"', ',', '"', 'r', 'e', 'q', 'u', 'e', 's',
        't', '_', 'i', 'd', '"', ':', '"', '9', '"', '\x7d'] := by
    decide
  have scanned : WholeText.scan missingText = ⟨.object (.cons (some "size") (.number none)
      (.cons (some "message") .null (.cons (some "code") (.text (some "gone"))
        (.cons (some "request_id") (.text (some "9")) (.nil .closed))))), false⟩ := by
    rw [WholeText.scan, written]
    rfl
  -- The number is too great to be read, but it is passed over and no part of the report.
  rw [IsToldBy, scanned]
  exact ⟨.object (by simp [DocMembers.IsWhole, Doc.IsWhole])
    (by simp [DocMembers.IsNamed]) (Or.inr ⟨_, rfl, .text _⟩) (Or.inr ⟨_, rfl, .null⟩)
    (Or.inr ⟨_, rfl, .text _⟩), rfl⟩

/-- The unlocking of a file is told to have failed by the code of a report, or by the status alone.
-/
theorem faults_told_unlock : ∃ call,
    (Inquiry.unlock ⟨plainConnection, "7"⟩).operation = .ok call ∧
    call.outcome (some ⟨410, utf8Bytes missingText⟩) =
      .error (.api ⟨410, some "gone", "410 Gone", some "9"⟩) ∧
    call.outcome (some ⟨502, utf8Bytes "<html>"⟩) =
      .error (.api ⟨502, none, "502 Bad Gateway", none⟩) := by
  obtain ⟨call, asked⟩ : ∃ call, (Inquiry.unlock ⟨plainConnection, "7"⟩).operation = .ok call :=
    ⟨_, by cbv⟩
  -- What is told is fixed by the status and by the report, if the text has one.
  have tells := faults_told.1 _ _ call asked
  refine ⟨call, asked, ?_, ?_⟩
  · have reported : (FaultReport.mk (some "gone") none (some "9")).IsToldBy
        (Response.mk 410 (utf8Bytes missingText)).text := by
      rw [Response.text, textOfUtf8_utf8Bytes]
      exact FaultReport.isToldBy_missingText
    obtain ⟨⟨_, _, _, _⟩, failed, status, told, -⟩ := tells ⟨410, utf8Bytes missingText⟩
    obtain ⟨code, message, requestId⟩ := told _ reported
    cases status
    cases code
    cases message
    cases requestId
    exact failed
  · have unreported : ¬ ∃ report : FaultReport,
        report.IsToldBy (Response.mk 502 (utf8Bytes "<html>")).text := by
      have scanned : (WholeText.scan "<html>").doc = .broken .malformed .malformed := by cbv
      rw [Response.text, textOfUtf8_utf8Bytes]
      rintro ⟨report, reports, -⟩
      rw [scanned] at reports
      cases reports
    obtain ⟨⟨_, _, _, _⟩, failed, status, -, untold⟩ := tells ⟨502, utf8Bytes "<html>"⟩
    obtain ⟨code, message, requestId⟩ := untold unreported
    cases status
    cases code
    cases message
    cases requestId
    exact failed

end ContentApi
