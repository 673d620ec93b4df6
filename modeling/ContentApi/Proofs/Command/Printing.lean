import ContentApi.Proofs.Command.Bounds
import ContentApi.Proofs.Command.Questions
import ContentApi.Proofs.Listing.Exchanges

/-! A command sends what its question takes, and prints the whole answer or nothing. -/

namespace ContentApi

variable {σ : Type} {s : Shape}

namespace Ending

/-- Whether a program prints a value, and does nothing else. -/
def Prints (ending : Ending) (value : Json) : Prop :=
  ending.code = 0 ∧ ending.printed = value.pretty 0 ++ "\n" ∧ ending.files = []

/-- Whether a program fails, and prints nothing. -/
def Fails (ending : Ending) : Prop :=
  ending.code = 1 ∧ ending.printed = "" ∧ ending.files = []

/-- A program that reports a failure prints nothing. -/
theorem fails_failing (report : String) : (failing report).Fails := ⟨rfl, rfl, rfl⟩

end Ending

/-- Whether a program prints the entries of a listing that is complete, and otherwise nothing. -/
def Outcome.IsShown : Outcome (List (Datum s)) → Ending → Prop
  | .complete entries, ending => ending.Prints (.ofEntries entries)
  | .failed _, ending | .short, ending => ending.Fails

/-- Whether a run of a program answers what comes of a listing: it prints all of that or nothing, by
the exchanges that it takes. These are those of asking for the next entry until there are enough or
there is none. If none are enough, they are those of collecting the listing, and otherwise the first
of those. Only a listing that never ends can take too many pages. -/
structure Listing.IsAnswered (l : Listing s) (max : Option Nat) (transport : Transport σ)
    (world : σ) (pages : Nat) (run : Ending × σ × List Exchange)
    (done : Outcome (List (Datum s)) × σ × List Exchange) : Prop where
  shown : done.1.IsShown run.1
  sent : run.2 = done.2
  pulled : done.1 ≠ .short → l.walk.DrainsUntil transport.traced (fun count => max.any (· ≤ count))
    (world, []) [] done.1 done.2
  collected : max = none → done = l.collect transport.traced pages (world, [])
  begins : done.2.2 <+: (l.collect transport.traced pages (world, [])).2.2
  ends : ∀ answers, l.IsPlayed transport world answers → answers.length < pages → done.1 ≠ .short

/-- Whether a run of a program answers a question: it sends what asking that takes, and prints the
answer if there is one, and otherwise nothing. -/
def Question.IsAnswered (transport : Transport σ) (world : σ) (pages : Nat)
    (run : Ending × σ × List Exchange) : Question → Prop
  | .ask inquiry shown =>
    let done := inquiry.operation.run transport.traced (world, [])
    run.2 = done.2 ∧
      match done.1 with
      | .ok answer => run.1.Prints (shown answer)
      | .error _ => run.1.Fails
  | .list survey max =>
    match survey.listing with
    | .ok l => ∃ done, l.IsAnswered max transport world pages run done
    | .error _ => run.2 = (world, []) ∧ run.1.Fails

/-- What is made of the outcome of a call is made of whatever is answered. -/
theorem Call.outcome_andThen {α β : Type} (call : Call α) (product : α → β)
    (answer : Option Response) :
    (call.andThen fun outcome => .ok (product outcome)).outcome answer =
      (call.outcome answer).map product := by
  cases answer with
  | none => rfl
  | some response =>
    rw [outcome, outcome, andThen]
    -- Only an answer of success is read.
    split
    · show (call.read response).bind _ = _
      cases call.read response <;> rfl
    · rfl

/-- What is made of the outcome of an operation is made of it after the same request. -/
theorem Operation.run_andThen {α β : Type} (operation : Operation α) (product : α → β)
    (transport : Transport σ) (world : σ) :
    (operation.andThen fun outcome => .ok (product outcome)).run transport world =
      ((operation.run transport world).1.map product, (operation.run transport world).2) := by
  -- An operation that is refused has no request, and any other one is its call.
  cases operation with
  | error failure => rfl
  | ok call => exact Prod.ext (call.outcome_andThen product _) rfl

/-- Gathering does not take too many pages of a listing that is played. -/
theorem Listing.gather_ne_short (l : Listing s) {transport : Transport σ} {world : σ}
    {answers : List (Option Response)} {pages : Nat} (played : l.IsPlayed transport world answers)
    (sufficient : answers.length < pages) (enough : Nat → Bool) :
    (l.gather transport.traced enough pages (world, [])).1 ≠ .short := by
  -- What is gathered is read off the course that the answers take, which is never too long.
  obtain ⟨gathered, -⟩ : (l.course (some l.first) answers).IsGathered enough [] []
      (l.gather transport.traced enough pages (world, [])) :=
    isGathered_course (played.traced []) sufficient
  rw [gathered, Course.gathered]
  repeat' split
  all_goals simp

namespace Job

/-- How the program ends that does a job, and what it has exchanged by then. -/
def answer (job : Job) (transport : Transport σ) (pages : Nat) (world : σ) :
    Ending × σ × List Exchange :=
  (.ofOutcome (job.run transport.traced pages (world, [])).1,
    (job.run transport.traced pages (world, [])).2)

/-- A listing is answered by gathering it. -/
theorem isAnswered_many (l : Listing s) (max : Option Nat) (transport : Transport σ) (pages : Nat)
    (world : σ) : l.IsAnswered max transport world pages
      ((many (.ok l) max).answer transport pages world)
      (l.gather transport.traced (fun count => max.any (· ≤ count)) pages (world, [])) where
  shown := by
    rw [answer, run]
    -- Only a listing that is complete makes a value to print.
    rcases l.gather transport.traced (fun count => max.any (· ≤ count)) pages (world, []) with
      ⟨entries | failure | _, after⟩
    · exact ⟨rfl, rfl, rfl⟩
    · exact Ending.fails_failing _
    · exact Ending.fails_failing _
  sent := by
    rw [answer, run]
    rcases l.gather transport.traced (fun count => max.any (· ≤ count)) pages (world, []) with
      ⟨entries | failure | _, after⟩ <;> rfl
  pulled complete := Listing.drainsUntil_of_gatherFrom rfl complete
  collected all := by
    subst all
    rfl
  begins := l.prefix_gatherFrom ..
  ends answers played sufficient := l.gather_ne_short played sufficient _

end Job

/-- The job for a question answers it. -/
theorem Question.isAnswered_job (question : Question) (transport : Transport σ) (pages : Nat)
    (world : σ) :
    question.IsAnswered transport world pages (question.job.answer transport pages world) := by
  cases question with
  | ask inquiry shown =>
    -- The value to print is made of the answer after the request, so the request stays the same.
    rw [job, Job.ofOperation, IsAnswered, Job.answer, Job.run, Operation.run_andThen]
    rcases inquiry.operation.run transport.traced (world, []) with ⟨failure | value, after⟩
    · exact ⟨rfl, Ending.fails_failing _⟩
    · exact ⟨rfl, rfl, rfl, rfl⟩
  | list survey max =>
    rw [job, IsAnswered]
    cases survey.listing with
    -- A listing whose address cannot be made is not begun.
    | error failure => exact ⟨rfl, Ending.fails_failing _⟩
    | ok l => exact ⟨_, Job.isAnswered_many l max transport pages world⟩

/-- Unless it is to store a file, the program answers the question that its words put, whatever is
answered to its requests. The words are those of a command, in the parts of which the members to ask
for and all else are given. The program sends what asking the question through its connection takes,
and prints the whole answer or nothing. If no settings are found or they make no connection, it
sends and prints nothing. -/
theorem runProgram_answers {s : Surroundings} {words : List String} {line : CommandLine}
    (read : CommandLine.read (s.environment.find? tokenVariable) words = .ok line)
    (noFile : ∀ id path, line.command ≠ .fileDownload id path) :
    ∃ path parts given, ReadsCommand [] words path parts ∧ parts.getLast? = some given ∧
      line.fields = commaPieces (commonValues parts "fields") ∧
      ∀ {σ : Type} (transport : Transport σ) (world : σ) (pages : Nat),
        let run := runProgram words s transport.traced pages (world, [])
        (∀ settings c, s.settings? = some settings →
          (line.override settings).connect = .ok c → ∃ question,
            Question.IsPutBy c line.fields path given question ∧
              question.IsAnswered transport world pages run) ∧
        ((∀ settings c, s.settings? = some settings →
            (line.override settings).connect ≠ .ok c) →
          run.2 = (world, []) ∧ run.1.Fails) := by
  obtain ⟨path, parts, given, reads, ends, fields, asks⟩ := CommandLine.exists_question read noFile
  refine ⟨path, parts, given, reads, ends, fields, fun transport world pages => ?_⟩
  intro run
  have ran : run = line.run s.settings? transport.traced pages (world, []) :=
    runProgram_read read
  refine ⟨fun settings c isFound connects => ?_, fun unconnected => ?_⟩
  · obtain ⟨question, put, job⟩ := asks c
    refine ⟨question, put, ?_⟩
    -- The program does the job of its command, and that is the job for the question.
    have answered := question.isAnswered_job transport pages world
    rw [← job] at answered
    rw [isFound, CommandLine.run] at ran
    simp only [connects] at ran
    rw [ran]
    exact answered
  · rw [ran]
    -- Either there are no settings, or they are refused before anything is sent.
    cases isFound : s.settings? with
    | none => exact ⟨rfl, Ending.fails_failing _⟩
    | some settings =>
      cases connects : (line.override settings).connect with
      | ok c => exact absurd connects (unconnected settings c isFound)
      | error failure =>
        simp only [CommandLine.run, connects, true_and]
        exact Ending.fails_failing _

/-- The words of a command that lists metadata of a folder, with members and a size of pages. -/
def memberWords : List String :=
  ["metadata", "list", "folder", "7", "--fields", "a,b", "--limit", "2", "--token", "t",
    "--base-url", "http://h/"]

/-- The question of such words is answered: two pages are asked for, and as the second one is not
had, nothing is printed of the first. -/
theorem runProgram_answers_members :
    (propertyRun memberWords).1.Fails ∧ (propertyRun memberWords).2.2.length = 2 ∧
    ∃ path parts given c question, ReadsCommand [] memberWords path parts ∧
      Question.IsPutBy c ["a", "b"] path given question ∧
      question.IsAnswered Transport.scripted propertyScript 3 (propertyRun memberWords) := by
  obtain ⟨fails, two⟩ : ((propertyRun memberWords).1.code = 1 ∧
      (propertyRun memberWords).1.printed = "" ∧ (propertyRun memberWords).1.files = []) ∧
      (propertyRun memberWords).2.2.length = 2 := by decide +kernel
  obtain ⟨line, read, fields, noFile⟩ : ∃ line, CommandLine.read none memberWords = .ok line ∧
      line.fields = ["a", "b"] ∧ ∀ id path, line.command ≠ .fileDownload id path :=
    ⟨_, rfl, rfl, nofun⟩
  obtain ⟨path, parts, given, reads, -, -, answers⟩ :=
    runProgram_answers (s := ⟨[], []⟩) read noFile
  obtain ⟨connected, unconnected⟩ := answers Transport.scripted propertyScript 3
  have connects : ∃ settings c, Surroundings.settings? ⟨[], []⟩ = some settings ∧
      (line.override settings).connect = .ok c := by
    by_contra none
    -- Without a connection nothing would be sent.
    obtain ⟨silent, -⟩ := unconnected fun settings c isFound connects =>
      none ⟨settings, c, isFound, connects⟩
    have nothing : (propertyRun memberWords).2.2.length = 0 :=
      congrArg (fun sent => sent.2.length) silent
    omega
  obtain ⟨settings, c, isFound, connects⟩ := connects
  obtain ⟨question, put, answered⟩ := connected settings c isFound connects
  rw [fields] at put
  exact ⟨fails, two, path, parts, given, c, question, reads, put, answered⟩

end ContentApi
