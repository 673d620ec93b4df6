import ContentApi.Command.Program
import ContentApi.Proofs.Command.Words
import ContentApi.Proofs.Listing.Bounds

/-! A command that lists something prints as many entries as are enough, and asks for no more. -/

namespace ContentApi

namespace Command

/-- A command that lists something is one job, whatever number of entries is enough. -/
theorem exists_job_withMax {command : Command} {window : ListWindow}
    (lists : command.window? = some window) (c : Connection) (fields : List String) :
    ∃ (s : Shape) (listing : Except Failure (Listing s)),
      ∀ max, (command.withMax max).job c fields = .many listing max := by
  cases command with
  | whoami | info | fileVersions | fileTasks | fileDownload | metadata | template
  -- These commands have no window, so that there is nothing of theirs to replace.
  | taskAssignments => cases lists
  | folderItems id window => exact ⟨_, Handle.children ⟨c, id⟩ window.limit fields, fun _ => rfl⟩
  | holds name window => exact ⟨_, c.holds name window.limit fields, fun _ => rfl⟩
  | holdAssignments id filter window =>
    exact ⟨_, Handle.holdAssignments ⟨c, id⟩ filter window.limit fields, fun _ => rfl⟩
  | policies filter window => exact ⟨_, c.policies filter window.limit fields, fun _ => rfl⟩
  | policyAssignments id type window =>
    exact ⟨_, Handle.policyAssignments ⟨c, id⟩ type window.limit fields, fun _ => rfl⟩
  | versionRetentions filter window =>
    exact ⟨_, c.versionRetentions filter window.limit fields, fun _ => rfl⟩
  | allMetadata k id window => exact ⟨_, k.allMetadata ⟨c, id⟩ window.limit fields, fun _ => rfl⟩
  | templates scope window => exact ⟨_, c.templates scope window.limit fields, fun _ => rfl⟩

end Command

/-- How a program ends that has gathered entries. -/
def Ending.ofEntries {s : Shape} : Outcome (List (Datum s)) → Ending
  | .complete entries => .ofProduct (.ofEntries entries)
  | .failed failure => .failing failure.message
  | .short => .failing "too many pages"

/-- Whether a command line comes down to a listing, whatever number of entries is enough. -/
def CommandLine.Lists {s : Shape} (line : CommandLine) (settings : Option Settings)
    (l : Listing s) : Prop :=
  ∃ found connection, settings = some found ∧ (line.override found).connect = .ok connection ∧
    ∀ max, (line.command.withMax max).job connection line.fields = .many (.ok l) max

/-- A listing is gathered until there are entries enough. -/
theorem CommandLine.Lists.run {s : Shape} {line : CommandLine} {settings : Option Settings}
    {l : Listing s} (lists : line.Lists settings l) {σ : Type} (transport : Transport σ)
    (pages : Nat) (world : σ) (max : Option Nat) :
    (line.withMax max).run settings transport pages world =
      (.ofEntries (l.gather transport (fun count => max.any (· ≤ count)) pages world).1,
        (l.gather transport (fun count => max.any (· ≤ count)) pages world).2) := by
  obtain ⟨found, connection, rfl, connects, job⟩ := lists
  -- Neither the connection nor the listing depends on the number.
  have connects : ((line.withMax max).override found).connect = .ok connection := connects
  have job : (line.withMax max).command.job connection (line.withMax max).fields =
      .many (.ok l) max := job max
  simp only [CommandLine.run, connects, job, Job.run]
  rcases l.gather transport (fun count => max.any (· ≤ count)) pages world with
    ⟨entries | failure | _, after⟩ <;> rfl

/-- A command line with a listing command comes down to a listing, or is refused before anything is
asked for. -/
theorem CommandLine.lists_or_refused {line : CommandLine} {window : ListWindow}
    (lists : line.command.window? = some window) (settings : Option Settings) :
    (∃ (s : Shape) (l : Listing s), line.Lists settings l) ∨
      ∃ report, ∀ {σ : Type} (transport : Transport σ) (pages : Nat) (world : σ) (max : Option Nat),
        (line.withMax max).run settings transport pages world = (.failing report, world) := by
  -- Settings may be missing, their address may be refused, and so may that of the listing.
  cases settings with
  | none => exact .inr ⟨_, fun _ _ _ _ => rfl⟩
  | some found =>
    cases connects : (line.override found).connect with
    | error failure =>
      refine .inr ⟨failure.message, fun transport pages world max => ?_⟩
      have connects : ((line.withMax max).override found).connect = .error failure := connects
      simp only [CommandLine.run, connects]
    | ok connection =>
      obtain ⟨s, listing, job⟩ := Command.exists_job_withMax lists connection line.fields
      cases listing with
      | ok l => exact .inl ⟨s, l, found, connection, rfl, connects, job⟩
      | error failure =>
        refine .inr ⟨failure.message, fun transport pages world max => ?_⟩
        have connects : ((line.withMax max).override found).connect = .ok connection := connects
        have job : (line.withMax max).command.job connection (line.withMax max).fields =
            .many (.error failure) max := job max
        simp only [CommandLine.run, connects, job, Job.run]
        rfl

section

variable {σ : Type} {transport : Transport σ} {world : σ} {pages n : Nat}

/-- The program runs the command line that it reads. -/
theorem runProgram_read {s : Surroundings} {words : List String} {line : CommandLine}
    (read : CommandLine.read (s.environment.find? tokenVariable) words = .ok line) :
    runProgram words s transport pages world = line.run s.settings? transport pages world := by
  rw [runProgram, read]

/-- Whether no entry is enough or one is makes no difference, as an entry is printed before it is
asked whether there are enough. -/
theorem CommandLine.run_zero {line : CommandLine} {window : ListWindow}
    (lists : line.command.window? = some window) (settings : Option Settings) :
    (line.withMax (some 0)).run settings transport pages world =
      (line.withMax (some 1)).run settings transport pages world := by
  rcases line.lists_or_refused lists settings with ⟨s, l, lists⟩ | ⟨report, refused⟩
  · -- Entries are counted after one was added, and no count above nothing tells the two apart.
    have same : ∀ count, 0 < count → (some 0).any (· ≤ count) = (some 1).any (· ≤ count) :=
      fun count positive => by simp [Nat.succ_le_of_lt positive]
    rw [lists.run, lists.run, Listing.gather, Listing.gather, l.gatherFrom_congr same]
  · rw [refused, refused]

/-- A command line with a listing command prints all there is, and as many of the first entries as
are enough if a number is given, by the requests for as few pages as have them. -/
theorem CommandLine.Lists.run_bounded {s : Shape} {line : CommandLine} {settings : Option Settings}
    {l : Listing s} (lists : line.Lists settings l) {answers : List (Option Response)}
    (played : l.IsPlayed transport world answers) (sufficient : answers.length < pages)
    (positive : 0 < n) :
    let run := fun max => (line.withMax max).run settings transport.traced pages (world, [])
    let requests := fun max => (run max).2.2.map Exchange.request
    let course := l.course (some l.first) answers
    ((run none).1 = .ofEntries course.outcome ∧ requests none = course.requests) ∧
    (n ≤ course.entries.length →
      (run (some n)).1 = .ofProduct (.ofEntries (course.entries.take n)) ∧
      ∃ fetched, IsLeast {k | n ≤ (course.pages.take k).flatten.length} fetched ∧
        requests (some n) = course.requests.take fetched ∧
        (requests (some n)).length = fetched) ∧
    (course.entries.length < n →
      (run (some n)).1 = (run none).1 ∧ requests (some n) = requests none) := by
  intro run requests course
  have ran (max : Option Nat) : run max = _ := lists.run transport.traced pages (world, []) max
  have asks (max : Option Nat) : requests max =
      (l.gather transport.traced (fun count => max.any (· ≤ count)) pages (world, [])).2.2.map
        Exchange.request := congrArg (fun done => done.2.2.map Exchange.request) (ran max)
  -- A number that is not come to is as good as none.
  have complete (max : Option Nat) (short : ∀ count, count ≤ course.entries.length →
      max.any (· ≤ count) = false) :
      (run max).1 = .ofEntries course.outcome ∧ requests max = course.requests := by
    obtain ⟨all, asked⟩ := l.gather_of_short played sufficient fun count _ => short count
    exact ⟨by rw [ran, all], (asks max).trans asked⟩
  obtain ⟨whole, asked⟩ := complete none fun _ _ => rfl
  refine ⟨⟨whole, asked⟩, fun inside => ?_, fun beyond => ?_⟩
  · obtain ⟨first, fetched, least, asked, count⟩ :=
      l.gather_of_reached played sufficient positive inside
    have first : (l.gather transport.traced (fun count => (some n).any (· ≤ count)) pages
        (world, [])).1 = .complete (course.entries.take n) := first
    refine ⟨?_, fetched, least, (asks (some n)).trans asked, ?_⟩
    · rw [ran, first]
      rfl
    · rw [asks, List.length_map]
      exact count
  · obtain ⟨bounded, askedBounded⟩ := complete (some n) fun count fewer =>
      decide_eq_false (Nat.not_le.mpr (Nat.lt_of_le_of_lt fewer beyond))
    exact ⟨bounded.trans whole.symm, askedBounded.trans asked.symm⟩

end

/-- A listing command of which a number of entries is enough prints that many of the first entries
that it prints without the number, by the requests for as few pages as have them. If there are
fewer, it ends as it does without the number, by all its requests. The number may be put behind the
words, and wherever it stands it does the same. The answers are any that a transport plays to the
listing, as it does with each script. A command that is refused before it asks for anything is
refused with the number as without it. -/
theorem runProgram_bounded {s : Surroundings} {words : List String} {line : CommandLine}
    {window : ListWindow} {n : Nat}
    (read : CommandLine.read (s.environment.find? tokenVariable) words = .ok line)
    (lists : line.command.window? = some window) (unlimited : window.max = none)
    (positive : 0 < n) :
    (∀ value, countOf? value.toList = some n → "--" ∉ words →
      CommandLine.read (s.environment.find? tokenVariable) (words ++ ["--max", value]) =
        .ok (line.withMax (some n))) ∧
    ∀ bounded, CommandLine.read (s.environment.find? tokenVariable) bounded =
        .ok (line.withMax (some n)) →
      ∀ {σ : Type} (transport : Transport σ) (world : σ) (pages : Nat),
        let run := fun words => runProgram words s transport.traced pages (world, [])
        let requests := fun words => (run words).2.2.map Exchange.request
        (∃ report, run words = (.failing report, world, []) ∧
          run bounded = (.failing report, world, [])) ∨
        ∃ (shape : Shape) (l : Listing shape), line.Lists s.settings? l ∧
          ∀ answers, l.IsPlayed transport world answers → answers.length < pages →
            let course := l.course (some l.first) answers
            ((run words).1 = .ofEntries course.outcome ∧ requests words = course.requests) ∧
            (n ≤ course.entries.length →
              (run bounded).1 = .ofProduct (.ofEntries (course.entries.take n)) ∧
              ∃ fetched, IsLeast {k | n ≤ (course.pages.take k).flatten.length} fetched ∧
                requests bounded = course.requests.take fetched ∧
                (requests bounded).length = fetched) ∧
            (course.entries.length < n →
              (run bounded).1 = (run words).1 ∧ requests bounded = requests words) := by
  refine ⟨fun value number unescaped =>
    CommandLine.read_withMax read lists unlimited unescaped number, ?_⟩
  intro bounded readBounded σ transport world pages run requests
  -- The command line without the number is the one with no number.
  have whole : line = line.withMax none := by
    have same := Command.withMax_max lists
    rw [unlimited] at same
    rw [CommandLine.withMax, same]
  have runWords : run words = (line.withMax none).run s.settings? transport.traced pages
      (world, []) := by
    rw [← whole]
    exact runProgram_read read
  have runBounded : run bounded = (line.withMax (some n)).run s.settings? transport.traced pages
      (world, []) := runProgram_read readBounded
  rcases line.lists_or_refused lists s.settings? with ⟨shape, l, found⟩ | ⟨report, refused⟩
  · refine .inr ⟨shape, l, found, fun answers played sufficient => ?_⟩
    simp only [requests, runWords, runBounded]
    exact found.run_bounded played sufficient positive
  · exact .inl ⟨report, runWords.trans (refused ..), runBounded.trans (refused ..)⟩

/-- The words of a command that lists metadata, over a connection in clear text. -/
def propertyWords : List String :=
  ["metadata", "list", "file", "7", "--token", "t", "--base-url", "http://h/"]

/-- A page with two metadata instances, which leads on to a page that is not had. -/
def propertyScript : Script :=
  .ofAnswers [some (.carrying
    "\x7b\"entries\":[\x7b\"a\":1\x7d,\x7b\"b\":2\x7d],\"next_marker\":\"m\"\x7d"), none]

/-- A run of the program without variables and files, to whose requests the script is played. -/
def propertyRun (words : List String) : Ending × Script × List Exchange :=
  runProgram words ⟨[], []⟩ Transport.scripted.traced 3 (propertyScript, [])

/-- The two instances are printed if two are enough, by one request, though the page behind them
cannot be had. -/
theorem runProgram_bounded_properties :
    (propertyRun propertyWords).1.report = some "HTTP error" ∧
    (propertyRun (propertyWords ++ ["--max", "2"])).1.printed =
      "[\n  \x7b\n    \"a\": 1\n  \x7d,\n  \x7b\n    \"b\": 2\n  \x7d\n]\n" ∧
    ∃ (shape : Shape) (l : Listing shape) (answers : List (Option Response)),
      l.IsPlayed Transport.scripted propertyScript answers ∧
      (propertyRun (propertyWords ++ ["--max", "2"])).1 =
        .ofProduct (.ofEntries ((l.course (some l.first) answers).entries.take 2)) ∧
      IsLeast {k | 2 ≤ (((l.course (some l.first) answers).pages.take k).flatten).length} 1 := by
  obtain ⟨silent, report⟩ : (propertyRun propertyWords).1.printed = "" ∧
      (propertyRun propertyWords).1.report = some "HTTP error" := by decide +kernel
  obtain ⟨printed, one⟩ : (propertyRun (propertyWords ++ ["--max", "2"])).1.printed =
        "[\n  \x7b\n    \"a\": 1\n  \x7d,\n  \x7b\n    \"b\": 2\n  \x7d\n]\n" ∧
      (propertyRun (propertyWords ++ ["--max", "2"])).2.2.length = 1 := by decide +kernel
  refine ⟨report, printed, ?_⟩
  obtain ⟨line, read, lists⟩ : ∃ line, CommandLine.read none propertyWords = .ok line ∧
      line.command.window? = some ⟨usualLimit, none⟩ := ⟨_, rfl, rfl⟩
  obtain ⟨accepted, bounds⟩ := runProgram_bounded (s := ⟨[], []⟩) read lists rfl
    (show 0 < 2 by decide)
  have readBounded := accepted "2" (by decide) (by decide)
  rcases bounds _ readBounded Transport.scripted propertyScript 3 with
    ⟨report, -, refused⟩ | ⟨shape, l, -, course⟩
  · -- A command that is refused asks for nothing.
    have nothing : (propertyRun (propertyWords ++ ["--max", "2"])).2.2.length = 0 :=
      congrArg (fun run => run.2.2.length) refused
    omega
  · obtain ⟨answers, played, few⟩ : ∃ answers,
        l.IsPlayed Transport.scripted propertyScript answers ∧ answers.length < 3 :=
      ⟨_, l.isPlayed_scripted propertyScript, by split <;> decide⟩
    obtain ⟨-, reached, short⟩ := course answers played few
    have inside : 2 ≤ (l.course (some l.first) answers).entries.length := by
      by_contra fewer
      -- With fewer entries the command would fail as it does without the number.
      have same := congrArg Ending.printed (short (Nat.lt_of_not_le fewer)).1
      exact absurd (printed.symm.trans (same.trans silent)) (by decide)
    obtain ⟨prints, fetched, least, -, count⟩ := reached inside
    rw [List.length_map] at count
    obtain rfl : fetched = 1 := count.symm.trans one
    exact ⟨shape, l, answers, played, prints, least⟩

/-- Even if no entry is enough, one is printed, by one request. -/
theorem propertyRun_zero :
    (propertyRun (propertyWords ++ ["--max", "0"])).1.printed =
      "[\n  \x7b\n    \"a\": 1\n  \x7d\n]\n" ∧
    (propertyRun (propertyWords ++ ["--max", "0"])).2.2.length = 1 := by
  -- The run is computed as a whole.
  decide +kernel

end ContentApi
