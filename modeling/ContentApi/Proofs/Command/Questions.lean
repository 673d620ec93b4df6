import ContentApi.Command.Job
import ContentApi.Proofs.Command.Words
import ContentApi.Proofs.Operation.Tokens

/-! What the words of a command ask of the service, in the terms of whoever asks it directly. -/

namespace ContentApi

/-- What a command asks: something with what is shown of the answer, or a listing of which so many
entries are enough, unless all are asked for. -/
inductive Question : Type 1 where
  | ask {α : Type} (inquiry : Inquiry α) (shown : α → Json)
  | list {s : Shape} (survey : Survey s) (max : Option Nat)

/-- The job that answers a question. -/
def Question.job : Question → Job
  | .ask inquiry shown => .ofOperation inquiry.operation fun answer => .document (shown answer)
  | .list survey max => .many survey.listing max

/-- Documents for display. -/
def Json.ofEntries {s : Shape} (entries : List (Datum s)) : Json :=
  .array (entries.map Datum.toDisplay)

/-- The groups of commands about an object that can be described. -/
def describedObjects : List (String × Resource) :=
  [("file", .file), ("folder", .folder), ("legal-hold", .legalHold),
    ("retention", .retentionPolicy), ("file-version-retention", .fileVersionRetention),
    ("task", .task)]

/-- The words for content that has metadata. -/
def contentWords : List (String × Content) := [("file", .file), ("folder", .folder)]

/-- The words for what a legal hold may be assigned to, with those of the service. -/
def holdTargetWords : List (String × String) :=
  [("file", "file"), ("file-version", "file_version"), ("folder", "folder"), ("user", "user")]

/-- The words for what a retention policy may be assigned to. -/
def policyTargetWords : List (String × String) :=
  [("enterprise", "enterprise"), ("folder", "folder")]

/-- The words for the types of retention policies. -/
def policyTypeWords : List (String × Word .retentionType) :=
  [("finite", .finite), ("indefinite", .indefinite)]

/-- The words for what becomes of a version that is kept no longer, with those of the service. -/
def dispositionWords : List (String × Word .disposition) :=
  [("permanently-delete", .permanentlyDelete), ("remove-retention", .removeRetention)]

namespace Given

/-- Whether an option is not given, or has a word of a table for a value that stands for another. -/
def IsWord {α : Type} (given : Given) (name : String) (table : List (String × α)) :
    Option α → Prop :=
  Option.Rel (fun word meaning => (word, meaning) ∈ table) (given.value? name)

/-- Whether an option is not given, or has a number for a value. -/
def IsNumber (given : Given) (name : String) : Option Nat → Prop :=
  Option.Rel (fun value n => countOf? value.toList = some n) (given.value? name)

/-- Whether pages of so many entries are asked for, and so many entries are enough. -/
structure IsWindow (given : Given) (limit : Nat) (max : Option Nat) : Prop where
  limit : ∃ number, given.IsNumber "limit" number ∧ number.getD usualLimit = limit
  max : given.IsNumber "max" max

end Given

/-- Which question is put by the words of a command and what is given behind them, for some members
and through a connection. -/
inductive Question.IsPutBy (c : Connection) (fields : List String) :
    List String → Given → Question → Prop where
  | whoami {given : Given} :
    IsPutBy c fields ["whoami"] given
      (.ask (.info (.currentUser c) fields (by decide)) fun s => s.datum.toDisplay)
  | info {given : Given} {group id : String} {r : Resource} (routed : r ≠ .fileVersion)
    (described : (group, r) ∈ describedObjects) (named : given.operand? 0 = some id) :
    IsPutBy c fields [group, "info"] given
      (.ask (.info (r := r) ⟨c, id⟩ fields routed) fun s => s.datum.toDisplay)
  | versions {given : Given} {id : String} (named : given.operand? 0 = some id) :
    IsPutBy c fields ["file", "versions"] given (.ask (.versions ⟨c, id⟩) .ofEntries)
  | tasks {given : Given} {id : String} (named : given.operand? 0 = some id) :
    IsPutBy c fields ["file", "tasks"] given (.ask (.tasks ⟨c, id⟩ fields) .ofEntries)
  | taskAssignments {given : Given} {id : String} (named : given.operand? 0 = some id) :
    IsPutBy c fields ["task", "assignments"] given (.ask (.taskAssignments ⟨c, id⟩) .ofEntries)
  | metadata {given : Given} {word id : String} {k : Content} (content : (word, k) ∈ contentWords)
    (first : given.operand? 0 = some word) (named : given.operand? 1 = some id) :
    IsPutBy c fields ["metadata", "get"] given
      (.ask (.getMetadata k ⟨c, id⟩
        (.resolve (given.value? "template") (given.value? "scope"))) Metadata.toJson)
  | template {given : Given} {key : String} (named : given.operand? 0 = some key) :
    IsPutBy c fields ["template", "get"] given
      (.ask (.getTemplate c key ((given.value? "scope").getD "enterprise") fields)
        Datum.toDisplay)
  | folder {given : Given} {id : String} {limit : Nat} {max : Option Nat}
    (named : given.operand? 0 = some id) (window : given.IsWindow limit max) :
    IsPutBy c fields ["folder", "list"] given (.list (.children ⟨c, id⟩ limit fields) max)
  | rootFolder {given : Given} {limit : Nat} {max : Option Nat} (unnamed : given.operand? 0 = none)
    (window : given.IsWindow limit max) :
    IsPutBy c fields ["folder", "list"] given (.list (.children (.root c) limit fields) max)
  | holds {given : Given} {limit : Nat} {max : Option Nat} (window : given.IsWindow limit max) :
    IsPutBy c fields ["legal-hold", "list"] given
      (.list (.holds c (given.value? "name") limit fields) max)
  | holdAssignments {given : Given} {id : String} {type : Option String} {limit : Nat}
    {max : Option Nat} (named : given.operand? 0 = some id)
    (target : given.IsWord "assign-to-type" holdTargetWords type)
    (window : given.IsWindow limit max) :
    IsPutBy c fields ["legal-hold", "assignments"] given
      (.list (.holdAssignments ⟨c, id⟩ ⟨type, given.value? "assign-to-id"⟩ limit fields) max)
  | policies {given : Given} {type : Option (Word .retentionType)} {limit : Nat} {max : Option Nat}
    (typed : given.IsWord "policy-type" policyTypeWords type) (window : given.IsWindow limit max) :
    IsPutBy c fields ["retention", "list"] given
      (.list (.policies c ⟨given.value? "name", type, given.value? "created-by"⟩ limit fields) max)
  | policyAssignments {given : Given} {id : String} {type : Option String} {limit : Nat}
    {max : Option Nat} (named : given.operand? 0 = some id)
    (target : given.IsWord "assign-to-type" policyTargetWords type)
    (window : given.IsWindow limit max) :
    IsPutBy c fields ["retention", "assignments"] given
      (.list (.policyAssignments ⟨c, id⟩ type limit fields) max)
  | versionRetentions {given : Given} {action : Option (Word .disposition)} {limit : Nat}
    {max : Option Nat} (disposed : given.IsWord "disposition-action" dispositionWords action)
    (window : given.IsWindow limit max) :
    IsPutBy c fields ["file-version-retention", "list"] given
      (.list (.versionRetentions c ⟨given.value? "file-id", given.value? "file-version-id",
        given.value? "policy-id", action, none, none⟩ limit fields) max)
  | allMetadata {given : Given} {word id : String} {k : Content} {limit : Nat} {max : Option Nat}
    (content : (word, k) ∈ contentWords) (first : given.operand? 0 = some word)
    (named : given.operand? 1 = some id) (window : given.IsWindow limit max) :
    IsPutBy c fields ["metadata", "list"] given (.list (.allMetadata k ⟨c, id⟩ limit fields) max)
  | templates {given : Given} {limit : Nat} {max : Option Nat}
    (window : given.IsWindow limit max) :
    IsPutBy c fields ["template", "list"] given
      (.list (.templates c ((given.value? "scope").getD "enterprise") limit fields) max)

section

variable {given : Given} {options : List OptionForm} {name : String}

/-- An option that takes the words of a table has one of them for a value. -/
theorem Given.isWord_map {α : Type} {table : List (String × α)} (read : String → α)
    (fits : given.FitsIn options)
    (forms : ∀ form ∈ options, form.name = name → form.form = .choice (table.map Prod.fst))
    (same : ∀ pair ∈ table, read pair.1 = pair.2) :
    given.IsWord name table ((given.value? name).map read) := by
  rw [IsWord]
  cases held : given.value? name with
  | none => exact .none
  | some word =>
    -- What the form accepts are the words of the table.
    have known : word ∈ table.map Prod.fst := by
      simpa [ValueForm.accepts] using accepts_of_value? fits forms held
    obtain ⟨pair, inside, rfl⟩ := List.mem_map.mp known
    exact .some ((same pair inside).symm ▸ inside)

/-- An option that takes a number has one for a value. -/
theorem Given.isNumber_count? (fits : given.FitsIn options)
    (forms : ∀ form ∈ options, form.name = name → form.form = .count) :
    given.IsNumber name (given.count? name) := by
  rw [IsNumber, count?]
  cases held : given.value? name with
  | none => exact .none
  | some value =>
    -- The word was let in as a number when it was read, so that it is one here too.
    obtain ⟨n, number⟩ := Option.isSome_iff_exists.mp (accepts_of_value? fits forms held)
    rw [Option.bind_some, number]
    exact .some number

/-- The word for content stands in the table of such words. -/
theorem Given.exists_word_of_content? {k : Content} (content : given.content? = some k) :
    ∃ word, given.operand? 0 = some word ∧ (word, k) ∈ contentWords := by
  obtain ⟨word, first, read⟩ := Option.bind_eq_some_iff.mp content
  refine ⟨word, by rw [operand?, ← List.head?_eq_getElem?, first], ?_⟩
  -- There are two words, each with its own way through the table.
  split at read
  · rename_i file
    cases read
    subst file
    exact .head _
  · split at read
    · rename_i folder
      cases read
      subst folder
      exact .tail _ (.head _)
    · cases read

end

namespace CommandForm

/-- Whether each command of a form is the job for a question that its words put. -/
def Asks (form : CommandForm) : Prop :=
  ∀ (c : Connection) (fields : List String) (given : Given) (command : Command),
    given.FitsIn form.level.options → form.make given = some command →
    ∃ question, Question.IsPutBy c fields form.path given question ∧
      command.job c fields = question.job

/-- A listing command asks for as much as its words say. -/
theorem Lists.isWindow {form : CommandForm} (lists : form.Lists)
    (others : ∀ option ∈ form.options, option.name = "limit" → option.form = .count)
    {given : Given} (fits : given.FitsIn form.level.options) :
    given.IsWindow given.window.limit given.window.max := by
  -- Each command line has three options more, and none of them is for a limit.
  have counts : ∀ option ∈ form.level.options, option.name = "limit" → option.form = .count := by
    intro option inside named
    rcases List.mem_append.mp inside with own | shared
    · exact others option own named
    · simp only [commonOptions, plainOption, List.mem_cons, List.not_mem_nil, or_false] at shared
      rcases shared with rfl | rfl | rfl <;> simp at named
  exact ⟨⟨_, Given.isNumber_count? fits counts, rfl⟩, Given.isNumber_count? fits lists.counts⟩

/-- The command about the token asks for the user in whose name requests are sent. -/
theorem asks_whoami : whoami.Asks := by
  rintro c fields given _ - ⟨⟩
  exact ⟨_, .whoami, rfl⟩

/-- A command that describes an object asks for its description. -/
theorem asks_ofInfo {group : String} {r : Resource} (routed : r ≠ .fileVersion)
    (described : (group, r) ∈ describedObjects) : (ofInfo group r routed).Asks := by
  rintro c fields given command - made
  -- Such commands are made of the name of the object alone.
  obtain ⟨id, named, rfl⟩ := Option.map_eq_some_iff.mp made
  exact ⟨_, .info routed described named, rfl⟩

/-- A command about one object asks what is put of the object that is named. -/
theorem asks_ofObject {group name : String} {command : String → Command}
    (put : ∀ (c : Connection) (fields : List String) (given : Given) (id : String),
      given.operand? 0 = some id → ∃ question,
        Question.IsPutBy c fields [group, name] given question ∧
          (command id).job c fields = question.job) : (ofObject group name command).Asks := by
  -- All such commands are made of their first operand alone.
  rintro c fields given _ - made
  obtain ⟨id, named, rfl⟩ := Option.map_eq_some_iff.mp made
  exact put c fields given id named

/-- A metadata instance is asked for. -/
theorem asks_metadata : metadata.Asks := by
  rintro c fields given command - made
  obtain ⟨k, content, made⟩ := Option.bind_eq_some_iff.mp made
  obtain ⟨id, named, made⟩ := Option.bind_eq_some_iff.mp made
  cases made
  -- The word for the content is kept beside the content it stands for.
  obtain ⟨word, first, inside⟩ := Given.exists_word_of_content? content
  exact ⟨_, .metadata inside first named, rfl⟩

/-- A metadata template is asked for. -/
theorem asks_template : template.Asks := by
  rintro c fields given command - made
  -- Without a scope the usual one is asked for, so that only the name has to be there.
  obtain ⟨key, named, made⟩ := Option.bind_eq_some_iff.mp made
  cases made
  exact ⟨_, .template named, rfl⟩

/-- The items of a folder are asked for. -/
theorem asks_folderItems : folderItems.Asks := by
  rintro c fields given _ fits ⟨⟩
  have window := lists_folderItems.isWindow (by simp [folderItems, listOptions, plainOption]) fits
  -- Without a name it is the root folder that is listed.
  cases named : given.operand? 0 with
  | none => exact ⟨_, .rootFolder named window, rfl⟩
  | some id => exact ⟨_, .folder named window, rfl⟩

/-- Legal holds are asked for. -/
theorem asks_holds : holds.Asks := by
  rintro c fields given _ fits ⟨⟩
  exact ⟨_, .holds (lists_holds.isWindow (by simp [holds, listOptions, plainOption]) fits), rfl⟩

/-- The assignments of a legal hold are asked for. -/
theorem asks_holdAssignments : holdAssignments.Asks := by
  intro c fields given command fits made
  obtain ⟨id, named, made⟩ := Option.bind_eq_some_iff.mp made
  obtain ⟨filter, filters, made⟩ := Option.bind_eq_some_iff.mp made
  cases made
  rw [Given.holdFilter?] at filters
  -- Without a type there is no filter, and with one it is a word of the table.
  split at filters
  · cases filters
  · cases filters
    have target : given.IsWord "assign-to-type" holdTargetWords _ :=
      Given.isWord_map serviceSpelling fits
        (by simp [level, holdAssignments, listOptions, commonOptions, plainOption,
          holdTargetWords]) (by decide)
    exact ⟨_, .holdAssignments named target (lists_holdAssignments.isWindow
      (by simp [holdAssignments, listOptions, plainOption]) fits), rfl⟩

/-- Retention policies are asked for. -/
theorem asks_policies : policies.Asks := by
  rintro c fields given _ fits ⟨⟩
  -- Each word of the table is the text of the type that is asked for.
  have typed : given.IsWord "policy-type" policyTypeWords _ :=
    Given.isWord_map (Word.ofText .retentionType) fits
      (by simp [level, policies, listOptions, commonOptions, plainOption, policyTypeWords])
      (by decide)
  exact ⟨_, .policies typed (lists_policies.isWindow
    (by simp [policies, listOptions, plainOption]) fits), rfl⟩

/-- The assignments of a retention policy are asked for. -/
theorem asks_policyAssignments : policyAssignments.Asks := by
  intro c fields given command fits made
  obtain ⟨id, named, made⟩ := Option.bind_eq_some_iff.mp made
  cases made
  have target : given.IsWord "assign-to-type" policyTargetWords _ :=
    Given.isWord_map (fun word => word) fits
      (by simp [level, policyAssignments, listOptions, commonOptions, plainOption,
        policyTargetWords]) (by decide)
  -- The word is sent as it is written, so there is nothing to translate.
  rw [Option.map_id'] at target
  exact ⟨_, .policyAssignments named target (lists_policyAssignments.isWindow
    (by simp [policyAssignments, listOptions, plainOption]) fits), rfl⟩

/-- Retentions of file versions are asked for. -/
theorem asks_versionRetentions : versionRetentions.Asks := by
  rintro c fields given _ fits ⟨⟩
  -- The command line spells the actions with hyphens, where the service has underscores.
  have disposed : given.IsWord "disposition-action" dispositionWords _ :=
    Given.isWord_map (fun word => Word.ofText .disposition (serviceSpelling word)) fits
      (by simp [level, versionRetentions, listOptions, commonOptions, plainOption,
        dispositionWords]) (by decide)
  exact ⟨_, .versionRetentions disposed (lists_versionRetentions.isWindow
    (by simp [versionRetentions, listOptions, plainOption]) fits), rfl⟩

/-- Metadata instances are asked for. -/
theorem asks_allMetadata : allMetadata.Asks := by
  intro c fields given command fits made
  obtain ⟨k, content, made⟩ := Option.bind_eq_some_iff.mp made
  obtain ⟨id, named, made⟩ := Option.bind_eq_some_iff.mp made
  cases made
  -- The word for the content is kept beside the content it stands for.
  obtain ⟨word, first, inside⟩ := Given.exists_word_of_content? content
  exact ⟨_, .allMetadata inside first named (lists_allMetadata.isWindow
    (by simp [allMetadata, listOptions, plainOption]) fits), rfl⟩

/-- Metadata templates are asked for. -/
theorem asks_templates : templates.Asks := by
  rintro c fields given _ fits ⟨⟩
  -- The scope has a usual value, and the window is that of all listings.
  exact ⟨_, .templates (lists_templates.isWindow
    (by simp [templates, listOptions, plainOption]) fits), rfl⟩

/-- Whether each command of a form stores a file. -/
def StoresFile (form : CommandForm) : Prop :=
  ∀ given command, form.make given = some command → ∃ id path, command = .fileDownload id path

/-- The bytes of a file are stored. -/
theorem storesFile_fileDownload : fileDownload.StoresFile := by
  intro given command made
  obtain ⟨id, -, made⟩ := Option.bind_eq_some_iff.mp made
  obtain ⟨path, -, made⟩ := Option.bind_eq_some_iff.mp made
  cases made
  -- The command is made only if it has both, the name and the path.
  exact ⟨id, path, rfl⟩

/-- Each form is that of commands that ask, or of the one that stores a file. -/
theorem asks_or_storesFile : ∀ form ∈ all, form.Asks ∨ form.StoresFile := by
  -- The forms are gone through in their order.
  simp only [all, List.forall_mem_cons]
  exact ⟨.inl asks_whoami, .inl (asks_ofInfo _ (by decide)),
    .inl (asks_ofObject fun _ _ _ _ named => ⟨_, .versions named, rfl⟩),
    .inl (asks_ofObject fun _ _ _ _ named => ⟨_, .tasks named, rfl⟩),
    .inr storesFile_fileDownload, .inl (asks_ofInfo _ (by decide)),
    .inl asks_folderItems, .inl (asks_ofInfo _ (by decide)), .inl asks_holds,
    .inl asks_holdAssignments,
    .inl (asks_ofInfo _ (by decide)), .inl asks_policies, .inl asks_policyAssignments,
    .inl (asks_ofInfo _ (by decide)), .inl asks_versionRetentions, .inl asks_metadata,
    .inl asks_allMetadata, .inl asks_template, .inl asks_templates,
    .inl (asks_ofInfo _ (by decide)),
    .inl (asks_ofObject fun _ _ _ _ named => ⟨_, .taskAssignments named, rfl⟩),
    List.forall_mem_nil _⟩

end CommandForm

/-- How words behind some words of a command are read: one more word of the command after another,
each behind options that every command has, and then what the command takes. Each part gives
something. -/
inductive ReadsCommand : List String → List String → List String → List Given → Prop where
  | own {form : CommandForm} {words rest : List String} {given : Given}
    (listed : form ∈ CommandForm.all) (reads : form.level.Reads .nothing words given rest) :
    ReadsCommand form.path words form.path [given]
  | word {before words rest path : List String} {word : String} {given : Given}
    {parts : List Given}
    (reads : (wordLevel before.isEmpty).Reads .nothing words given (word :: rest))
    (later : ReadsCommand (before ++ [word]) rest path parts) :
    ReadsCommand before words path (given :: parts)

/-- Words that are read as a command are those of a form that makes the command of what is given
behind them. -/
theorem exists_readsCommand {before words : List String} {more : Nat} {parts : List Given}
    {command : Command} (ok : readCommand before more words = .ok (parts, command)) :
    ∃ form ∈ CommandForm.all, ∃ given, ReadsCommand before words form.path parts ∧
      parts.getLast? = some given ∧ given.FitsIn form.level.options ∧
      form.make given = some command := by
  -- The induction is on the words of commands that may still come.
  induction more using Nat.strongRecOn generalizing before words parts with
  | _ more ih =>
    cases found : CommandForm.all.find? (·.path == before) with
    | some form =>
      -- The words so far are those of a command, and it reads the rest.
      rw [readCommand_of_form found] at ok
      obtain ⟨⟨given, read⟩, own, same⟩ := map_ok_iff.mp ok
      cases same
      obtain ⟨⟨rest, read⟩, made⟩ := CommandForm.read_ok_iff.mp own
      have reads := Level.reads_of_read read
      have listed := List.mem_of_find?_eq_some found
      obtain rfl : form.path = before := by simpa using List.find?_some found
      exact ⟨form, listed, given, .own listed reads, rfl,
        reads.fitsIn fun option inside => absurd inside List.not_mem_nil, made⟩
    | none =>
      -- One more word of the command comes, behind options that every command has.
      obtain ⟨fewer, given, word, rest, deeper, rfl, read, -, below, rfl⟩ :=
        (readCommand_of_word found).mp ok
      obtain ⟨form, listed, last, later, ends, fits, made⟩ := ih fewer (Nat.lt_succ_self _) below
      refine ⟨form, listed, last, .word (Level.reads_of_read read) later, ?_, fits, made⟩
      rw [List.getLast?_cons, ends]
      rfl

/-- A command line is read from the words of a command with what is given behind them, and asks for
the members in the last part that names any. Unless a file is to be stored, its command is the job
for a question that its words put. -/
theorem CommandLine.exists_question {tokenVariable : Option String} {words : List String}
    {line : CommandLine} (read : CommandLine.read tokenVariable words = .ok line)
    (noFile : ∀ id path, line.command ≠ .fileDownload id path) :
    ∃ path parts given, ReadsCommand [] words path parts ∧ parts.getLast? = some given ∧
      line.fields = commaPieces (commonValues parts "fields") ∧ ∀ c, ∃ question,
        Question.IsPutBy c line.fields path given question ∧
          line.command.job c line.fields = question.job := by
  obtain ⟨⟨parts, command⟩, ok, rfl⟩ := map_ok_iff.mp read
  obtain ⟨form, listed, given, reads, ends, fits, made⟩ := exists_readsCommand ok
  refine ⟨form.path, parts, given, reads, ends, rfl, fun c => ?_⟩
  -- The one form that asks nothing is excluded by what its command is.
  rcases CommandForm.asks_or_storesFile form listed with asks | stores
  · exact asks c _ given command fits made
  · obtain ⟨id, path, same⟩ := stores given command made
    exact absurd same (noFile id path)

end ContentApi
