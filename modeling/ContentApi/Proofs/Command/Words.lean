import ContentApi.Command.Line
import ContentApi.Proofs.Results

/-! The number of entries that are enough may be put behind the words of any listing command. -/

namespace ContentApi

namespace Command

/-- How much a command lists, if it lists anything. -/
def window? : Command → Option ListWindow
  | .folderItems _ window | .holds _ window | .holdAssignments _ _ window | .policies _ window
  | .policyAssignments _ _ window | .versionRetentions _ window | .allMetadata _ _ window
  | .templates _ window => some window
  | .whoami | .info _ _ _ | .fileVersions _ | .fileTasks _ | .fileDownload _ _
  | .metadata _ _ _ _ | .template _ _ | .taskAssignments _ => none

/-- A command of which so many entries are enough, if it lists anything. -/
def withMax (max : Option Nat) : Command → Command
  | .folderItems id window => .folderItems id { window with max }
  | .holds name window => .holds name { window with max }
  | .holdAssignments id filter window => .holdAssignments id filter { window with max }
  | .policies filter window => .policies filter { window with max }
  | .policyAssignments id type window => .policyAssignments id type { window with max }
  | .versionRetentions filter window => .versionRetentions filter { window with max }
  | .allMetadata k id window => .allMetadata k id { window with max }
  | .templates scope window => .templates scope { window with max }
  | other => other

/-- A command lists as much as it says. -/
theorem withMax_max {command : Command} {window : ListWindow}
    (lists : command.window? = some window) : command.withMax window.max = command := by
  cases command with
  -- The first commands have no window; the others hold the window that is put into them.
  | whoami | info | fileVersions | fileTasks | fileDownload | metadata | template
  | taskAssignments => cases lists
  | folderItems | holds | holdAssignments | policies | policyAssignments | versionRetentions
  | allMetadata | templates =>
    cases lists
    rfl

end Command

/-- A command line of whose command so many entries are enough. -/
def CommandLine.withMax (max : Option Nat) (line : CommandLine) : CommandLine :=
  { line with command := line.command.withMax max }

namespace Level

variable {level : Level} {given read : Given} {word : String} {words rest : List String}

/-- A word with two hyphens and more is no escape. -/
theorem longWord_ne_escape (level : Level) (cs : List Char) : level.longWord cs ≠ .escape := by
  -- Every branch ends in an option, in help, or in a word that is unknown.
  simp only [longWord]
  repeat' split
  all_goals exact WordKind.noConfusion

/-- A word with one hyphen is no escape. -/
theorem shortWord_ne_escape (level : Level) (c : Char) (cs : List Char) :
    level.shortWord c cs ≠ .escape := by
  -- Every branch ends in an option, in help, or in a word that is unknown.
  simp only [shortWord]
  repeat' split
  all_goals exact WordKind.noConfusion

/-- Only two hyphens are an escape. -/
theorem eq_of_kindOf_escape (escapes : level.kindOf word = .escape) : word = "--" := by
  rw [kindOf] at escapes
  split at escapes
  · -- Two hyphens alone are the first case, and any other word is told by what follows its hyphens.
    rename_i chars
    exact String.toList_injective chars
  · exact absurd escapes (level.longWord_ne_escape _)
  · exact absurd escapes (level.shortWord_ne_escape _ _)
  · cases escapes

/-- How a part of a command line is read word by word. -/
inductive Reads (level : Level) : Given → List String → Given → List String → Prop where
  | ended {given : Given} : Reads level given [] given []
  | operandLeft {given : Given} {word : String} {rest : List String}
      (kind : level.kindOf word = .operand) (noOperands : level.operands = none) :
      Reads level given (word :: rest) given (word :: rest)
  | operand {given next read : Given} {word : String} {forms : List ValueForm}
      {rest left : List String} (kind : level.kindOf word = .operand)
      (operands : level.operands = some forms) (added : given.addOperand forms word = .ok next)
      (later : Reads level next rest read left) : Reads level given (word :: rest) read left
  | escaped {given read : Given} {word : String} {forms : List ValueForm} {rest : List String}
      (kind : level.kindOf word = .escape) (operands : level.operands = some forms)
      (added : rest.foldlM (fun given word => given.addOperand forms word) given = .ok read) :
      Reads level given (word :: rest) read []
  | option {given next read : Given} {word value : String} {form : OptionForm}
      {rest left : List String} (kind : level.kindOf word = .option form (some value))
      (added : given.addOption form value = .ok next) (later : Reads level next rest read left) :
      Reads level given (word :: rest) read left
  | optionWord {given next read : Given} {word value : String} {form : OptionForm}
      {rest left : List String} (kind : level.kindOf word = .option form none)
      (isValue : isValueWord value = true) (added : given.addOption form value = .ok next)
      (later : Reads level next rest read left) :
      Reads level given (word :: value :: rest) read left

/-- What is read is read word by word. -/
theorem reads_of_read (ok : level.read given words = .ok (read, rest)) :
    level.Reads given words read rest := by
  -- The induction is along the recursion of the reader, where a word that is refused ends it all.
  induction given, words using Level.read.induct level with
  | case1 given =>
    cases ok
    exact .ended
  | case2 given word rest reason kind
  | case4 given word rest kind operands
  | case13 given word form kind => simp [Level.read, *] at ok
  | case6 given word rest kind forms operands reason refused
  | case9 given word rest form value kind reason refused
  | case11 given word form kind value rest isValue reason refused
  | case12 given word form kind value rest noValue => simp [Level.read, *] at ok
  | case3 given word rest kind forms operands =>
    simp only [Level.read, kind, operands] at ok
    obtain ⟨all, added, same⟩ := map_ok_iff.mp ok
    cases same
    exact .escaped kind operands added
  | case5 given word rest kind forms operands next added ih =>
    simp only [Level.read, kind, operands, added] at ok
    exact .operand kind operands added (ih ok)
  | case7 given word rest kind operands =>
    simp only [Level.read, kind, operands] at ok
    cases ok
    exact .operandLeft kind operands
  | case8 given word rest form value kind next added ih =>
    simp only [Level.read, kind, added] at ok
    exact .option kind added (ih ok)
  | case10 given word form kind value rest isValue next added ih =>
    simp only [Level.read, kind, isValue, if_true, added] at ok
    exact .optionWord kind isValue added (ih ok)

/-- Words behind those that were read go to the part that these have left, if any, and otherwise to
the same part. -/
theorem Reads.append (reads : level.Reads given words read rest) (unescaped : "--" ∉ words)
    (more : List String) :
    level.read given (words ++ more) =
      if rest = [] then level.read read more else .ok (read, rest ++ more) := by
  -- Each rule reads its words whatever comes behind them, except for the escape, which takes all.
  induction reads with
  | ended => rfl
  | operandLeft kind noOperands => simp [Level.read, kind, noOperands]
  | operand kind operands added later ih =>
    simp only [List.cons_append, Level.read, kind, operands, added]
    exact ih fun inside => unescaped (List.mem_cons_of_mem _ inside)
  | escaped kind operands added =>
    rw [eq_of_kindOf_escape kind] at unescaped
    exact absurd List.mem_cons_self unescaped
  | option kind added later ih =>
    simp only [List.cons_append, Level.read, kind, added]
    exact ih fun inside => unescaped (List.mem_cons_of_mem _ inside)
  | optionWord kind isValue added later ih =>
    simp only [List.cons_append, Level.read, kind, isValue, if_true, added]
    exact ih fun inside => unescaped (List.mem_cons_of_mem _ (List.mem_cons_of_mem _ inside))

/-- What is left are the last words. -/
theorem Reads.suffix (reads : level.Reads given words read rest) : rest <:+ words := by
  -- Each rule takes words off the front, and the escape takes all of them.
  induction reads with
  | ended | operandLeft kind noOperands => exact List.suffix_rfl
  | escaped kind operands added => exact List.nil_suffix
  | operand kind operands added later ih | option kind added later ih =>
    exact ih.trans (List.suffix_cons _ _)
  | optionWord kind isValue added later ih =>
    exact ih.trans ((List.suffix_cons _ _).trans (List.suffix_cons _ _))

/-- A part that takes words without hyphens leaves no words. -/
theorem Reads.rest_eq_nil (reads : level.Reads given words read rest) {forms : List ValueForm}
    (operands : level.operands = some forms) : rest = [] := by
  -- The only way to leave a word is an operand where none is wanted.
  induction reads with
  | ended | escaped kind operands added => rfl
  | operandLeft kind noOperands =>
    rw [noOperands] at operands
    cases operands
  | operand kind _ added later ih | option kind added later ih
  | optionWord kind isValue added later ih => exact ih

/-- Only options that a part may have are recognized in it. -/
theorem mem_of_kindOf_option {form : OptionForm} {value : Option String}
    (kind : level.kindOf word = .option form value) : form ∈ level.options := by
  -- A word is an option only where one of its name or letter is found.
  have long (cs : List Char) (kind : level.longWord cs = .option form value) :
      form ∈ level.options := by
    simp only [longWord] at kind
    split at kind
    · rename_i found
      cases kind
      exact List.mem_of_find?_eq_some found
    · repeat' split at kind
      all_goals cases kind
  have short (c : Char) (cs : List Char) (kind : level.shortWord c cs = .option form value) :
      form ∈ level.options := by
    rw [shortWord] at kind
    split at kind
    · rename_i found
      split at kind
      all_goals
        cases kind
        exact List.mem_of_find?_eq_some found
    · repeat' split at kind
      all_goals cases kind
  rw [kindOf] at kind
  split at kind
  · cases kind
  · exact long _ kind
  · exact short _ _ kind
  · cases kind

end Level

/-- An option behind those that are given. -/
def Given.withOption (given : Given) (name value : String) : Given :=
  { given with options := given.options ++ [(name, value)] }

/-- Each option that is given is one of some options and has a value of its form. -/
def Given.FitsIn (given : Given) (options : List OptionForm) : Prop :=
  ∀ option ∈ given.options, ∃ form ∈ options, form.name = option.1 ∧
    form.form.accepts option.2 = true

/-- An option is added if it has a value of its form and is the only one of its name unless it may
be repeated. -/
theorem Given.addOption_ok_iff {given next : Given} {form : OptionForm} {value : String} :
    given.addOption form value = .ok next ↔
      form.form.accepts value = true ∧
      (form.isRepeatable = true ∨ given.options.any (·.1 == form.name) = false) ∧
      next = given.withOption form.name value := by
  rw [addOption]
  -- Each condition holds or not, and the option is added in one of the cases alone.
  cases form.form.accepts value <;> cases form.isRepeatable <;>
    cases given.options.any (·.1 == form.name) <;> simp [withOption, eq_comm]

/-- Words without hyphens add no options. -/
theorem Given.options_addOperand {given next : Given} {forms : List ValueForm} {word : String}
    (added : given.addOperand forms word = .ok next) : next.options = given.options := by
  -- An operand is put behind the others, or refused for its form or its number.
  rw [addOperand] at added
  split at added
  · split at added
    · cases added
      rfl
    · cases added
  · cases added

/-- However many words without hyphens there are, they add no options. -/
theorem Given.options_addOperands {given read : Given} {forms : List ValueForm}
    {words : List String}
    (added : words.foldlM (fun given word => given.addOperand forms word) given = .ok read) :
    read.options = given.options := by
  -- The induction is on the words, each of which is added to what the words before it gave.
  induction words generalizing given with
  | nil =>
    cases added
    rfl
  | cons word rest ih =>
    obtain ⟨next, first, others⟩ := bind_ok_iff.mp added
    exact (ih others).trans (options_addOperand first)

/-- An option that is added has a value of its form. -/
theorem Given.FitsIn.addOption {given next : Given} {options : List OptionForm} {form : OptionForm}
    {value : String} (fits : given.FitsIn options) (known : form ∈ options)
    (added : given.addOption form value = .ok next) : next.FitsIn options := by
  -- Options are added behind the others, so that only the last one is new.
  obtain ⟨accepts, -, rfl⟩ := Given.addOption_ok_iff.mp added
  intro option inside
  rcases List.mem_append.mp inside with before | last
  · exact fits option before
  · cases List.mem_singleton.mp last
    exact ⟨form, known, rfl, accepts⟩

/-- What is read has only options that the part may have. -/
theorem Level.Reads.fitsIn {level : Level} {given read : Given} {words rest : List String}
    (reads : level.Reads given words read rest) (fits : given.FitsIn level.options) :
    read.FitsIn level.options := by
  -- Words without hyphens leave the options alone, and an option is one of the part.
  induction reads with
  | ended | operandLeft kind noOperands => exact fits
  | operand kind operands added later ih =>
    refine ih ?_
    rwa [Given.FitsIn, Given.options_addOperand added]
  | escaped kind operands added => rwa [Given.FitsIn, Given.options_addOperands added]
  | option kind added later ih => exact ih (fits.addOption (mem_of_kindOf_option kind) added)
  | optionWord kind isValue added later ih =>
    exact ih (fits.addOption (mem_of_kindOf_option kind) added)

/-- The value of an option has the form that all options of its name take. -/
theorem Given.accepts_of_value? {given : Given} {options : List OptionForm} {name value : String}
    {taken : ValueForm} (fits : given.FitsIn options)
    (forms : ∀ form ∈ options, form.name = name → form.form = taken)
    (held : given.value? name = some value) : taken.accepts value = true := by
  -- The value that counts is the first of its name, and it was let in by a form of this name.
  have inside : value ∈ given.values name := List.mem_of_head? held
  obtain ⟨option, kept, rfl⟩ := List.mem_map.mp inside
  obtain ⟨here, same⟩ := List.mem_filter.mp kept
  obtain ⟨form, known, named, accepts⟩ := fits option here
  rwa [forms form known (named.trans (eq_of_beq same))] at accepts

/-- A number for an option that takes one is not unknown. -/
theorem Given.values_eq_nil {given : Given} {options : List OptionForm} {name : String}
    (fits : given.FitsIn options)
    (counts : ∀ form ∈ options, form.name = name → form.form = .count)
    (unknown : given.count? name = none) : given.values name = [] := by
  cases held : given.value? name with
  | none => exact List.head?_eq_none_iff.mp held
  | some value =>
    have accepts := accepts_of_value? fits counts held
    -- A value that is accepted is a number.
    rw [count?, held, Option.bind_some] at unknown
    simp [ValueForm.accepts, unknown] at accepts

section

variable (given : Given) {value : String}

/-- An option is no value of one of another name. -/
theorem Given.values_withOption (name key : String) :
    (given.withOption key value).values name =
      given.values name ++ if key = name then [value] else [] := by
  by_cases same : key = name <;> simp [values, withOption, same]

/-- The option for a number of entries is no value of one of another name. -/
theorem Given.value?_withMax {name : String} (other : "max" ≠ name) :
    (given.withOption "max" value).value? name = given.value? name := by
  rw [value?, values_withOption, if_neg other, List.append_nil, value?]

/-- The option for a number of entries makes that number enough. -/
theorem Given.window_withMax {n : Nat} (new : given.values "max" = [])
    (number : countOf? value.toList = some n) :
    (given.withOption "max" value).window = { given.window with max := some n } := by
  -- Other options are found as before, as the new one has another name.
  have limit : (given.withOption "max" value).count? "limit" = given.count? "limit" := by
    rw [count?, given.value?_withMax (by decide), count?]
  have max : (given.withOption "max" value).count? "max" = some n := by
    rw [count?, value?, values_withOption, if_pos rfl, new]
    exact number
  rw [window, limit, max, window]

end

/-- Whether a form is that of a listing command that takes a number of entries. -/
structure CommandForm.Lists (form : CommandForm) : Prop where
  /-- The command has options of its own in front of those that all listings have. -/
  options : ∃ own, form.options = own ++ listOptions ∧ ∀ option ∈ own, option.name ≠ "max"
  /-- The command has the number that is given. -/
  make : ∀ given command, form.make given = some command →
    command.window? = some given.window ∧
    ∀ value n, given.values "max" = [] → countOf? value.toList = some n →
      form.make (given.withOption "max" value) = some (command.withMax (some n))

namespace CommandForm

/-- The option for the number of a listing command is found by its name. -/
theorem Lists.find?_max {form : CommandForm} (lists : form.Lists) :
    form.level.options.find? (·.name == "max") = some (plainOption "max" .count) := by
  obtain ⟨own, options, others⟩ := lists.options
  -- None of the options of its own has this name, so that the shared one is found.
  have before : own.find? (·.name == "max") = none :=
    List.find?_eq_none.mpr fun option inside => by simpa using others option inside
  rw [level, options, List.append_assoc, List.find?_append, before]
  rfl

/-- The option for the number of a listing command is the only one of its name. -/
theorem Lists.counts {form : CommandForm} (lists : form.Lists) :
    ∀ option ∈ form.level.options, option.name = "max" → option.form = .count := by
  obtain ⟨own, options, others⟩ := lists.options
  intro option inside named
  rw [level, options, List.append_assoc] at inside
  rcases List.mem_append.mp inside with before | shared
  · exact absurd named (others option before)
  · -- Among the shared options there is one of this name, and it takes a number.
    simp only [listOptions, commonOptions, plainOption, List.cons_append, List.nil_append,
      List.mem_cons, List.not_mem_nil, or_false] at shared
    rcases shared with rfl | rfl | rfl | rfl | rfl <;> simp at named ⊢

/-- The items of a folder are listed. -/
theorem lists_folderItems : folderItems.Lists where
  options := ⟨[], rfl, by simp⟩
  make := by
    rintro given _ ⟨⟩
    refine ⟨rfl, fun value n new number => ?_⟩
    -- The window is the only part that is read from the options.
    simp only [folderItems, given.window_withMax new number]
    rfl

/-- Legal holds are listed. -/
theorem lists_holds : holds.Lists where
  options := ⟨[_], rfl, by simp [plainOption]⟩
  make := by
    rintro given _ ⟨⟩
    refine ⟨rfl, fun value n new number => ?_⟩
    simp only [holds, given.window_withMax new number]
    -- The part of a name is read from another option.
    rw [given.value?_withMax (by decide)]
    rfl

/-- The assignments of a legal hold are listed. -/
theorem lists_holdAssignments : holdAssignments.Lists where
  options := ⟨[_, _], rfl, by simp [plainOption]⟩
  make := by
    intro given command made
    obtain ⟨id, first, made⟩ := Option.bind_eq_some_iff.mp made
    obtain ⟨filter, filters, made⟩ := Option.bind_eq_some_iff.mp made
    cases made
    refine ⟨rfl, fun value n new number => ?_⟩
    -- The filter is read from two other options, and the name from the operands.
    have sameFilter : (given.withOption "max" value).holdFilter? = given.holdFilter? := by
      rw [Given.holdFilter?, given.value?_withMax (by decide), given.value?_withMax (by decide)]
      rfl
    have sameId : (given.withOption "max" value).operand? 0 = given.operand? 0 := rfl
    simp only [holdAssignments, given.window_withMax new number, sameFilter, sameId, first, filters]
    rfl

/-- Retention policies are listed. -/
theorem lists_policies : policies.Lists where
  options := ⟨[_, _, _], rfl, by simp [plainOption]⟩
  make := by
    rintro given _ ⟨⟩
    refine ⟨rfl, fun value n new number => ?_⟩
    -- The filter is read from three other options.
    have sameFilter : (given.withOption "max" value).policyFilter = given.policyFilter := by
      simp [Given.policyFilter, Given.value?_withMax]
    simp only [policies, given.window_withMax new number, sameFilter]
    rfl

/-- The assignments of a retention policy are listed. -/
theorem lists_policyAssignments : policyAssignments.Lists where
  options := ⟨[_], rfl, by simp [plainOption]⟩
  make := by
    intro given command made
    obtain ⟨id, first, made⟩ := Option.bind_eq_some_iff.mp made
    cases made
    refine ⟨rfl, fun value n new number => ?_⟩
    -- Options do not count among the operands.
    have sameId : (given.withOption "max" value).operand? 0 = given.operand? 0 := rfl
    simp only [policyAssignments, given.window_withMax new number, sameId, first,
      given.value?_withMax (show "max" ≠ "assign-to-type" by decide)]
    rfl

/-- Retentions of file versions are listed. -/
theorem lists_versionRetentions : versionRetentions.Lists where
  options := ⟨[_, _, _, _], rfl, by simp [plainOption]⟩
  make := by
    rintro given _ ⟨⟩
    refine ⟨rfl, fun value n new number => ?_⟩
    -- The filter is read from other options.
    have sameFilter : (given.withOption "max" value).versionRetentionFilter =
        given.versionRetentionFilter := by
      simp [Given.versionRetentionFilter, Given.value?_withMax]
    simp only [versionRetentions, given.window_withMax new number, sameFilter]
    rfl

/-- Metadata instances are listed. -/
theorem lists_allMetadata : allMetadata.Lists where
  options := ⟨[], rfl, by simp⟩
  make := by
    intro given command made
    obtain ⟨k, content, made⟩ := Option.bind_eq_some_iff.mp made
    obtain ⟨id, second, made⟩ := Option.bind_eq_some_iff.mp made
    cases made
    refine ⟨rfl, fun value n new number => ?_⟩
    -- Both the content and the name are read from the operands.
    have sameContent : (given.withOption "max" value).content? = given.content? := rfl
    have sameId : (given.withOption "max" value).operand? 1 = given.operand? 1 := rfl
    simp only [allMetadata, given.window_withMax new number, sameContent, sameId, content, second]
    rfl

/-- Metadata templates are listed. -/
theorem lists_templates : templates.Lists where
  options := ⟨[_], rfl, by simp [plainOption]⟩
  make := by
    rintro given _ ⟨⟩
    refine ⟨rfl, fun value n new number => ?_⟩
    simp only [templates, given.window_withMax new number,
      -- The scope is read from another option.
      given.value?_withMax (show "max" ≠ "scope" by decide)]
    rfl

/-- Whether no command of a form lists anything. -/
def ListsNothing (form : CommandForm) : Prop :=
  ∀ given command, form.make given = some command → command.window? = none

/-- A command that describes an object lists nothing. -/
theorem listsNothing_ofInfo (group : String) (r : Resource) (routed : r ≠ .fileVersion) :
    (ofInfo group r routed).ListsNothing := by
  intro given command made
  -- Such commands are made of one name and have no window.
  obtain ⟨id, -, rfl⟩ := Option.map_eq_some_iff.mp made
  rfl

/-- A command about one object lists nothing if it makes no listing of its name. -/
theorem listsNothing_ofObject (group name : String) {make : String → Command}
    (nothing : ∀ id, (make id).window? = none) : (ofObject group name make).ListsNothing := by
  intro given command made
  -- The command comes of the one operand alone, so it is made from its name.
  obtain ⟨id, -, rfl⟩ := Option.map_eq_some_iff.mp made
  exact nothing id

/-- The command about the token lists nothing. -/
theorem listsNothing_whoami : whoami.ListsNothing := by
  rintro given _ ⟨⟩
  rfl

/-- The command that stores a file lists nothing. -/
theorem listsNothing_fileDownload : fileDownload.ListsNothing := by
  intro given command made
  obtain ⟨id, -, made⟩ := Option.bind_eq_some_iff.mp made
  obtain ⟨path, -, made⟩ := Option.bind_eq_some_iff.mp made
  -- The command is made of a name and a path, and has no window.
  cases made
  rfl

/-- The command that shows a metadata instance lists nothing. -/
theorem listsNothing_metadata : metadata.ListsNothing := by
  intro given command made
  obtain ⟨k, -, made⟩ := Option.bind_eq_some_iff.mp made
  obtain ⟨id, -, made⟩ := Option.bind_eq_some_iff.mp made
  -- The command is made of an object alone, and has no window.
  cases made
  rfl

/-- The command that shows a metadata template lists nothing. -/
theorem listsNothing_template : template.ListsNothing := by
  intro given command made
  -- What is made is the command itself, whose window is none.
  obtain ⟨key, -, made⟩ := Option.bind_eq_some_iff.mp made
  cases made
  rfl

/-- Each form is that of a listing command or of commands that list nothing. -/
theorem lists_or_nothing : ∀ form ∈ all, form.Lists ∨ form.ListsNothing := by
  -- The forms are gone through in their order.
  simp only [all, List.forall_mem_cons]
  exact ⟨.inr listsNothing_whoami, .inr (listsNothing_ofInfo _ _ _),
    .inr (listsNothing_ofObject _ _ fun _ => rfl), .inr (listsNothing_ofObject _ _ fun _ => rfl),
    .inr listsNothing_fileDownload, .inr (listsNothing_ofInfo _ _ _), .inl lists_folderItems,
    .inr (listsNothing_ofInfo _ _ _), .inl lists_holds, .inl lists_holdAssignments,
    .inr (listsNothing_ofInfo _ _ _), .inl lists_policies, .inl lists_policyAssignments,
    .inr (listsNothing_ofInfo _ _ _), .inl lists_versionRetentions, .inr listsNothing_metadata,
    .inl lists_allMetadata, .inr listsNothing_template, .inl lists_templates,
    .inr (listsNothing_ofInfo _ _ _), .inr (listsNothing_ofObject _ _ fun _ => rfl),
    List.forall_mem_nil _⟩

/-- A form whose command lists something is that of a listing command. -/
theorem lists_of_window {form : CommandForm} (listed : form ∈ all) {given : Given}
    {command : Command} {window : ListWindow} (made : form.make given = some command)
    (lists : command.window? = some window) : form.Lists := by
  refine (lists_or_nothing form listed).resolve_right fun nothing => ?_
  -- A form of the other kind makes no command that has a window.
  rw [nothing given command made] at lists
  cases lists

variable {form : CommandForm} {given : Given} {command : Command} {window : ListWindow}
  {words : List String} {value : String} {n : Nat}

/-- A part of a command line is read if its words are and make a command. -/
theorem read_ok_iff : form.read words = .ok (given, command) ↔
    (∃ rest, form.level.read .nothing words = .ok (given, rest)) ∧
      form.make given = some command := by
  rw [CommandForm.read]
  split
  · rename_i refused
    simp [refused]
  · rename_i read rest ok
    -- What was read decides alone whether there is a command.
    cases made : form.make read with
    | none =>
      simp only [ok, Except.ok.injEq, Prod.mk.injEq, reduceCtorEq, false_iff, not_and]
      rintro ⟨_, rfl, -⟩
      simp [made]
    | some other =>
      simp only [ok, Except.ok.injEq, Prod.mk.injEq]
      constructor
      · rintro ⟨rfl, rfl⟩
        exact ⟨⟨rest, rfl, rfl⟩, made⟩
      · rintro ⟨⟨_, rfl, -⟩, same⟩
        exact ⟨rfl, Option.some.inj (made.symm.trans same)⟩

/-- A number of entries that are enough is recognized among the words of a listing command. -/
theorem kindOf_max (lists : form.Lists) :
    form.level.kindOf "--max" = .option (plainOption "max" .count) none := by
  -- Behind the hyphens stands nothing but the name, so the value is the next word.
  have name : String.ofList (['m', 'a', 'x'].takeWhile (· ≠ '=')) = "max" := by decide
  show form.level.longWord ['m', 'a', 'x'] = _
  simp only [Level.longWord, name, lists.find?_max]
  rfl

/-- A number has no minus sign, so it may be the value of the option before it. -/
theorem isValueWord_of_number (number : countOf? value.toList = some n) :
    isValueWord value = true := by
  rw [isValueWord]
  split
  · -- A word that begins with a hyphen has no digit there.
    rename_i chars
    rw [chars] at number
    cases number
  · rfl

/-- The part of a command line that belongs to a listing command may end with a number of entries
that are enough, unless it says so already or takes all words as they are. -/
theorem read_withMax (listed : form ∈ all) (ok : form.read words = .ok (given, command))
    (window? : command.window? = some window) (unlimited : window.max = none)
    (unescaped : "--" ∉ words) (number : countOf? value.toList = some n) :
    form.read (words ++ ["--max", value]) =
      .ok (given.withOption "max" value, command.withMax (some n)) := by
  obtain ⟨⟨rest, read⟩, made⟩ := read_ok_iff.mp ok
  -- What is read makes a listing, so the form takes a number and nothing is left of the words.
  have lists := lists_of_window listed made window?
  obtain ⟨same, withMax⟩ := lists.make given command made
  have reads := Level.reads_of_read read
  obtain rfl := reads.rest_eq_nil rfl
  -- Nothing is said yet of how many entries are enough.
  have new : given.values "max" = [] := by
    have fits : given.FitsIn form.level.options :=
      reads.fitsIn fun option inside => absurd inside List.not_mem_nil
    refine given.values_eq_nil fits lists.counts ?_
    cases window?.symm.trans same
    exact unlimited
  have added : given.addOption (plainOption "max" .count) value =
      .ok (given.withOption "max" value) := by
    refine Given.addOption_ok_iff.mpr ⟨by simp [plainOption, ValueForm.accepts, number], ?_, rfl⟩
    rw [Given.values, List.map_eq_nil_iff, List.filter_eq_nil_iff] at new
    exact .inr (List.any_eq_false.mpr new)
  have read : form.level.read .nothing (words ++ ["--max", value]) =
      .ok (given.withOption "max" value, []) := by
    rw [reads.append unescaped, if_pos rfl]
    simp only [Level.read, kindOf_max lists, isValueWord_of_number number, if_true, added]
  exact read_ok_iff.mpr ⟨⟨[], read⟩, withMax value n new number⟩

end CommandForm

section

variable {before words : List String} {more n : Nat} {parts : List Given} {command : Command}
  {window : ListWindow} {value : String}

/-- Where the words so far name a command, the rest belongs to it. -/
theorem readCommand_of_form {form : CommandForm}
    (found : CommandForm.all.find? (·.path == before) = some form) :
    readCommand before more words = (form.read words).map fun read => ([read.1], read.2) := by
  rw [readCommand.eq_def, found]

/-- Where the words so far name no command, one more is taken if there may be any. -/
theorem readCommand_of_word (found : CommandForm.all.find? (·.path == before) = none) :
    readCommand before more words = .ok (parts, command) ↔
      ∃ fewer given word rest deeper, more = fewer + 1 ∧
        (wordLevel before.isEmpty).read .nothing words = .ok (given, word :: rest) ∧
        (nextWords before).contains word = true ∧
        readCommand (before ++ [word]) fewer rest = .ok (deeper, command) ∧
        parts = given :: deeper := by
  rw [readCommand.eq_def, found]
  -- Of all ways in which the reader goes on, only a word of a command leads to a command.
  constructor
  · intro ok
    cases more with
    | zero => cases ok
    | succ fewer =>
      simp only at ok
      split at ok
      · cases ok
      · cases ok
      · rename_i given word rest read
        split at ok
        · rename_i next
          obtain ⟨deeper, below, same⟩ := map_ok_iff.mp ok
          cases same
          exact ⟨fewer, given, word, rest, _, rfl, read, next, below, rfl⟩
        · split at ok <;> cases ok
  · rintro ⟨fewer, given, word, rest, deeper, rfl, read, next, below, rfl⟩
    simp only [read, next, if_true, below]
    rfl

/-- The words of a listing command may end with a number of entries that are enough, and all other
options stay as they are. -/
theorem readCommand_withMax (ok : readCommand before more words = .ok (parts, command))
    (lists : command.window? = some window) (unlimited : window.max = none)
    (unescaped : "--" ∉ words) (number : countOf? value.toList = some n) :
    ∃ later, readCommand before more (words ++ ["--max", value]) =
        .ok (later, command.withMax (some n)) ∧
      ∀ name, "max" ≠ name → later.map (·.values name) = parts.map (·.values name) := by
  -- The induction is on the words of commands that may still come.
  induction more using Nat.strongRecOn generalizing before words parts with
  | _ more ih =>
    cases found : CommandForm.all.find? (·.path == before) with
    | some form =>
      rw [readCommand_of_form found] at ok ⊢
      obtain ⟨⟨given, read⟩, own, same⟩ := map_ok_iff.mp ok
      cases same
      have longer := CommandForm.read_withMax (List.mem_of_find?_eq_some found) own lists unlimited
        unescaped number
      refine ⟨[given.withOption "max" value], by rw [longer]; rfl, fun name other => ?_⟩
      simp [given.values_withOption, other]
    | none =>
      obtain ⟨fewer, given, word, rest, deeper, rfl, read, next, below, rfl⟩ :=
        (readCommand_of_word found).mp ok
      have reads := Level.reads_of_read read
      have unescapedRest : "--" ∉ rest := fun inside =>
        unescaped (reads.suffix.subset (List.mem_cons_of_mem _ inside))
      obtain ⟨later, longer, others⟩ := ih fewer (Nat.lt_succ_self _) below unescapedRest
      refine ⟨given :: later, (readCommand_of_word found).mpr ⟨fewer, given, word,
        rest ++ ["--max", value], later, rfl, ?_, next, longer, rfl⟩, fun name other => ?_⟩
      · rw [reads.append unescaped, if_neg (List.cons_ne_nil _ _)]
        rfl
      · rw [List.map_cons, List.map_cons, others name other]

end

/-- The words of a listing command may end with a number of entries that are enough, unless they say
so already or take all words as they are. -/
theorem CommandLine.read_withMax {tokenVariable : Option String} {words : List String}
    {line : CommandLine} {window : ListWindow} {value : String} {n : Nat}
    (ok : CommandLine.read tokenVariable words = .ok line)
    (lists : line.command.window? = some window) (unlimited : window.max = none)
    (unescaped : "--" ∉ words) (number : countOf? value.toList = some n) :
    CommandLine.read tokenVariable (words ++ ["--max", value]) = .ok (line.withMax (some n)) := by
  obtain ⟨⟨parts, command⟩, read, rfl⟩ := map_ok_iff.mp ok
  obtain ⟨later, longer, others⟩ := readCommand_withMax read lists unlimited unescaped number
  -- The token, the base and the fields are asked for by options of other names.
  have common (name : String) (other : "max" ≠ name) :
      commonValues later name = commonValues parts name := by
    rw [commonValues, others name other, commonValues]
  rw [CommandLine.read, longer, Except.map, common "token" (by decide),
    common "base-url" (by decide), common "fields" (by decide)]
  rfl

end ContentApi
