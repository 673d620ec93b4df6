import ContentApi.Proofs.Config.Guesses
import ContentApi.Proofs.Config.Tables
import ContentApi.Proofs.Results

/-! What a variable for a text among the settings leads to, whatever else is set. -/

namespace ContentApi

/-- The settings of a connection that are texts. -/
inductive TextMember where
  | baseUrl
  | uploadUrl
  | token
  | userAgent
  deriving DecidableEq

namespace TextMember

variable {m : TextMember}

/-- The name of a setting in its table. -/
def key : TextMember → String
  | .baseUrl => "base_url"
  | .uploadUrl => "base_upload_url"
  | .token => "access_token"
  | .userAgent => "user_agent"

/-- The names that lead to a setting from the outermost table. -/
def names (m : TextMember) : List String :=
  [Settings.tableName, m.key]

/-- The name of the variable for a setting. -/
def variableName : TextMember → String
  | .baseUrl => "BOX__API__BASE_URL"
  | .uploadUrl => "BOX__API__BASE_UPLOAD_URL"
  | .token => "BOX__API__ACCESS_TOKEN"
  | .userAgent => "BOX__API__USER_AGENT"

/-- The path of a setting. -/
def path (m : TextMember) : String :=
  Settings.tableName ++ "." ++ m.key

/-- The text of a setting. -/
def get (m : TextMember) (s : Settings) : String :=
  match m with
  | .baseUrl => s.baseUrl
  | .uploadUrl => s.uploadUrl
  | .token => s.token
  | .userAgent => s.userAgent

/-- Settings with another text for one of them. -/
def set (m : TextMember) (s : Settings) (text : String) : Settings :=
  match m with
  | .baseUrl => { s with baseUrl := text }
  | .uploadUrl => { s with uploadUrl := text }
  | .token => { s with token := text }
  | .userAgent => { s with userAgent := text }

/-- Whether a variable is none for a setting, nor for a table that the setting is in, nor for
anything that would stand in its place. -/
def IsApart (m : TextMember) (pair : String × String) : Prop :=
  ∀ path ∈ pathOfVariable? pair.1,
    let names := (SettingPlace.ofText path).names
    ¬ names <+: m.names ∧ ¬ m.names <+: names

/-- The path of a setting is read as its names. -/
theorem ofText_path (m : TextMember) : SettingPlace.ofText m.path = ⟨m.names, false⟩ := by
  cases m <;> decide

/-- A variable is for a setting if it has the name of that in any letter case. -/
theorem pathOfVariable?_eq {name : String}
    (named : lowerChars name.toList = lowerChars m.variableName.toList) :
    pathOfVariable? name = some m.path := by
  -- Once the name is known up to its case, the path is computed for each of the settings.
  rw [pathOfVariable?, named]
  cases m <;> decide

/-- A text that is put among the settings is found there, and nothing else changes. -/
@[simp] theorem get_set (m other : TextMember) (s : Settings) (text : String) :
    other.get (m.set s text) = if other = m then text else other.get s := by
  cases m <;> cases other <;> rfl

/-- The time that an answer may take is no text. -/
@[simp] theorem timeout_set (m : TextMember) (s : Settings) (text : String) :
    (m.set s text).timeout = s.timeout := by
  cases m <;> rfl

/-- The names of the texts among the settings differ. -/
theorem key_inj {other : TextMember} : m.key = other.key ↔ m = other := by
  cases m <;> cases other <;> decide

/-- No text has the name of the time that an answer may take. -/
theorem key_ne_timeout (m : TextMember) : m.key ≠ "timeout_secs" := by
  cases m <;> decide

end TextMember

/-- Whether two tables hold settings of a connection that differ in one of them only, and what each
of the tables has for that. -/
def AgreeBut (m : TextMember) (x y : Setting) (table other : SettingTable) : Prop :=
  ∃ members others : SettingTable,
    (table.find? Settings.tableName = some (.table members) ∧
      other.find? Settings.tableName = some (.table others)) ∧
    (members.find? m.key = some x ∧ others.find? m.key = some y) ∧
    ∀ name ≠ m.key, members.find? name = others.find? name

section

variable {m : TextMember} {x y : Setting} {table other : SettingTable}

/-- Two tables agree but for a setting once it was laid over the same table in two ways. -/
theorem AgreeBut.of_setAt (plain : x.IsPlain) (plainOther : y.IsPlain) (table : SettingTable) :
    AgreeBut m x y (table.setAt x m.names) (table.setAt y m.names) := by
  -- Only the table inside that the setting stands in is changed, and only at its name.
  let inner := Setting.members (table.find? Settings.tableName)
  refine ⟨inner.setAt x [m.key], inner.setAt y [m.key], ⟨?_, ?_⟩, ⟨?_, ?_⟩, fun name other => ?_⟩
  · rw [TextMember.names, SettingTable.find?_setAt, if_pos rfl]
    rfl
  · rw [TextMember.names, SettingTable.find?_setAt, if_pos rfl]
    rfl
  · rw [SettingTable.find?_setAt, if_pos rfl, Setting.placed, plain.laidOver]
  · rw [SettingTable.find?_setAt, if_pos rfl, Setting.placed, plainOther.laidOver]
  · rw [SettingTable.find?_setAt, SettingTable.find?_setAt, if_neg other, if_neg other]

/-- Two tables that agree but for a setting still do after something apart from that is laid over
both. -/
theorem AgreeBut.setAt (agree : AgreeBut m x y table other) {names : List String}
    (apart : ¬ names <+: m.names ∧ ¬ m.names <+: names) (value : Setting) :
    AgreeBut m x y (table.setAt value names) (other.setAt value names) := by
  obtain ⟨members, others, ⟨inTable, inOther⟩, ⟨here, there⟩, same⟩ := agree
  cases names with
  | nil => exact absurd List.nil_prefix apart.1
  | cons first rest =>
    by_cases outer : Settings.tableName = first
    · subst outer
      cases rest with
      | nil => exact absurd (List.prefix_append [Settings.tableName] [m.key]) apart.1
      | cons name rest =>
        -- The table itself stays one, and another of its settings changes in the same way.
        have different : m.key ≠ name := by
          rintro rfl
          exact apart.2 (List.prefix_append m.names rest)
        refine ⟨members.setAt value (name :: rest), others.setAt value (name :: rest), ⟨?_, ?_⟩,
          ⟨?_, ?_⟩, fun key otherKey => ?_⟩
        · rw [SettingTable.find?_setAt, if_pos rfl, inTable]
          rfl
        · rw [SettingTable.find?_setAt, if_pos rfl, inOther]
          rfl
        · rw [SettingTable.find?_setAt, if_neg different, here]
        · rw [SettingTable.find?_setAt, if_neg different, there]
        · rw [SettingTable.find?_setAt, SettingTable.find?_setAt, same name different.symm,
            same key otherKey]
    · -- The table of the settings is not touched.
      refine ⟨members, others, ⟨?_, ?_⟩, ⟨here, there⟩, same⟩
      · rw [SettingTable.find?_setAt, if_neg outer, inTable]
      · rw [SettingTable.find?_setAt, if_neg outer, inOther]

/-- Two tables that agree but for a setting still do after variables apart from that are laid over
both. -/
theorem AgreeBut.layAll (agree : AgreeBut m x y table other) {known : Variables}
    (apart : ∀ pair ∈ known, m.IsApart pair) :
    AgreeBut m x y (Settings.layAll table (Settings.ofVariables known))
      (Settings.layAll other (Settings.ofVariables known)) := by
  -- Both tables change with every variable, so they are left open.
  induction known generalizing table other with
  | nil => exact agree
  | cons pair rest ih =>
    have later := fun next member => apart next (List.mem_cons_of_mem _ member)
    rw [Settings.ofVariables, List.filterMap_cons]
    cases path : pathOfVariable? pair.1 with
    | none => exact ih agree later
    | some text =>
      refine ih (agree.setAt (apart pair List.mem_cons_self text path) _) later

/-- Settings are their texts and a number. -/
theorem Settings.eq_iff {s s' : Settings} :
    s = s' ↔ (∀ m : TextMember, m.get s = m.get s') ∧ s.timeout = s'.timeout := by
  -- A text is asked for by its own name, so that all of them are all that settings have.
  refine ⟨fun same => same ▸ ⟨fun _ => rfl, rfl⟩, fun ⟨texts, timeout⟩ => ?_⟩
  obtain ⟨baseUrl, uploadUrl, token, userAgent, time⟩ := s
  obtain rfl : baseUrl = s'.baseUrl := texts .baseUrl
  obtain rfl : uploadUrl = s'.uploadUrl := texts .uploadUrl
  obtain rfl : token = s'.token := texts .token
  obtain rfl : userAgent = s'.userAgent := texts .userAgent
  obtain rfl : time = s'.timeout := timeout
  rfl

/-- The settings that a table holds have the texts and the number that are found under their
names. -/
theorem Settings.ofSetting?_table {members : SettingTable} {s : Settings} :
    ofSetting? (.table members) = some s ↔
      (∀ m : TextMember, (members.find? m.key).bind Setting.text? = some (m.get s)) ∧
      (members.find? "timeout_secs").bind Setting.count? = some s.timeout := by
  -- The reader asks for its five members by name, one after the other.
  have values : ofSetting? (.table members) =
      ofValues? (members.find? "base_url") (members.find? "base_upload_url")
        (members.find? "access_token") (members.find? "user_agent")
        (members.find? "timeout_secs") := rfl
  rw [values, ofValues?]
  constructor
  · intro read
    obtain ⟨baseUrl, first, read⟩ := Option.bind_eq_some_iff.mp read
    obtain ⟨uploadUrl, second, read⟩ := Option.bind_eq_some_iff.mp read
    obtain ⟨token, third, read⟩ := Option.bind_eq_some_iff.mp read
    obtain ⟨userAgent, fourth, read⟩ := Option.bind_eq_some_iff.mp read
    obtain ⟨timeout, fifth, read⟩ := Option.bind_eq_some_iff.mp read
    cases read
    refine ⟨fun m => ?_, fifth⟩
    cases m with
    | baseUrl => exact first
    | uploadUrl => exact second
    | token => exact third
    | userAgent => exact fourth
  · rintro ⟨texts, timeout⟩
    have first := texts .baseUrl
    have second := texts .uploadUrl
    have third := texts .token
    have fourth := texts .userAgent
    simp only [TextMember.key, TextMember.get] at first second third fourth
    rw [first, second, third, fourth, timeout]
    rfl

/-- Settings that are read from tables which agree but for a text are the same but for that text. -/
theorem AgreeBut.ofSetting? {text : String} (agree : AgreeBut m x (.text "") table other)
    (written : x.text? = some text) :
    (table.find? Settings.tableName).bind Settings.ofSetting? =
      ((other.find? Settings.tableName).bind Settings.ofSetting?).map (m.set · text) := by
  obtain ⟨members, others, ⟨inTable, inOther⟩, ⟨here, there⟩, same⟩ := agree
  -- Under all other names the two tables have the same, so what is read of them is the same.
  have elsewhere (k : TextMember) (different : k ≠ m) :
      members.find? k.key = others.find? k.key :=
    same _ fun keys => different (TextMember.key_inj.mp keys)
  have timeouts := same _ m.key_ne_timeout.symm
  rw [inTable, inOther, Option.bind_some, Option.bind_some]
  refine Option.ext fun s => ?_
  rw [Settings.ofSetting?_table, Option.map_eq_some_iff]
  constructor
  · -- The same settings with the text left empty are read from the other table.
    rintro ⟨texts, timeout⟩
    have read := texts m
    rw [here, Option.bind_some, written, Option.some.injEq] at read
    refine ⟨m.set s "", Settings.ofSetting?_table.mpr ⟨fun k => ?_, ?_⟩, ?_⟩
    · by_cases chosen : k = m
      · subst chosen
        rw [there, TextMember.get_set, if_pos rfl]
        rfl
      · rw [← elsewhere k chosen, texts k, TextMember.get_set, if_neg chosen]
    · rw [← timeouts, timeout, TextMember.timeout_set]
    · refine Settings.eq_iff.mpr ⟨fun k => ?_, by simp⟩
      by_cases chosen : k = m
      · subst chosen
        simpa using read
      · simp [chosen]
  · rintro ⟨s, read, rfl⟩
    obtain ⟨texts, timeout⟩ := Settings.ofSetting?_table.mp read
    refine ⟨fun k => ?_, by rw [timeouts, timeout, TextMember.timeout_set]⟩
    by_cases chosen : k = m
    · subst chosen
      rw [here, TextMember.get_set, if_pos rfl, Option.bind_some, written]
    · rw [elsewhere k chosen, texts k, TextMember.get_set, if_neg chosen]

end

section

variable {m : TextMember} {name : String} {before after : Variables}

/-- The settings that stand in a file, none if there is no file. -/
def Settings.written? : Option String → Option SettingTable
  | some text => settingsOfToml? text
  | none => some []

/-- The layers are the standard settings, what stands in the file, and the variables. -/
theorem Settings.ofLayers?_eq (file : Option String) (known : Variables) :
    ofLayers? file known = (written? file).bind fun written =>
      ((layAll (layAll standard.toTable written) (ofVariables known)).find? tableName).bind
        ofSetting? := by
  -- A missing file and a file without settings add nothing alike.
  cases file <;> rfl

/-- What a variable's text is taken for is no table. -/
theorem isPlain_ofVariable (text : String) : (Setting.ofVariable text).IsPlain := by
  intro members table
  -- A table has no text, and what is guessed has one.
  have written := text?_ofVariable text
  rw [table] at written
  cases written

/-- An empty variable is taken for an empty text. -/
theorem ofVariable_empty : Setting.ofVariable "" = .text "" := by
  with_unfolding_all rfl

/-- A variable is laid over what is at its path, between the variables before and after it. -/
theorem Settings.layAll_variable (isPath : pathOfVariable? name = some m.path)
    (table : SettingTable) (text : String) :
    layAll table (ofVariables (before ++ (name, text) :: after)) =
      layAll (SettingTable.setAt (Setting.ofVariable text) m.names
        (layAll table (ofVariables before))) (ofVariables after) := by
  -- Variables are laid over in their order, so that the ones before it are already there.
  rw [ofVariables, List.filterMap_append, List.filterMap_cons, isPath, layAll, List.foldl_append]
  show layAll (SettingTable.layAt m.path (Setting.ofVariable text) _) _ = _
  rw [SettingTable.layAt, m.ofText_path]
  rfl

/-- The settings with a variable for one of their texts differ in that text only from those with the
variable left empty, and they have what the text of the variable is taken for. -/
theorem Settings.ofLayers?_variable (isPath : pathOfVariable? name = some m.path)
    (apart : ∀ pair ∈ after, m.IsApart pair) (file : Option String) (text : String) :
    ofLayers? file (before ++ (name, text) :: after) =
      (ofLayers? file (before ++ (name, "") :: after)).map (m.set · (guessedText text)) := by
  rw [ofLayers?_eq, ofLayers?_eq]
  -- A file that cannot be read leaves no settings, whatever the variables are.
  cases written? file with
  | none => rfl
  | some written =>
    rw [Option.bind_some, Option.bind_some, layAll_variable isPath, layAll_variable isPath,
      ofVariable_empty]
    have agree : AgreeBut m (Setting.ofVariable text) (.text "") _ _ :=
      .of_setAt (isPlain_ofVariable text) (fun _ same => by cases same)
        (layAll (layAll standard.toTable written) (ofVariables before))
    exact (agree.layAll apart).ofSetting? (text?_ofVariable text)

/-- The settings are loaded with what the text of a variable is taken for, if they are loaded with
the variable left empty, and differ in nothing else. -/
theorem Settings.load_variable (isPath : pathOfVariable? name = some m.path)
    (apart : ∀ pair ∈ after, m.IsApart pair) (file : Option String) (text : String) :
    load file (before ++ (name, text) :: after) =
      (load file (before ++ (name, "") :: after)).map (m.set · (guessedText text)) := by
  rw [load, load, ofLayers?_variable isPath apart]
  -- Loading fails or not whatever the text is, as an empty text is one too.
  cases ofLayers? file (before ++ (name, "") :: after) <;> rfl

/-- Without a file and other variables the settings are the standard ones but for the text that a
variable is for. -/
theorem Settings.load_variable_alone (isPath : pathOfVariable? name = some m.path) (text : String) :
    load none [(name, text)] = .ok (m.set standard (guessedText text)) := by
  have empty : load none ([] ++ (name, "") :: []) = .ok (m.set standard "") := by
    -- An empty text is one that settings may have, so that nothing fails.
    rw [load, ofLayers?_eq, written?, Option.bind_some, layAll_variable isPath, ofVariable_empty]
    cases m <;> rfl
  have loaded : load none ([] ++ (name, text) :: []) = _ :=
    load_variable isPath (fun _ member => absurd member List.not_mem_nil) none text
  rw [empty] at loaded
  refine loaded.trans (congrArg Except.ok ?_)
  cases m <;> rfl

/-- A variable for a text among the settings sets that text to what its own is taken for, and
nothing else depends on it. So it arrives as it is exactly if it is written as what it is taken for.
-/
theorem Settings.variable_arrives
    (named : lowerChars name.toList = lowerChars m.variableName.toList)
    (apart : ∀ pair ∈ after, m.IsApart pair) (file : Option String) (text : String) :
    (∀ s, load file (before ++ (name, text) :: after) = .ok s →
      m.get s = guessedText text ∧ (m.get s = text ↔ IsVerbatim text)) ∧
    load file (before ++ (name, text) :: after) =
      (load file (before ++ (name, "") :: after)).map (m.set · (guessedText text)) ∧
    load none [(name, text)] = .ok (m.set standard (guessedText text)) := by
  have isPath := TextMember.pathOfVariable?_eq named
  have loaded : load file (before ++ (name, text) :: after) = _ :=
    load_variable isPath apart file text
  refine ⟨fun s ok => ?_, loaded, load_variable_alone isPath text⟩
  -- What is loaded with an empty text differs in the one text, which is asked for.
  rw [loaded] at ok
  obtain ⟨s, -, rfl⟩ := map_ok_iff.mp ok
  rw [TextMember.get_set, if_pos rfl]
  exact ⟨rfl, guessedText_eq_iff⟩

/-- A token that begins like a number, but is none, arrives as it is beside another variable. -/
theorem variable_arrives_token : ∃ s,
    Settings.load none [("HOME", "/"), ("Box__Api__Access_Token", "0123e"),
      ("BOX__API__TIMEOUT_SECS", "5")] = .ok s ∧ s.token = "0123e" ∧ s.timeout = 5 := by
  have named : lowerChars "Box__Api__Access_Token".toList =
      lowerChars TextMember.token.variableName.toList := by decide
  have place : SettingPlace.ofText "api.timeout_secs" = ⟨["api", "timeout_secs"], false⟩ := by
    decide
  -- The other variable is at a path of its own, which does not lead to the token.
  have apart : ∀ pair ∈ [("BOX__API__TIMEOUT_SECS", "5")], TextMember.token.IsApart pair := by
    have path : pathOfVariable? "BOX__API__TIMEOUT_SECS" = some "api.timeout_secs" := by decide
    simp only [List.mem_singleton, forall_eq, TextMember.IsApart, path, Option.mem_some_iff,
      forall_eq', place]
    decide
  obtain ⟨-, loaded, -⟩ := @Settings.variable_arrives .token "Box__Api__Access_Token"
    [("HOME", "/")] [("BOX__API__TIMEOUT_SECS", "5")] named apart none "0123e"
  have empty : Settings.load none ([("HOME", "/")] ++ ("Box__Api__Access_Token", "") ::
      [("BOX__API__TIMEOUT_SECS", "5")]) = .ok { Settings.standard with timeout := 5 } := by
    -- The variable for the time is a whole number, and the one for the home is none of ours.
    have count : Settings.ofVariables [("BOX__API__TIMEOUT_SECS", "5")] =
        [("api.timeout_secs", .whole 5)] := by with_unfolding_all rfl
    have none : Settings.ofVariables [("HOME", "/")] = [] := by with_unfolding_all rfl
    rw [Settings.load, Settings.ofLayers?_eq, Settings.written?, Option.bind_some,
      Settings.layAll_variable (TextMember.pathOfVariable?_eq named), ofVariable_empty, count, none]
    simp only [Settings.layAll, List.foldl_cons, List.foldl_nil, SettingTable.layAt, place]
    rfl
  have guessed : guessedText "0123e" = "0123e" := by decide
  rw [empty, guessed] at loaded
  exact ⟨_, loaded, rfl, rfl⟩

/-- A token of digits that begins with a zero arrives without it. -/
theorem load_numericToken : ∃ s,
    Settings.load none [("BOX__API__ACCESS_TOKEN", "0123")] = .ok s ∧ s.token = "123" ∧
      s.token ≠ "0123" := by
  -- The text reads as a whole number, which has no zeros in front when it is printed.
  have guessed : guessedText "0123" = "123" := by decide
  have isPath : pathOfVariable? "BOX__API__ACCESS_TOKEN" = some TextMember.token.path :=
    TextMember.pathOfVariable?_eq rfl
  refine ⟨_, Settings.load_variable_alone isPath "0123", guessed, fun same => ?_⟩
  exact absurd (guessed.symm.trans same) (by decide)

end

end ContentApi
