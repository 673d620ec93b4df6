import ContentApi.Proofs.Config.Variables

/-! Each of the settings of a connection comes from the uppermost layer that has it, whatever the
layers have for the others. -/

namespace ContentApi

/-- The settings of a connection. -/
inductive SettingMember where
  | text (m : TextMember)
  | timeout
  deriving DecidableEq

namespace SettingMember

variable {m : SettingMember} {known : Variables} {members : SettingTable} {value : Setting}

/-- The name of a setting in its table. -/
def key : SettingMember → String
  | .text m => m.key
  | .timeout => "timeout_secs"

/-- The names that lead to a setting from the outermost table. -/
def names (m : SettingMember) : List String :=
  [Settings.tableName, m.key]

/-- The path of a setting. -/
def path (m : SettingMember) : String :=
  Settings.tableName ++ "." ++ m.key

/-- The name of the variable for a setting. -/
def variableName : SettingMember → String
  | .text m => m.variableName
  | .timeout => "BOX__API__TIMEOUT_SECS"

/-- The value of a setting where no layer has one. -/
def standard : SettingMember → Setting
  | .text m => .text (m.get Settings.standard)
  | .timeout => .whole Settings.standard.timeout

/-- Whether a setting is what a value is read as. -/
def IsRead (m : SettingMember) (s : Settings) (value : Setting) : Prop :=
  match m with
  | .text m => value.text? = some (m.get s)
  | .timeout => value.count? = some s.timeout

/-- Whether a variable is for a setting: it has the name of that in any letter case. -/
def IsNamed (m : SettingMember) (name : String) : Prop :=
  lowerChars name.toList = lowerChars m.variableName.toList

instance (m : SettingMember) (name : String) : Decidable (m.IsNamed name) :=
  inferInstanceAs (Decidable (_ = _))

/-- Where the value of a setting comes from: its variable; what a file has for it, if it has no
variable; and otherwise the standard. -/
inductive ComesFrom (known : Variables) (members : SettingTable) (m : SettingMember) :
    Setting → Prop where
  | ofVariable {name text : String} (set : (name, text) ∈ known) (named : m.IsNamed name) :
    ComesFrom known members m (.ofVariable text)
  | ofFile {value : Setting} (unset : ∀ pair ∈ known, ¬ m.IsNamed pair.1)
    (written : (m.key, value) ∈ members) : ComesFrom known members m value
  | ofStandard (unset : ∀ pair ∈ known, ¬ m.IsNamed pair.1)
    (unwritten : ∀ member ∈ members, member.1 ≠ m.key) : ComesFrom known members m m.standard

/-- The value that the variables have for a setting. -/
def valueIn? (m : SettingMember) (known : Variables) : Option Setting :=
  (List.find? (fun pair => m.IsNamed pair.1) known).map fun pair => Setting.ofVariable pair.2

/-- The settings have different names. -/
theorem key_inj {other : SettingMember} : m.key = other.key ↔ m = other := by
  -- Each name of a text is its own, and none of them is that of the timeout.
  cases m with
  | text m =>
    cases other with
    | text other => simpa [key] using TextMember.key_inj
    | timeout => simpa [key] using m.key_ne_timeout
  | timeout =>
    cases other with
    | text other => simpa [key] using other.key_ne_timeout.symm
    | timeout => simp

/-- A variable is for one setting only. -/
theorem IsNamed.unique {name : String} {other : SettingMember} (named : m.IsNamed name)
    (otherNamed : other.IsNamed name) : m = other := by
  -- The variables of five settings are compared pair by pair.
  have same := named.symm.trans otherNamed
  revert same
  rcases m with (_ | _ | _ | _) | _ <;> rcases other with (_ | _ | _ | _) | _ <;> decide

/-- The variable for a setting leads to it. -/
theorem IsNamed.pathOfVariable?_eq {name : String} (named : m.IsNamed name) :
    pathOfVariable? name = some m.path := by
  cases m with
  | text m => exact TextMember.pathOfVariable?_eq named
  -- The name is compared in lower case, where there is just one.
  | timeout =>
    rw [pathOfVariable?, show lowerChars name.toList = _ from named]
    decide

/-- The name of the variable for a setting starts like those of all settings. -/
theorem IsNamed.leads {name : String} (named : m.IsNamed name) :
    variableLead <+: lowerChars name.toList := by
  rw [show lowerChars name.toList = _ from named]
  -- The names are spelled out, so their first letters are compared.
  rcases m with (_ | _ | _ | _) | _ <;> decide

/-- The path of a setting is read as its names. -/
theorem ofText_path (m : SettingMember) : SettingPlace.ofText m.path = ⟨m.names, false⟩ := by
  cases m with
  | text m => exact m.ofText_path
  | timeout => decide

/-- A variable that is no setting is passed over. -/
theorem valueIn?_cons_of_not {pair : String × String} (other : ¬ m.IsNamed pair.1) :
    m.valueIn? (pair :: known) = m.valueIn? known := by
  simp [valueIn?, other]

/-- The first variable for a setting counts. -/
theorem valueIn?_cons_self {pair : String × String} (named : m.IsNamed pair.1) :
    m.valueIn? (pair :: known) = some (.ofVariable pair.2) := by
  simp [valueIn?, named]

/-- Variables without one for a setting have no value for it. -/
theorem valueIn?_eq_none_iff : m.valueIn? known = none ↔ ∀ pair ∈ known, ¬ m.IsNamed pair.1 := by
  simp [valueIn?]

end SettingMember

/-- Whether all variables that could be settings are for one of those of a connection, and no two
of them have one name in different letter cases. -/
structure Variables.AreOfConnection (known : Variables) : Prop where
  named : ∀ pair ∈ known, variableLead <+: lowerChars pair.1.toList →
    ∃ m : SettingMember, m.IsNamed pair.1
  once : known.Pairwise fun pair other => variableLead <+: lowerChars pair.1.toList →
    lowerChars pair.1.toList ≠ lowerChars other.1.toList

/-- Whether there is no file, or one of a single table of settings that are themselves no tables,
each under a name of its own. -/
structure Settings.IsWritten (file : Option String) (members : SettingTable) : Prop where
  read : file = none ∧ members = [] ∨
    ∃ text, file = some text ∧ settingsOfToml? text = some [(tableName, .table members)]
  distinct : (members.map Prod.fst).Nodup
  plain : ∀ member ∈ members, member.2.IsPlain

/-- Whether a table holds the settings of a connection, each with a given value. -/
def SettingTable.Holds (table : SettingTable) (value : SettingMember → Setting) : Prop :=
  ∃ members : SettingTable, table.find? Settings.tableName = some (.table members) ∧
    ∀ m : SettingMember, members.find? m.key = some (value m)

section

variable {table members : SettingTable} {value : SettingMember → Setting} {s : Settings}
  {m : SettingMember} {known : Variables} {file : Option String}

/-- The standard settings have the standard values. -/
theorem Settings.holds_toTable : standard.toTable.Holds SettingMember.standard := by
  refine ⟨_, rfl, fun m => ?_⟩
  rcases m with (_ | _ | _ | _) | _ <;> rfl

/-- The values of the settings may be given in another way. -/
theorem SettingTable.Holds.congr {other : SettingMember → Setting} (holds : table.Holds value)
    (same : ∀ m, value m = other m) : table.Holds other :=
  funext same ▸ holds

/-- Settings are read from a table if each of them is read from its value. -/
theorem SettingTable.Holds.ofSetting?_iff (holds : table.Holds value) :
    (table.find? Settings.tableName).bind Settings.ofSetting? = some s ↔
      ∀ m : SettingMember, m.IsRead s (value m) := by
  obtain ⟨members, inTable, each⟩ := holds
  -- The table of the connection is asked for the names one by one, four texts and a number.
  rw [inTable, Option.bind_some, Settings.ofSetting?_table]
  constructor
  · rintro ⟨texts, timeout⟩ m
    cases m with
    | text m =>
      have read := texts m
      rwa [show members.find? m.key = _ from each (.text m)] at read
    | timeout => rwa [show members.find? "timeout_secs" = _ from each .timeout] at timeout
  · intro reads
    refine ⟨fun m => ?_, ?_⟩
    · rw [show members.find? m.key = _ from each (.text m)]
      exact reads (.text m)
    · rw [show members.find? "timeout_secs" = _ from each .timeout]
      exact reads .timeout

/-- What is no table and laid over one of the settings is its value, and the others stay. -/
theorem SettingTable.Holds.setAt (holds : table.Holds value) (m : SettingMember) {newer : Setting}
    (plain : newer.IsPlain) :
    (table.setAt newer m.names).Holds (Function.update value m newer) := by
  obtain ⟨members, inTable, each⟩ := holds
  -- The path of a setting has two names, so that only the inner table changes.
  refine ⟨members.setAt newer [m.key], ?_, fun k => ?_⟩
  · rw [SettingMember.names, SettingTable.find?_setAt, if_pos rfl, inTable]
    rfl
  · rw [SettingTable.find?_setAt, Setting.placed, plain.laidOver, each]
    by_cases same : k = m
    · subst same
      rw [if_pos rfl, Function.update_self]
    · rw [if_neg fun keys => same (SettingMember.key_inj.mp keys), Function.update_of_ne same]

/-- What a file has for settings of a connection are their values, and the others stay. -/
theorem SettingTable.Holds.layTable (holds : table.Holds value)
    (distinct : (members.map Prod.fst).Nodup) (plain : ∀ member ∈ members, member.2.IsPlain) :
    (Settings.layAll table [(Settings.tableName, .table members)]).Holds
      fun m => (members.find? m.key).getD (value m) := by
  obtain ⟨inner, inTable, each⟩ := holds
  refine ⟨inner.laidOver members, ?_, fun m => ?_⟩
  · -- The table of the connection is put back with the new one laid over it, at the one name.
    have place : SettingPlace.ofText Settings.tableName = ⟨[Settings.tableName], false⟩ := by decide
    rw [Settings.layAll, List.foldl_cons, List.foldl_nil, SettingTable.layAt, place]
    show (table.setAt (.table members) [Settings.tableName]).find? _ = _
    rw [SettingTable.find?_setAt, if_pos rfl, inTable]
    rfl
  · -- Inside it, what the file has comes before what was there.
    rw [SettingTable.find?_laidOver distinct plain, each, Option.or_some]

/-- The variable for a setting is laid over it before the variables after it. -/
theorem Settings.layAll_cons_of_named {pair : String × String} (named : m.IsNamed pair.1) :
    layAll table (ofVariables (pair :: known)) =
      layAll (table.setAt (.ofVariable pair.2) m.names) (ofVariables known) := by
  -- The variable is the first one that is laid over what is there.
  rw [ofVariables, List.filterMap_cons, named.pathOfVariable?_eq]
  show layAll (table.layAt m.path (.ofVariable pair.2)) _ = _
  rw [SettingTable.layAt, m.ofText_path]
  rfl

/-- A variable that could not be a setting is none. -/
theorem Settings.ofVariables_cons_of_not_leads {pair : String × String}
    (other : ¬ variableLead <+: lowerChars pair.1.toList) :
    ofVariables (pair :: known) = ofVariables known := by
  -- The lead is looked at before anything else in a name.
  have noPath : pathOfVariable? pair.1 = none := by
    rw [pathOfVariable?, if_neg (by simpa using other)]
  rw [ofVariables, List.filterMap_cons, noPath]
  rfl

/-- Variables are the values of the settings that they are for, and the others stay. -/
theorem SettingTable.Holds.layVariables (holds : table.Holds value)
    (ours : known.AreOfConnection) :
    (Settings.layAll table (Settings.ofVariables known)).Holds
      fun m => (m.valueIn? known).getD (value m) := by
  -- Each variable changes the table under the ones after it, so the values are left open.
  induction known generalizing table value with
  | nil => exact holds
  | cons pair rest ih =>
    obtain ⟨first, once⟩ := List.pairwise_cons.mp ours.once
    have later : Variables.AreOfConnection rest :=
      ⟨fun other inside => ours.named other (List.mem_cons_of_mem _ inside), once⟩
    by_cases leads : variableLead <+: lowerChars pair.1.toList
    · -- The variable is for a setting, and all later ones are laid over what it makes.
      obtain ⟨m, named⟩ := ours.named pair List.mem_cons_self leads
      rw [Settings.layAll_cons_of_named named]
      refine (ih (holds.setAt m (isPlain_ofVariable pair.2)) later).congr fun k => ?_
      by_cases same : k = m
      · -- No later variable is for this setting.
        subst same
        have unset : k.valueIn? rest = none :=
          SettingMember.valueIn?_eq_none_iff.mpr fun other inside otherNamed =>
            first other inside leads (named.trans otherNamed.symm)
        rw [SettingMember.valueIn?_cons_self named, unset, Option.getD_none,
          Function.update_self, Option.getD_some]
      · rw [SettingMember.valueIn?_cons_of_not fun other => same (other.unique named),
          Function.update_of_ne same]
    · -- The variable is no setting, and no setting has its name.
      rw [Settings.ofVariables_cons_of_not_leads leads]
      refine (ih holds later).congr fun k => ?_
      rw [SettingMember.valueIn?_cons_of_not fun named => leads named.leads]

/-- Variables that could be settings have no value for a setting twice. -/
theorem SettingMember.ofVariable_eq_of_valueIn? (ours : known.AreOfConnection) {name text : String}
    (set : (name, text) ∈ known) (named : m.IsNamed name) :
    m.valueIn? known = some (.ofVariable text) := by
  induction known with
  | nil => cases set
  | cons pair rest ih =>
    obtain ⟨first, once⟩ := List.pairwise_cons.mp ours.once
    rcases List.mem_cons.mp set with rfl | inRest
    · exact valueIn?_cons_self named
    · -- A variable in front of it would be the same one in another letter case.
      have other : ¬ m.IsNamed pair.1 := fun otherNamed =>
        first _ inRest otherNamed.leads (otherNamed.trans named.symm)
      rw [valueIn?_cons_of_not other]
      exact ih ⟨fun other inside => ours.named other (List.mem_cons_of_mem _ inside), once⟩ inRest

/-- The value of a setting comes from the uppermost layer that has one. -/
theorem SettingMember.comesFrom_iff {found : Setting} (ours : known.AreOfConnection)
    (distinct : (members.map Prod.fst).Nodup) :
    m.ComesFrom known members found ↔
      found = (m.valueIn? known).getD ((members.find? m.key).getD m.standard) := by
  constructor
  · -- The three ways to have a value are tried from the uppermost layer down.
    rintro (⟨set, named⟩ | ⟨unset, written⟩ | ⟨unset, unwritten⟩)
    · rw [ofVariable_eq_of_valueIn? ours set named, Option.getD_some]
    · rw [valueIn?_eq_none_iff.mpr unset, Option.getD_none,
        SettingTable.find?_of_mem distinct written, Option.getD_some]
    · rw [valueIn?_eq_none_iff.mpr unset, Option.getD_none,
        SettingTable.find?_eq_none_iff.mpr unwritten, Option.getD_none]
  · rintro rfl
    -- What is not set is looked for in the file, and what is not there either is standard.
    cases set : m.valueIn? known with
    | some value =>
      obtain ⟨pair, inside, rfl⟩ := Option.map_eq_some_iff.mp set
      exact .ofVariable (List.mem_of_find?_eq_some inside) (by simpa using List.find?_some inside)
    | none =>
      have unset := valueIn?_eq_none_iff.mp set
      cases written : members.find? m.key with
      | some value => exact .ofFile unset (SettingTable.mem_of_find? written)
      | none => exact .ofStandard unset (SettingTable.find?_eq_none_iff.mp written)

/-- The layers make a table in which each setting of a connection has the value of the uppermost
layer that has one. -/
theorem Settings.ofLayers?_iff (isFile : IsWritten file members) (ours : known.AreOfConnection) :
    ofLayers? file known = some s ↔
      ∀ m : SettingMember, m.IsRead s
        ((m.valueIn? known).getD ((members.find? m.key).getD m.standard)) := by
  -- The table of standard values is there before the file, and the file before the variables.
  rw [ofLayers?_eq]
  rcases isFile.read with ⟨rfl, rfl⟩ | ⟨text, rfl, read⟩
  · rw [written?, Option.bind_some]
    exact (holds_toTable.layVariables ours).ofSetting?_iff
  · rw [written?, read, Option.bind_some]
    exact ((holds_toTable.layTable isFile.distinct isFile.plain).layVariables ours).ofSetting?_iff

/-- Settings are loaded from the layers setting by setting. Where every variable that could be a
setting is for one of those of a connection and the file, if there is one, has nothing else either,
the settings are loaded exactly if each of them is what a value is read as, and that value comes
from its variable, from what the file has for it, or from the standard, in this order, whatever the
layers have for the others. -/
theorem Settings.load_layered (isFile : IsWritten file members) (ours : known.AreOfConnection)
    (s : Settings) :
    (load file known = .ok s ↔
      ∀ m : SettingMember, ∃ value, m.ComesFrom known members value ∧ m.IsRead s value) ∧
    ∀ m : SettingMember, ∃! value, m.ComesFrom known members value := by
  -- There is one value that a setting can come from, so asking for any is asking for that one.
  have comes (m : SettingMember) (found : Setting) :
      m.ComesFrom known members found ↔ found = _ := m.comesFrom_iff ours isFile.distinct
  refine ⟨?_, fun m => ⟨_, (comes m _).mpr rfl, fun found => (comes m found).mp⟩⟩
  have loaded : load file known = .ok s ↔ ofLayers? file known = some s := by
    rw [load]
    cases ofLayers? file known <;> simp
  rw [loaded, ofLayers?_iff isFile ours]
  refine forall_congr' fun m => ?_
  simp only [comes, exists_eq_left]

/-- A file with a token and a time. -/
def tokenFile : String := "[api]\naccess_token = \"t\"\ntimeout_secs = \"7\"\n"

/-- What stands in the file with a token and a time. -/
def tokenMembers : SettingTable := [("access_token", .text "t"), ("timeout_secs", .text "7")]

/-- A variable for the time in mixed letter case, and one that is no setting. -/
def timeVariables : Variables := [("HOME", "/"), ("Box__Api__Timeout_Secs", "5")]

/-- The time comes from its variable and not from the file, the token from the file, and all else is
standard. -/
theorem load_layered_tokenFile :
    Settings.IsWritten (some tokenFile) tokenMembers ∧ timeVariables.AreOfConnection ∧
    Settings.load (some tokenFile) timeVariables =
      .ok { Settings.standard with token := "t", timeout := 5 } := by
  -- The text of the file is read, and all names are compared, by computing.
  have read : settingsOfToml? tokenFile = some [("api", .table tokenMembers)] := by cbv
  have isFile : Settings.IsWritten (some tokenFile) tokenMembers :=
    ⟨.inr ⟨_, rfl, read⟩, by decide, by simp [tokenMembers, Setting.IsPlain]⟩
  have ours : timeVariables.AreOfConnection := by
    refine ⟨List.forall_mem_cons.mpr ⟨fun leads => absurd leads (by decide),
      List.forall_mem_cons.mpr ⟨fun _ => ⟨.timeout, by decide⟩, List.forall_mem_nil _⟩⟩, by decide⟩
  refine ⟨isFile, ours, (Settings.load_layered isFile ours _).1.mpr fun m => ?_⟩
  -- Each setting has its own layer here.
  match m with
  | .timeout =>
    have five : Setting.ofVariable "5" = .whole 5 := by with_unfolding_all rfl
    exact ⟨_, .ofVariable (.tail _ (.head _)) (by decide), five ▸ rfl⟩
  | .text .token => exact ⟨_, .ofFile (by decide) (.head _), rfl⟩
  | .text .baseUrl | .text .uploadUrl | .text .userAgent =>
    exact ⟨_, .ofStandard (by decide) (by decide), rfl⟩

end

end ContentApi
