import LineCalc.Configuration
import LineCalc.Proofs.CommandLine.Mentions
import LineCalc.Proofs.Settings
import LineCalc.Settings.Lenient

/-! The layers of a configuration, field by field. What a mention on the command line supplies hides
the variable, and what either supplies hides the default; only what is left to see is read. So a
bad value does no harm below a good one, and the order of mentions matters within a field only. -/
namespace LineCalc.Configuration

open CommandLine (Mention)
open Settings (Field IsValid Means Problem Raw Supplied Validator)

def variableOf : Field → String
  | .prompt => "CLIMBCALC_PROMPT"
  | .historyFile => "CLIMBCALC_HISTORY_FILE"
  | .logLevel => "CLIMBCALC_LOG_LEVEL"
  | .stopOnError => "CLIMBCALC_STOP_ON_ERROR"
  | .showTree => "CLIMBCALC_SHOW_TREE"

/-- What a field is supplied with: by its last mention, or else by its variable. -/
def chosen (lookup : String → Option String) (mentions : List Mention) : Supplied := fun field =>
  (Mention.last mentions field).or ((lookup (variableOf field)).map Raw.text)

def IsDefault (origin : Homes) (settings : Settings) : Field → Prop
  | .prompt => settings.prompt = "> "
  | .historyFile => Home.Expands origin "~/.climbcalc_history" settings.historyFile
  | .logLevel => settings.logLevel.name = "WARNING"
  | .stopOnError => settings.stopOnError = false
  | .showTree => settings.showTree = false

def Holds (v : Validator) (homes origin : Homes) (supplied : Supplied) (settings : Settings)
    (field : Field) : Prop :=
  match supplied field with
  | none => IsDefault origin settings field
  | some value => Means v homes value settings field

theorem variableName_eq (field : Field) : field.variableName = variableOf field := by
  cases field <;> decide +kernel

theorem same_default_iff {origin : Homes} {settings : Settings} {field : Field} :
    Settings.Same settings (.default origin) field ↔ IsDefault origin settings field := by
  cases field with
  | prompt | stopOnError | showTree => exact Iff.rfl
  | historyFile =>
    rw [IsDefault, ← Home.expand?_eq_some_iff, Settings.expand?_defaultHistoryFile,
      Option.some.injEq]
    exact eq_comm
  | logLevel =>
    have warning : Log.Threshold.ofName "WARNING" = some .warning := by decide
    rw [IsDefault, ← Log.Threshold.ofName_eq_some_iff, warning, Option.some.injEq]
    exact eq_comm

theorem holds_default_iff {v : Validator} {homes origin : Homes} {supplied : Supplied}
    {settings : Settings} {field : Field} :
    Settings.Holds v homes (.default origin) supplied settings field ↔
      Holds v homes origin supplied settings field := by
  rw [Settings.Holds, Holds]
  cases supplied field with
  | none => exact same_default_iff
  | some value => exact Iff.rfl

section Load

variable {v : Validator} {homes : Homes} {start : Settings} {lookup : String → Option String}
  {mentions : List Mention}

theorem load_arguments :
    load v homes start lookup (mentions.flatMap Mention.arguments) =
      (Settings.ofSupplied v homes start (chosen lookup mentions)).mapError Refusal.settings := by
  have layers : (Mention.last mentions).over (Settings.ofEnvironment lookup) =
      chosen lookup mentions := by
    funext field
    rw [chosen, ← variableName_eq]
    rfl
  rw [load, Mention.read_arguments]
  simp only [layers]
  cases Settings.ofSupplied v homes start (chosen lookup mentions) <;> rfl

theorem load_congr {other : String → Option String} {others : List Mention}
    (same : chosen other others = chosen lookup mentions) :
    load v homes start other (others.flatMap Mention.arguments) =
      load v homes start lookup (mentions.flatMap Mention.arguments) := by
  rw [load_arguments, load_arguments, same]

theorem load_eq_ok_iff {settings : Settings} :
    load v homes start lookup (mentions.flatMap Mention.arguments) = .ok settings ↔
      Settings.ofSupplied v homes start (chosen lookup mentions) = .ok settings := by
  rw [load_arguments, Settings.mapError_eq_ok_iff]

theorem load_eq_error_iff {problems : List Problem} :
    load v homes start lookup (mentions.flatMap Mention.arguments) =
        .error (.settings problems) ↔
      Settings.ofSupplied v homes start (chosen lookup mentions) = .error problems := by
  rw [load_arguments, Settings.mapError_eq_error_iff]
  simp

theorem load_refused_iff :
    (∃ problems, load v homes start lookup (mentions.flatMap Mention.arguments) =
        .error (.settings problems)) ↔
      ∃ field value, chosen lookup mentions field = some value ∧ ¬IsValid v homes field value :=
  (exists_congr fun _ => load_eq_error_iff).trans Settings.exists_problems_iff

/-- A command line of mentions is never refused as such. -/
theorem exists_settings_of_valid
    (valid : ∀ field value, chosen lookup mentions field = some value →
      IsValid v homes field value) :
    ∃ settings, load v homes start lookup (mentions.flatMap Mention.arguments) = .ok settings := by
  cases read : Settings.ofSupplied v homes start (chosen lookup mentions) with
  | ok settings => exact ⟨settings, load_eq_ok_iff.2 read⟩
  | error problems =>
    obtain ⟨field, value, given, invalid⟩ :=
      Settings.exists_problems_iff.1 ⟨problems, read⟩
    exact absurd (valid field value given) invalid

theorem load_eq_ok_iff_holds {origin : Homes} {settings : Settings} :
    load v homes (.default origin) lookup (mentions.flatMap Mention.arguments) = .ok settings ↔
      ∀ field, Holds v homes origin (chosen lookup mentions) settings field :=
  (load_eq_ok_iff.trans Settings.ofSupplied_eq_ok_iff).trans
    (forall_congr' fun _ => holds_default_iff)

/-- A flag that is mentioned is raised, whatever its variable says. -/
theorem means_of_mentioned {origin : Homes} {settings : Settings} {field : Field}
    (holds : Holds v homes origin (chosen lookup mentions) settings field)
    (bare : field ∈ [.stopOnError, .showTree]) (mentioned : Mention.last mentions field ≠ none) :
    Means v homes (.flag true) settings field := by
  have supplied : chosen lookup mentions field = some (.flag true) := by
    rw [chosen, Mention.last_of_bare bare mentioned]
    rfl
  rwa [Holds, supplied] at holds

theorem eq_of_readFlag {b c : Bool} (h : v.readFlag (.flag b) = .ok c) : c = b :=
  (Except.ok.inj ((v.readFlag_flag b).symm.trans h)).symm

end Load

/-- What comes of loading where the command line is made of mentions. -/
structure Layered (v : Validator) (homes origin : Homes) (lookup : String → Option String)
    (mentions : List Mention) (loaded : Except Refusal Settings) : Prop where
  refused : (∃ problems, loaded = .error (.settings problems)) ↔
    ∃ field value, chosen lookup mentions field = some value ∧ ¬IsValid v homes field value
  listed : ∀ problems, loaded = .error (.settings problems) →
    (problems.map Problem.field).Sublist
        [.prompt, .historyFile, .logLevel, .stopOnError, .showTree] ∧
      (∀ field, field ∈ problems.map Problem.field ↔
        ∃ value, chosen lookup mentions field = some value ∧ ¬IsValid v homes field value) ∧
      ∀ p ∈ problems, chosen lookup mentions p.field = some p.value
  loads : (∀ field value, chosen lookup mentions field = some value → IsValid v homes field value) →
    ∃ settings, loaded = .ok settings
  holds : ∀ settings, loaded = .ok settings ↔
    ∀ field, Holds v homes origin (chosen lookup mentions) settings field
  flagged : ∀ settings, loaded = .ok settings →
    (Mention.last mentions .stopOnError ≠ none → settings.stopOnError = true) ∧
      (Mention.last mentions .showTree ≠ none → settings.showTree = true)
  hidden : ∀ other, (∀ field, Mention.last mentions field = none →
      other (variableOf field) = lookup (variableOf field)) →
    load v homes (.default origin) other (mentions.flatMap Mention.arguments) = loaded
  reordered : ∀ others, (∀ field, Mention.last others field = Mention.last mentions field) →
    load v homes (.default origin) lookup (others.flatMap Mention.arguments) = loaded

/-- Settings are refused exactly if some field is supplied with an invalid value by the uppermost
layer that supplies it, and the refusal lists these fields in their order. Otherwise each field
holds what its value means, or the default. A variable below a mention is not looked at, and
neither is what a mention hides, so mentions of different fields can change places. -/
theorem load_layered (v : Validator) (homes origin : Homes) (lookup : String → Option String)
    (mentions : List Mention) :
    Layered v homes origin lookup mentions
      (load v homes (.default origin) lookup (mentions.flatMap Mention.arguments)) where
  refused := load_refused_iff
  listed problems h := Settings.fields_of_ofSupplied (load_eq_error_iff.1 h)
  loads := exists_settings_of_valid
  holds _ := load_eq_ok_iff_holds
  flagged settings h := by
    have holds := load_eq_ok_iff_holds.1 h
    constructor
    · intro mentioned
      exact eq_of_readFlag (means_of_mentioned (holds .stopOnError) (by decide) mentioned)
    · intro mentioned
      exact eq_of_readFlag (means_of_mentioned (holds .showTree) (by decide) mentioned)
  hidden other same := by
    refine load_congr (funext fun field => ?_)
    cases mentioned : Mention.last mentions field with
    | some value => simp only [chosen, mentioned, Option.some_or]
    | none => simp only [chosen, mentioned, same field mentioned]
  reordered others same := by
    refine load_congr (funext fun field => ?_)
    simp only [chosen, same field]

/-- The level of the variable is none, but it is hidden; the other variables are read. -/
theorem load_layered_hidden_level :
    load .lenient (.only "/home/calc/") (.default (.only "/root"))
        (fun name => [("CLIMBCALC_LOG_LEVEL", "LOUD"), ("CLIMBCALC_STOP_ON_ERROR", "Yes"),
          ("CLIMBCALC_HISTORY_FILE", "~/h")].lookup name)
        ["--log-level=loud", "--show-tree", "--log-level", " info"] =
      .ok ⟨"> ", "/home/calc/h", .info, true, true⟩ := by
  let lookup name := [("CLIMBCALC_LOG_LEVEL", "LOUD"), ("CLIMBCALC_STOP_ON_ERROR", "Yes"),
    ("CLIMBCALC_HISTORY_FILE", "~/h")].lookup name
  let mentions : List Mention := [.attached .logLevel (by decide) "loud" (by decide),
    .flag .showTree (by decide), .apart .logLevel (by decide) " info" (by decide)]
  have layered := load_layered .lenient (.only "/home/calc/") (.only "/root") lookup mentions
  refine (layered.holds _).2 fun field => ?_
  cases field with
  | prompt =>
    have absent : chosen lookup mentions .prompt = none := by decide +kernel
    simp only [Holds, absent]
    rfl
  | historyFile =>
    have given : chosen lookup mentions .historyFile = some (.text "~/h") := by decide +kernel
    simp only [Holds, given]
    exact ⟨"~/h", rfl, Home.expand?_eq_some_iff.1 (by decide +kernel)⟩
  | logLevel => exact ⟨" info", rfl, by decide +kernel⟩
  | stopOnError =>
    have given : chosen lookup mentions .stopOnError = some (.text "Yes") := by decide +kernel
    simp only [Holds, given]
    exact (by decide +kernel : Settings.Lenient.readFlag (.text "Yes") = .ok true)
  | showTree => exact rfl

end LineCalc.Configuration
