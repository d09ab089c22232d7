import LineCalc.Proofs.Home
import LineCalc.Proofs.Text.Strip
import LineCalc.Settings

/-! What supplied values mean, field by field, and when they mean nothing. The readers of the fields
differ in what they give; whether they refuse a value is asked of all of them in the same way. -/
namespace LineCalc.Settings

/-- What the settings hold in a field is what the value means there. -/
def Means (v : Validator) (homes : Homes) (value : Raw) (settings : Settings) : Field → Prop
  | .prompt => value = .text settings.prompt ∧ settings.prompt ≠ ""
  | .historyFile => ∃ s, value = .text s ∧ Home.Expands homes s settings.historyFile
  | .logLevel => ∃ s, value = .text s ∧ settings.logLevel.name = Text.upper (Text.stripped s)
  | .stopOnError => v.readFlag value = .ok settings.stopOnError
  | .showTree => v.readFlag value = .ok settings.showTree

def IsValid (v : Validator) (homes : Homes) (field : Field) (value : Raw) : Prop :=
  ∃ settings, Means v homes value settings field

def Same (s t : Settings) : Field → Prop
  | .prompt => s.prompt = t.prompt
  | .historyFile => s.historyFile = t.historyFile
  | .logLevel => s.logLevel = t.logLevel
  | .stopOnError => s.stopOnError = t.stopOnError
  | .showTree => s.showTree = t.showTree

/-- A field holds what is supplied for it, and what it has at the start if nothing is. -/
def Holds (v : Validator) (homes : Homes) (start : Settings) (supplied : Supplied)
    (settings : Settings) (field : Field) : Prop :=
  match supplied field with
  | none => Same settings start field
  | some value => Means v homes value settings field

theorem expand?_defaultHistoryFile (homes : Homes) :
    Home.expand? homes "~/.climbcalc_history" = some (defaultHistoryFile homes) := by
  have path : "~/.climbcalc_history" = "~" ++ "" ++ "/.climbcalc_history" := by decide
  have caller : homes.Names "" homes.own := .own
  rw [defaultHistoryFile, path, Home.expand?_of_names caller (by simp)]
  rfl

section MapError

variable {f : ε → ε'}

theorem mapError_eq_ok_iff {x : Except ε α} {a : α} : x.mapError f = .ok a ↔ x = .ok a := by
  cases x <;> simp [Except.mapError]

theorem mapError_eq_error_iff {x : Except ε α} {e' : ε'} :
    x.mapError f = .error e' ↔ ∃ e, x = .error e ∧ f e = e' := by
  cases x <;> simp [Except.mapError]

end MapError

section Readers

variable {v : Validator} {homes : Homes} {value : Raw}

theorem readBy_eq_ok_iff {rule : String → Except String α} {a : α} :
    v.readBy rule value = .ok a ↔ ∃ s, value = .text s ∧ rule s = .ok a := by
  rw [Validator.readBy]
  cases read : v.readText value with
  | ok s =>
    cases (v.readText_eq_ok_iff value s).1 read
    refine mapError_eq_ok_iff.trans ⟨fun h => ⟨s, rfl, h⟩, ?_⟩
    rintro ⟨_, ⟨⟩, h⟩
    exact h
  | error reason =>
    refine iff_of_false nofun ?_
    rintro ⟨s, same, _⟩
    cases read.symm.trans ((v.readText_eq_ok_iff value s).2 same)

theorem promptRule_eq_ok_iff {s p : String} : promptRule s = .ok p ↔ s = p ∧ p ≠ "" := by
  rw [promptRule]
  by_cases empty : s = ""
  · subst empty
    exact iff_of_false nofun fun h => h.2 h.1.symm
  · rw [if_neg (mt String.isEmpty_iff.1 empty), Except.ok.injEq]
    exact ⟨fun same => ⟨same, same ▸ empty⟩, And.left⟩

theorem historyFileRule_eq_ok_iff {s path : String} :
    historyFileRule homes s = .ok path ↔ Home.Expands homes s path := by
  rw [historyFileRule, ← Home.expand?_eq_some_iff]
  cases Home.expand? homes s <;> simp

theorem levelRule_eq_ok_iff {s : String} {level : Log.Threshold} :
    levelRule s = .ok level ↔ level.name = Text.upper (Text.stripped s) := by
  rw [levelRule, ← Log.Threshold.ofName_eq_some_iff, Text.stripped]
  cases Log.Threshold.ofName (Text.upper (String.ofList (Text.strip s.toList))) <;> simp

theorem means_prompt_iff {settings : Settings} :
    Means v homes value settings .prompt ↔ v.readBy promptRule value = .ok settings.prompt := by
  simp [Means, readBy_eq_ok_iff, promptRule_eq_ok_iff]

theorem means_historyFile_iff {settings : Settings} :
    Means v homes value settings .historyFile ↔
      v.readBy (historyFileRule homes) value = .ok settings.historyFile := by
  simp only [Means, readBy_eq_ok_iff, historyFileRule_eq_ok_iff]

theorem means_logLevel_iff {settings : Settings} :
    Means v homes value settings .logLevel ↔
      v.readBy levelRule value = .ok settings.logLevel := by
  simp only [Means, readBy_eq_ok_iff, levelRule_eq_ok_iff]

end Readers

def reasonOf : Except Reason α → Option Reason
  | .ok _ => none
  | .error reason => some reason

/-- Why a field refuses a value, if it does. -/
def reason? (v : Validator) (homes : Homes) : Field → Raw → Option Reason
  | .prompt, value => reasonOf (v.readBy promptRule value)
  | .historyFile, value => reasonOf (v.readBy (historyFileRule homes) value)
  | .logLevel, value => reasonOf (v.readBy levelRule value)
  | .stopOnError, value | .showTree, value => reasonOf (v.readFlag value)

theorem reasonOf_eq_none_iff {r : Except Reason α} : reasonOf r = none ↔ ∃ a, r = .ok a := by
  cases r <;> simp [reasonOf]

theorem isValid_iff_of_read {v : Validator} {homes : Homes} {field : Field} {value : Raw}
    {read : Raw → Except Reason α} {get : Settings → α} (onto : ∀ a, ∃ settings, get settings = a)
    (means : ∀ settings, Means v homes value settings field ↔ read value = .ok (get settings)) :
    IsValid v homes field value ↔ reasonOf (read value) = none := by
  rw [reasonOf_eq_none_iff]
  constructor
  · rintro ⟨settings, h⟩
    exact ⟨get settings, (means settings).1 h⟩
  · rintro ⟨a, h⟩
    obtain ⟨settings, rfl⟩ := onto a
    exact ⟨settings, (means settings).2 h⟩

theorem isValid_iff {v : Validator} {homes : Homes} {field : Field} {value : Raw} :
    IsValid v homes field value ↔ reason? v homes field value = none := by
  let any : Settings := default homes
  cases field with
  | prompt =>
    exact isValid_iff_of_read (fun p => ⟨{ any with prompt := p }, rfl⟩) fun _ => means_prompt_iff
  | historyFile =>
    exact isValid_iff_of_read (fun p => ⟨{ any with historyFile := p }, rfl⟩)
      fun _ => means_historyFile_iff
  | logLevel =>
    exact isValid_iff_of_read (fun l => ⟨{ any with logLevel := l }, rfl⟩)
      fun _ => means_logLevel_iff
  | stopOnError =>
    exact isValid_iff_of_read (fun b => ⟨{ any with stopOnError := b }, rfl⟩) fun _ => Iff.rfl
  | showTree =>
    exact isValid_iff_of_read (fun b => ⟨{ any with showTree := b }, rfl⟩) fun _ => Iff.rfl

section Fields

variable {v : Validator} {homes : Homes} {start settings : Settings} {supplied : Supplied}

theorem fieldValue_eq_ok_iff {field : Field} {read : Raw → Except Reason α} {otherwise a : α} :
    fieldValue supplied field read otherwise = .ok a ↔
      match supplied field with
      | none => a = otherwise
      | some value => read value = .ok a := by
  rw [fieldValue]
  cases supplied field with
  | none => simp [eq_comm]
  | some value => exact mapError_eq_ok_iff

theorem problemOf_eq_none_iff {r : Except Problem α} (otherwise : α) :
    problemOf r = none ↔ r = .ok (valueOf otherwise r) := by
  cases r <;> simp [problemOf, valueOf]

def problem? (v : Validator) (homes : Homes) (supplied : Supplied) (field : Field) :
    Option Problem :=
  (supplied field).bind fun value => (reason? v homes field value).map (⟨field, value, ·⟩)

theorem problem?_eq_some_iff {field : Field} {p : Problem} :
    problem? v homes supplied field = some p ↔
      p.field = field ∧ supplied field = some p.value ∧
        reason? v homes field p.value = some p.reason := by
  rw [problem?, Option.bind_eq_some_iff]
  constructor
  · rintro ⟨value, some, h⟩
    obtain ⟨reason, refused, rfl⟩ := Option.map_eq_some_iff.1 h
    exact ⟨rfl, some, refused⟩
  · rintro ⟨rfl, some, refused⟩
    exact ⟨p.value, some, by rw [refused]; rfl⟩

theorem isSome_problem?_iff {field : Field} :
    (problem? v homes supplied field).isSome ↔
      ∃ value, supplied field = some value ∧ ¬IsValid v homes field value := by
  simp only [Option.isSome_iff_exists, problem?_eq_some_iff, isValid_iff]
  constructor
  · rintro ⟨p, -, some, refused⟩
    exact ⟨p.value, some, by simp [refused]⟩
  · rintro ⟨value, some, refused⟩
    obtain ⟨reason, refused⟩ := Option.ne_none_iff_exists'.1 refused
    exact ⟨⟨field, value, reason⟩, rfl, some, refused⟩

theorem problemOf_fieldValue (supplied : Supplied) (field : Field)
    (read : Raw → Except Reason α) (otherwise : α) :
    problemOf (fieldValue supplied field read otherwise) =
      (supplied field).bind fun value => (reasonOf (read value)).map (⟨field, value, ·⟩) := by
  rw [fieldValue]
  cases supplied field with
  | none => rfl
  | some value =>
    change problemOf ((read value).mapError fun reason => ⟨field, value, reason⟩) =
      (reasonOf (read value)).map (⟨field, value, ·⟩)
    cases read value <;> rfl

theorem holds_iff_fieldValue {field : Field} {read : Raw → Except Reason α} {otherwise a : α}
    (same : Same settings start field ↔ a = otherwise)
    (means : ∀ value, Means v homes value settings field ↔ read value = .ok a) :
    Holds v homes start supplied settings field ↔
      fieldValue supplied field read otherwise = .ok a := by
  rw [Holds, fieldValue_eq_ok_iff]
  cases supplied field with
  | none => exact same
  | some value => exact means value

/-- Settings come out exactly if each field holds what it should. -/
theorem ofSupplied_eq_ok_iff :
    ofSupplied v homes start supplied = .ok settings ↔
      ∀ field, Holds v homes start supplied settings field := by
  have prompt : Holds v homes start supplied settings .prompt ↔
      fieldValue supplied .prompt (v.readBy promptRule) start.prompt = .ok settings.prompt :=
    holds_iff_fieldValue Iff.rfl fun _ => means_prompt_iff
  have historyFile : Holds v homes start supplied settings .historyFile ↔
      fieldValue supplied .historyFile (v.readBy (historyFileRule homes)) start.historyFile =
        .ok settings.historyFile :=
    holds_iff_fieldValue Iff.rfl fun _ => means_historyFile_iff
  have logLevel : Holds v homes start supplied settings .logLevel ↔
      fieldValue supplied .logLevel (v.readBy levelRule) start.logLevel = .ok settings.logLevel :=
    holds_iff_fieldValue Iff.rfl fun _ => means_logLevel_iff
  have stopOnError : Holds v homes start supplied settings .stopOnError ↔
      fieldValue supplied .stopOnError v.readFlag start.stopOnError = .ok settings.stopOnError :=
    holds_iff_fieldValue Iff.rfl fun _ => Iff.rfl
  have showTree : Holds v homes start supplied settings .showTree ↔
      fieldValue supplied .showTree v.readFlag start.showTree = .ok settings.showTree :=
    holds_iff_fieldValue Iff.rfl fun _ => Iff.rfl
  constructor
  · intro h
    rw [ofSupplied] at h
    split at h
    · next nothing =>
      cases h
      simp only [v.collect_eq, List.filterMap_eq_nil_iff, List.forall_mem_cons, id_eq] at nothing
      obtain ⟨hp, hf, hl, hs, ht, -⟩ := nothing
      intro field
      cases field
      · exact prompt.2 ((problemOf_eq_none_iff _).1 hp)
      · exact historyFile.2 ((problemOf_eq_none_iff _).1 hf)
      · exact logLevel.2 ((problemOf_eq_none_iff _).1 hl)
      · exact stopOnError.2 ((problemOf_eq_none_iff _).1 hs)
      · exact showTree.2 ((problemOf_eq_none_iff _).1 ht)
    · cases h
  · intro h
    rw [ofSupplied, prompt.1 (h .prompt), historyFile.1 (h .historyFile),
      logLevel.1 (h .logLevel), stopOnError.1 (h .stopOnError), showTree.1 (h .showTree),
      v.collect_eq]
    rfl

theorem eq_filterMap_of_ofSupplied {problems : List Problem}
    (h : ofSupplied v homes start supplied = .error problems) :
    problems = Field.all.filterMap (problem? v homes supplied) := by
  rw [ofSupplied, v.collect_eq] at h
  split at h
  · cases h
  · cases h
    simp [problemOf_fieldValue, Field.all, List.filterMap_eq_flatMap_toList, problem?, reason?]

theorem map_field_of_ofSupplied {problems : List Problem}
    (h : ofSupplied v homes start supplied = .error problems) :
    problems.map Problem.field =
      Field.all.filter fun field => (problem? v homes supplied field).isSome := by
  have own (field : Field) : (problem? v homes supplied field).map Problem.field =
      Option.guard (fun field => (problem? v homes supplied field).isSome) field := by
    cases wrong : problem? v homes supplied field with
    | none => simp [Option.guard, wrong]
    | some p => simp [Option.guard, wrong, (problem?_eq_some_iff.1 wrong).1]
  rw [eq_filterMap_of_ofSupplied h, List.map_filterMap, ← List.filterMap_eq_filter]
  exact congrArg (List.filterMap · Field.all) (funext own)

/-- A refusal names the fields that are supplied with an invalid value, and no others, in the order
of the fields. -/
theorem fields_of_ofSupplied {problems : List Problem}
    (h : ofSupplied v homes start supplied = .error problems) :
    (problems.map Problem.field).Sublist Field.all ∧
      (∀ field, field ∈ problems.map Problem.field ↔
        ∃ value, supplied field = some value ∧ ¬IsValid v homes field value) ∧
      ∀ p ∈ problems, supplied p.field = some p.value := by
  refine ⟨?_, fun field => ?_, fun p mem => ?_⟩
  · rw [map_field_of_ofSupplied h]
    exact List.filter_sublist
  · rw [map_field_of_ofSupplied h, List.mem_filter, and_iff_right field.mem_all,
      isSome_problem?_iff]
  · rw [eq_filterMap_of_ofSupplied h] at mem
    obtain ⟨field, -, wrong⟩ := List.mem_filterMap.1 mem
    obtain ⟨rfl, given, -⟩ := problem?_eq_some_iff.1 wrong
    exact given

theorem exists_problems_iff :
    (∃ problems, ofSupplied v homes start supplied = .error problems) ↔
      ∃ field value, supplied field = some value ∧ ¬IsValid v homes field value := by
  constructor
  · rintro ⟨problems, h⟩
    obtain ⟨p, rest, rfl⟩ := List.exists_cons_of_ne_nil (ne_nil_of_ofSupplied_eq_error h)
    exact ⟨p.field, ((fields_of_ofSupplied h).2.1 p.field).1 List.mem_cons_self⟩
  · rintro ⟨field, value, given, invalid⟩
    cases h : ofSupplied v homes start supplied with
    | error problems => exact ⟨problems, rfl⟩
    | ok settings =>
      have holds := ofSupplied_eq_ok_iff.1 h field
      rw [Holds, given] at holds
      exact absurd ⟨settings, holds⟩ invalid

end Fields

end LineCalc.Settings
