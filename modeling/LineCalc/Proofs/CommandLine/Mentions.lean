import LineCalc.CommandLine

/-! A command line that mentions fields by their full names. Each mention is read by itself,
whatever stands around it, and a later mention of a field takes the place of an earlier one. -/
namespace LineCalc.CommandLine

open Settings (Field Raw Supplied)

/-- The full name by which a command line mentions a field. -/
def option : Field → String
  | .prompt => "--prompt"
  | .historyFile => "--history-file"
  | .logLevel => "--log-level"
  | .stopOnError => "--stop-on-error"
  | .showTree => "--show-tree"

/-- One mention of a field. A flag has no value, and the other fields have theirs in one of two
ways, each of which keeps some values for other uses. -/
inductive Mention where
  | apart (field : Field) (takes : field ∈ [.prompt, .historyFile, .logLevel]) (value : String)
      (noDash : value.toList.head? ≠ some '-')
  | attached (field : Field) (takes : field ∈ [.prompt, .historyFile, .logLevel]) (value : String)
      (noSeparator : value ≠ "--")
  | flag (field : Field) (bare : field ∈ [.stopOnError, .showTree])

namespace Mention

def field : Mention → Field
  | apart field .. | attached field .. | flag field _ => field

def value : Mention → Raw
  | apart _ _ value _ | attached _ _ value _ => .text value
  | flag .. => .flag true

def arguments : Mention → List String
  | apart field _ value _ => [option field, value]
  | attached field _ value _ => [option field ++ "=" ++ value]
  | flag field _ => [option field]

def pieces : Mention → List Piece
  | apart field _ value _ => [.long (.setting field) none, .plain value]
  | attached field _ value _ => [.long (.setting field) (some value)]
  | flag field _ => [.long (.setting field) none]

def last (mentions : List Mention) : Supplied := fun field =>
  (mentions.reverse.find? fun m => decide (m.field = field)).map value

theorem not_bare_of_takes {field : Field} (takes : field ∈ [.prompt, .historyFile, .logLevel]) :
    field ∉ [.stopOnError, .showTree] := by
  revert takes
  cases field <;> decide

theorem value_of_bare (m : Mention) (bare : m.field ∈ [.stopOnError, .showTree]) :
    m.value = .flag true := by
  cases m with
  | flag => rfl
  | apart field takes | attached field takes => exact absurd bare (not_bare_of_takes takes)

theorem last_of_bare {mentions : List Mention} {field : Field}
    (bare : field ∈ [.stopOnError, .showTree]) (mentioned : last mentions field ≠ none) :
    last mentions field = some (.flag true) := by
  obtain ⟨value, said⟩ := Option.ne_none_iff_exists'.1 mentioned
  obtain ⟨m, found, rfl⟩ := Option.map_eq_some_iff.1 said
  obtain rfl : m.field = field := by simpa using List.find?_some found
  rw [said, m.value_of_bare bare]

end Mention

theorem longName_setting (field : Field) : (Switch.setting field).longName = option field := by
  cases field <;> rfl

theorem takesValue_of_mem {field : Field} (takes : field ∈ [.prompt, .historyFile, .logLevel]) :
    (Switch.setting field).takesValue = true := by
  revert takes
  cases field <;> decide

theorem takesValue_of_bare {field : Field} (bare : field ∈ [.stopOnError, .showTree]) :
    (Switch.setting field).takesValue = false := by
  revert bare
  cases field <;> decide

section Classify

variable (s : Switch)

theorem longName_ne_separator : s.longName ≠ "--" := by
  cases s with
  | help => decide
  | setting field => cases field <;> decide

theorem toList_longName : ∃ letters, s.longName.toList = '-' :: '-' :: letters := by
  cases s with
  | help => exact ⟨_, rfl⟩
  | setting field => cases field <;> exact ⟨_, rfl⟩

theorem equals_not_mem_longName : '=' ∉ s.longName.toList := by
  cases s with
  | help => decide
  | setting field => cases field <;> decide

theorem equals_not_mem_shortName {short : String} (h : s.shortName = some short) :
    '=' ∉ short.toList := by
  cases s with
  | help =>
    cases h
    decide
  | setting field => cases h

theorem classify_longName : classify s.longName = .ok (.long s none) := by
  cases s with
  | help => rfl
  | setting field => cases field <;> rfl

theorem classify_plain {value : String} (h : value.toList.head? ≠ some '-') :
    classify value = .ok (.plain value) := by
  unfold classify
  split
  · rfl
  · rfl
  · next dash => exact absurd (by rw [dash]; rfl) h
  · rfl

section Attached

variable (value : String)

theorem toList_attached :
    (s.longName ++ "=" ++ value).toList = s.longName.toList ++ '=' :: value.toList := by
  simp

theorem cutAtEquals_attached :
    cutAtEquals (s.longName ++ "=" ++ value).toList = (s.longName, some value) := by
  have name : ∀ c ∈ s.longName.toList, decide (c ≠ '=') = true := by
    intro c mem
    have ne : c ≠ '=' := fun same => equals_not_mem_longName s (same ▸ mem)
    simp [ne]
  rw [toList_attached, cutAtEquals, List.takeWhile_append_of_pos name,
    List.dropWhile_append_of_pos name]
  simp

theorem ofLongName_attached : Switch.ofLongName (s.longName ++ "=" ++ value) = none := by
  refine List.find?_eq_none.2 fun other _ same => ?_
  have name : other.longName = s.longName ++ "=" ++ value := by simpa using same
  have mem : '=' ∈ other.longName.toList := by simp [name]
  exact equals_not_mem_longName other mem

theorem ofShortName_attached : Switch.ofShortName (s.longName ++ "=" ++ value) = none := by
  refine List.find?_eq_none.2 fun other _ same => ?_
  have name : other.shortName = some (s.longName ++ "=" ++ value) := by simpa using same
  exact equals_not_mem_shortName other name (by simp)

theorem classify_attached :
    classify (s.longName ++ "=" ++ value) = .ok (.long s (some value)) := by
  obtain ⟨letters, dashes⟩ := toList_longName s
  have chars : (s.longName ++ "=" ++ value).toList =
      '-' :: '-' :: (letters ++ '=' :: value.toList) := by
    rw [toList_attached, dashes]
    rfl
  unfold classify
  split
  · next none => cases chars.symm.trans none
  · next single => cases chars.symm.trans single
  · simp only [ofLongName_attached, ofShortName_attached, cutAtEquals_attached,
      Switch.ofLongName_longName]
  · next noDash => exact absurd chars (noDash _)

theorem attached_ne_separator : s.longName ++ "=" ++ value ≠ "--" := by
  intro same
  have mem : '=' ∈ (s.longName ++ "=" ++ value).toList := by simp
  rw [same] at mem
  revert mem
  decide

end Attached

end Classify

theorem classifyAll_cons {argument : String} {rest : List String} {piece : Piece}
    {pieces : List Piece} (noSeparator : argument ≠ "--") (first : classify argument = .ok piece)
    (others : classifyAll rest = .ok pieces) :
    classifyAll (argument :: rest) = .ok (piece :: pieces) := by
  rw [classifyAll, if_neg noSeparator, first, others]
  rfl

theorem readPieces_of_readBare {s : Switch} {supplied supplied' : Supplied}
    {rest remaining : List Piece} (h : readBare s supplied rest = .ok (supplied', remaining))
    (extra : List String) :
    readPieces supplied extra (.long s none :: rest) = readPieces supplied' extra remaining := by
  rw [readPieces]
  split
  · next stops => cases h.symm.trans stops
  · next goesOn =>
    cases h.symm.trans goesOn
    rfl

namespace Mention

theorem classifyAll_append (m : Mention) {rest : List String} {pieces : List Piece}
    (h : classifyAll rest = .ok pieces) :
    classifyAll (m.arguments ++ rest) = .ok (m.pieces ++ pieces) := by
  cases m with
  | apart field takes value noDash =>
    have noSeparator : value ≠ "--" := by
      rintro rfl
      exact noDash rfl
    rw [arguments, ← longName_setting]
    exact classifyAll_cons (longName_ne_separator _) (classify_longName _)
      (classifyAll_cons noSeparator (classify_plain noDash) h)
  | attached field takes value noSeparator =>
    rw [arguments, ← longName_setting]
    exact classifyAll_cons (attached_ne_separator _ value) (classify_attached _ value) h
  | flag field bare =>
    rw [arguments, ← longName_setting]
    exact classifyAll_cons (longName_ne_separator _) (classify_longName _) h

theorem classifyAll_arguments (mentions : List Mention) :
    classifyAll (mentions.flatMap arguments) = .ok (mentions.flatMap Mention.pieces) := by
  induction mentions with
  | nil => rfl
  | cons m rest ih =>
    rw [List.flatMap_cons, List.flatMap_cons]
    exact m.classifyAll_append ih

theorem readPieces_append (m : Mention) (supplied : Supplied) (extra : List String)
    (rest : List Piece) :
    readPieces supplied extra (m.pieces ++ rest) =
      readPieces (supply supplied m.field m.value) extra rest := by
  cases m with
  | apart field takes value noDash =>
    have bare : readBare (.setting field) supplied (.plain value :: rest) =
        .ok (supply supplied field (.text value), rest) := if_pos (takesValue_of_mem takes)
    exact readPieces_of_readBare bare extra
  | attached field takes value noSeparator =>
    rw [pieces, List.cons_append, List.nil_append, readPieces]
    simp only [takesValue_of_mem takes, if_true, attachedValue, if_neg noSeparator]
    rfl
  | flag field bare =>
    have alone : readBare (.setting field) supplied rest =
        .ok (supply supplied field (.flag true), rest) := if_neg (by simp [takesValue_of_bare bare])
    exact readPieces_of_readBare alone extra

theorem readPieces_mentions (mentions : List Mention) (supplied : Supplied) :
    readPieces supplied [] (mentions.flatMap pieces) =
      .ok (mentions.foldl (fun supplied m => supply supplied m.field m.value) supplied) := by
  induction mentions generalizing supplied with
  | nil =>
    rw [List.flatMap_nil, readPieces]
    rfl
  | cons m rest ih => rw [List.flatMap_cons, readPieces_append, ih, List.foldl_cons]

/-- What was supplied before stays where no mention follows. -/
theorem foldl_supply (mentions : List Mention) (supplied : Supplied) :
    mentions.foldl (fun supplied m => supply supplied m.field m.value) supplied =
      (last mentions).over supplied := by
  induction mentions generalizing supplied with
  | nil => rfl
  | cons m rest ih =>
    rw [List.foldl_cons, ih]
    funext field
    simp only [Supplied.over, last, List.reverse_cons, List.find?_append, Option.map_or,
      Option.or_assoc]
    congr 1
    by_cases same : m.field = field
    · simp [supply, same]
    · simp [supply, same, Ne.symm same]

/-- A command line supplies for each field what its last mention says. -/
theorem read_arguments (mentions : List Mention) :
    read (mentions.flatMap arguments) = .ok (last mentions) := by
  rw [read, classifyAll_arguments]
  simp only [readPieces_mentions, foldl_supply]
  apply congrArg Except.ok
  funext field
  exact Option.or_none

end Mention

end LineCalc.CommandLine
