import Reckoner.Command.Run
import Reckoner.Proofs.Command.Reading
import Reckoner.Toolbox.Calls

/-! Command lines that give a text to a command.  The flags come first, with their values attached,
and the text stands after the end mark: whatever it is, the command gets it as it is. -/

namespace Reckoner.Command

open Grammar (attachedValue)

/-- The word for the folder of the settings. -/
def rootWord (root : Text) : Text := "--root=" ++ root

/-- The word for the file of the settings. -/
def fileWord (file : Text) : Text := "--config=" ++ file

/-- The word for a full log. -/
def verboseWord : Text := "--verbose"

/-- The word that keeps a result out of the journal. -/
def unrecordedWord : Text := "--no-history"

/-- The word for JSON. -/
def jsonWord : Text := "--json"

/-- The words for arguments that every command has which uses settings. -/
def CommonArguments.words (common : CommonArguments) : List Text :=
  (common.root.map rootWord).toList ++
    ((common.file.map fileWord).toList ++ if common.verbose then [verboseWord] else [])

/-- What is read of these words.  The end mark is no value. -/
def CommonArguments.given (common : CommonArguments) : CommonArguments where
  root := common.root.bind attachedValue
  file := common.file.bind attachedValue
  verbose := common.verbose

/-- The flags of an evaluation: those of every command, the unit of angles if one is given, and
whether the result is kept out of the journal. -/
structure Flags where
  common : CommonArguments
  angles : Option AngleUnit
  unrecorded : Bool

/-- The arguments of an evaluation with these flags. -/
def Flags.evalArguments (flags : Flags) (json : Bool) (expression : Text) : EvalArguments :=
  { common := flags.common, angles := flags.angles, json, unrecorded := flags.unrecorded,
    words := [expression] }

/-- The arguments of an evaluation of a spoken request with these flags, answered in JSON. -/
def Flags.askArguments (flags : Flags) (request : Text) : AskArguments :=
  { common := flags.common, angles := flags.angles, json := true, unrecorded := flags.unrecorded,
    words := [request] }

/-- The arguments of a session with these flags. -/
def Flags.sessionArguments (flags : Flags) : SessionArguments :=
  { common := flags.common, angles := flags.angles, unrecorded := flags.unrecorded }

/-- The words for the flags of an evaluation. -/
def Flags.words (flags : Flags) : List Text :=
  flags.common.words ++ ((flags.angles.map ToolCall.angleWord).toList ++
    if flags.unrecorded then [unrecordedWord] else [])

/-- The line that gives a text to a command. -/
def line (name : Text) (words : List Text) (text : Text) : List Text :=
  name :: (words ++ [endMark, text])

/-- The line that evaluates an expression. -/
def evalLine (flags : Flags) (json : Bool) (expression : Text) : List Text :=
  line "eval" (flags.words ++ if json then [jsonWord] else []) expression

/-- The line that evaluates a spoken request, with JSON for an answer. -/
def askLine (flags : Flags) (request : Text) : List Text :=
  line "ask" (flags.words ++ [jsonWord]) request

/-- The line that translates a request, with JSON for an answer. -/
def translateLine (common : CommonArguments) (request : Text) : List Text :=
  line "translate" (common.words ++ [jsonWord]) request

/-- The line that starts a session. -/
def sessionLine (flags : Flags) : List Text := "repl".toList :: flags.words

/-! ### Words before the end mark -/

/-- A word that may stand before the end mark of a command. -/
def IsFlag (word : Text) : Prop := word ≠ endMark ∧ ∃ given, mainGrammar.classify word = .ok given

theorem isFlag_rootWord (root : Text) : IsFlag (rootWord root) := ⟨nofun, _, rfl⟩

theorem isFlag_fileWord (file : Text) : IsFlag (fileWord file) := ⟨nofun, _, rfl⟩

theorem isFlag_verboseWord : IsFlag verboseWord := ⟨nofun, _, rfl⟩

theorem isFlag_angleWord (unit : AngleUnit) : IsFlag (ToolCall.angleWord unit) := by
  cases unit <;> exact ⟨nofun, _, rfl⟩

theorem isFlag_unrecordedWord : IsFlag unrecordedWord := ⟨nofun, _, rfl⟩

theorem isFlag_jsonWord : IsFlag jsonWord := ⟨nofun, _, rfl⟩

theorem isFlag_of_head? {word : Text} (h : word.head? ≠ some '-') : IsFlag word := by
  refine ⟨?_, _, Grammar.classify_of_head? h⟩
  rintro rfl
  exact h rfl

theorem isFlag_of_mem_when {given : Bool} {word other : Text} (hword : IsFlag word)
    (h : other ∈ if given then [word] else []) : IsFlag other := by
  cases given with
  | false => cases h
  | true => exact List.mem_singleton.mp h ▸ hword

theorem isFlag_of_mem_commonWords {common : CommonArguments} {word : Text}
    (hword : word ∈ common.words) : IsFlag word := by
  rcases List.mem_append.mp hword with hword | hword
  · obtain ⟨root, -, rfl⟩ := Option.map_eq_some_iff.mp (Option.mem_toList.mp hword)
    exact isFlag_rootWord root
  · rcases List.mem_append.mp hword with hword | hword
    · obtain ⟨file, -, rfl⟩ := Option.map_eq_some_iff.mp (Option.mem_toList.mp hword)
      exact isFlag_fileWord file
    · exact isFlag_of_mem_when isFlag_verboseWord hword

theorem isFlag_of_mem_flagWords {flags : Flags} {word : Text} (hword : word ∈ flags.words) :
    IsFlag word := by
  rcases List.mem_append.mp hword with hword | hword
  · exact isFlag_of_mem_commonWords hword
  · rcases List.mem_append.mp hword with hword | hword
    · obtain ⟨unit, -, rfl⟩ := Option.map_eq_some_iff.mp (Option.mem_toList.mp hword)
      exact isFlag_angleWord unit
    · exact isFlag_of_mem_when isFlag_unrecordedWord hword

/-! ### What is read -/

theorem joinedWords_singleton (text : Text) : joinedWords [text] = text := by
  rw [joinedWords, Text.joined, List.intercalate_singleton]

section Lines

variable {σ : Type} {grammar : Grammar σ} {words : List Text}

/-- A grammar whose flags set the common arguments of what is read. -/
structure SetsCommon (grammar : Grammar σ) (put : CommonArguments → σ) : Prop where
  root : ∀ common root, ∃ run, grammar.classify (rootWord root) = .ok (.options run) ∧
    run (put common) = .ok (put { common with root := attachedValue root })
  file : ∀ common file, ∃ run, grammar.classify (fileWord file) = .ok (.options run) ∧
    run (put common) = .ok (put { common with file := attachedValue file })
  verbose : ∀ common, ∃ run, grammar.classify verboseWord = .ok (.options run) ∧
    run (put common) = .ok (put { common with verbose := true })

theorem SetsCommon.read {put : CommonArguments → σ} (h : SetsCommon grammar put)
    (common : CommonArguments) :
    grammar.read (put {}) (common.words ++ words) = grammar.read (put common.given) words := by
  rw [CommonArguments.words, List.append_assoc, List.append_assoc]
  refine (Grammar.read_optional (f := fun root => put { root := root.bind attachedValue })
    (fun root => (isFlag_rootWord root).1) fun root => h.root _ root).trans ?_
  refine (Grammar.read_optional (f := fun file =>
      put { root := common.root.bind attachedValue, file := file.bind attachedValue })
    (fun file => (isFlag_fileWord file).1) fun file => h.file _ file).trans ?_
  exact Grammar.read_when (f := fun verbose => put { common.given with verbose })
    isFlag_verboseWord.1 (h.verbose _)

/-- A grammar whose flags set what an evaluation needs to know. -/
structure SetsFlags (grammar : Grammar σ) (put : Flags → σ) : Prop where
  common : SetsCommon grammar fun common => put ⟨common, none, false⟩
  angles : ∀ common unit, ∃ run,
    grammar.classify (ToolCall.angleWord unit) = .ok (.options run) ∧
      run (put ⟨common, none, false⟩) = .ok (put ⟨common, some unit, false⟩)
  unrecorded : ∀ common angles, ∃ run, grammar.classify unrecordedWord = .ok (.options run) ∧
    run (put ⟨common, angles, false⟩) = .ok (put ⟨common, angles, true⟩)

/-- What is read of the words for flags. -/
def Flags.given (flags : Flags) : Flags := { flags with common := flags.common.given }

theorem SetsFlags.read {put : Flags → σ} (h : SetsFlags grammar put) (flags : Flags) :
    grammar.read (put ⟨{}, none, false⟩) (flags.words ++ words) =
      grammar.read (put flags.given) words := by
  rw [Flags.words, List.append_assoc, h.common.read, List.append_assoc]
  refine (Grammar.read_optional (f := fun angles => put ⟨flags.common.given, angles, false⟩)
    (fun unit => (isFlag_angleWord unit).1) fun unit => h.angles _ unit).trans ?_
  exact Grammar.read_when (f := fun unrecorded => put ⟨flags.common.given, flags.angles, unrecorded⟩)
    isFlag_unrecordedWord.1 (h.unrecorded _ _)

end Lines

theorem setsFlags_eval : SetsFlags evalGrammar fun flags =>
    { common := flags.common, angles := flags.angles, unrecorded := flags.unrecorded } where
  common := ⟨fun _ _ => ⟨_, rfl, rfl⟩, fun _ _ => ⟨_, rfl, rfl⟩, fun _ => ⟨_, rfl, rfl⟩⟩
  angles _ unit := by cases unit <;> exact ⟨_, rfl, rfl⟩
  unrecorded _ _ := ⟨_, rfl, rfl⟩

theorem setsFlags_ask : SetsFlags askGrammar fun flags =>
    { common := flags.common, angles := flags.angles, unrecorded := flags.unrecorded } where
  common := ⟨fun _ _ => ⟨_, rfl, rfl⟩, fun _ _ => ⟨_, rfl, rfl⟩, fun _ => ⟨_, rfl, rfl⟩⟩
  angles _ unit := by cases unit <;> exact ⟨_, rfl, rfl⟩
  unrecorded _ _ := ⟨_, rfl, rfl⟩

theorem setsFlags_session : SetsFlags sessionGrammar Flags.sessionArguments where
  common := ⟨fun _ _ => ⟨_, rfl, rfl⟩, fun _ _ => ⟨_, rfl, rfl⟩, fun _ => ⟨_, rfl, rfl⟩⟩
  angles _ unit := by cases unit <;> exact ⟨_, rfl, rfl⟩
  unrecorded _ _ := ⟨_, rfl, rfl⟩

theorem setsCommon_translate : SetsCommon translateGrammar fun common => { common } :=
  ⟨fun _ _ => ⟨_, rfl, rfl⟩, fun _ _ => ⟨_, rfl, rfl⟩, fun _ => ⟨_, rfl, rfl⟩⟩

/-! ### Whole lines -/

/-- The command with this name gets the flags and the text. -/
theorem read_line {name : Text} {words : List Text} {text : Text} {arguments : Arguments}
    {run : Text → List Text → Setter (Option Arguments)} (hname : name.head? ≠ some '-')
    (hwords : ∀ word ∈ words, IsFlag word) (hoperands : mainGrammar.operands = .command run)
    (hrun : run name (words ++ [endMark, text]) none = .ok (some arguments)) :
    Arguments.read (line name words text) = .ok arguments := by
  have hbefore : (Grammar.splitAtMark (words ++ [endMark, text])).1 = words := by
    rw [Grammar.splitAtMark_append_mark fun hmark => (hwords endMark hmark).1 rfl]
  rw [Arguments.read, line, Grammar.read_command hoperands hname (fun word hword =>
    (hwords word (hbefore ▸ hword)).2) hrun]
  rfl

theorem read_evalLine (flags : Flags) (json : Bool) (expression : Text) :
    Arguments.read (evalLine flags json expression) =
      .ok (.eval (flags.given.evalArguments json expression)) := by
  refine read_line (by decide) (fun word hword => ?_) rfl ?_
  · rcases List.mem_append.mp hword with hword | hword
    · exact isFlag_of_mem_flagWords hword
    · exact isFlag_of_mem_when isFlag_jsonWord hword
  · change Except.map _ (evalGrammar.read {} _) = _
    have hjson : evalGrammar.read _ ((if json then [jsonWord] else []) ++ [endMark, expression]) = _ :=
      Grammar.read_when (f := fun json => { flags.given.evalArguments json expression with words := [] })
        isFlag_jsonWord.1 ⟨_, rfl, rfl⟩
    rw [List.append_assoc, setsFlags_eval.read flags]
    change Except.map _ (evalGrammar.read
      { flags.given.evalArguments false expression with words := [] } _) = _
    rw [hjson, Grammar.read_rest rfl]
    rfl

theorem read_askLine (flags : Flags) (request : Text) :
    Arguments.read (askLine flags request) = .ok (.ask (flags.given.askArguments request)) := by
  refine read_line (by decide) (fun word hword => ?_) rfl ?_
  · rcases List.mem_append.mp hword with hword | hword
    · exact isFlag_of_mem_flagWords hword
    · exact List.mem_singleton.mp hword ▸ isFlag_jsonWord
  · change Except.map _ (askGrammar.read {} _) = _
    rw [List.append_assoc, setsFlags_ask.read flags]
    change Except.map _ (askGrammar.read _ (jsonWord :: [endMark, request])) = _
    rw [Grammar.read_set isFlag_jsonWord.1 rfl, Grammar.read_rest rfl]
    rfl

theorem read_translateLine (common : CommonArguments) (request : Text) :
    Arguments.read (translateLine common request) = .ok (.translate
      { common := common.given, json := true, words := [request] }) := by
  refine read_line (by decide) (fun word hword => ?_) rfl ?_
  · rcases List.mem_append.mp hword with hword | hword
    · exact isFlag_of_mem_commonWords hword
    · exact List.mem_singleton.mp hword ▸ isFlag_jsonWord
  · change Except.map _ (translateGrammar.read {} _) = _
    rw [List.append_assoc, setsCommon_translate.read common]
    change Except.map _ (translateGrammar.read _ (jsonWord :: [endMark, request])) = _
    rw [Grammar.read_set isFlag_jsonWord.1 rfl, Grammar.read_rest rfl]
    rfl

theorem read_sessionLine (flags : Flags) :
    Arguments.read (sessionLine flags) = .ok (.session flags.given.sessionArguments) := by
  have hwords (word : Text) (hword : word ∈ (Grammar.splitAtMark flags.words).1) :
      ∃ given, mainGrammar.classify word = .ok given := by
    have hmem : word ∈ flags.words := by
      rw [← Grammar.splitAtMark_append flags.words]
      exact List.mem_append_left _ hword
    exact (isFlag_of_mem_flagWords hmem).2
  have hread : sessionGrammar.read {} flags.words =
      sessionGrammar.read flags.given.sessionArguments [] := by
    rw [← List.append_nil flags.words]
    exact setsFlags_session.read flags
  have hrun : Except.map (fun arguments => some (Arguments.session arguments))
      (sessionGrammar.read {} flags.words) = .ok (some (.session flags.given.sessionArguments)) := by
    rw [hread]
    rfl
  rw [Arguments.read, sessionLine, Grammar.read_command rfl (by decide) hwords hrun]
  rfl

end Reckoner.Command
