import Reckoner.Proofs.Checked.Evaluation
import Reckoner.Proofs.Command.Answers
import Reckoner.Proofs.Json.RoundTrip
import Reckoner.Proofs.Toolbox.Words

/-! What tools reply.  A tool gives its text to a command as it is, whatever it looks like, and replies
with the object that the command prints. -/

namespace Reckoner

open Json (Value Fits)

/-! ### Output that is captured -/

theorem write_object (members : List (LooseText × Value)) : ∃ inner,
    (Value.object members).write .compact = '{' :: (inner ++ ['}']) := by
  rw [Value.write, Value.writeAt, Json.Layout.enclose]
  split
  · exact ⟨[], rfl⟩
  · exact ⟨_, rfl⟩

/-- White space after the text of an object is taken away. -/
theorem stripped_object (members : List (LooseText × Value)) :
    LooseText.stripped (Text.loose ((Value.object members).write .compact) ++ "\n") =
      Text.loose ((Value.object members).write .compact) := by
  obtain ⟨inner, hinner⟩ := write_object members
  have hopening : isBlank '{' = false := by decide
  have hclosing : isBlank '}' = false := by decide
  have hend : isBlank '\n' = true := by decide
  rw [hinner]
  simp [LooseText.stripped, Text.loose, Symbol.isBlank, hopening, hclosing, hend]

/-- The reply to a call is this object, on one line of JSON that reads back as the object. -/
structure ToolCall.Replies (call : ToolCall) (world : World) (members : List (LooseText × Value)) :
    Prop where
  answer : (call.answer.run world).1 = .ok (Text.loose ((Value.object members).write .compact))
  reads : Value.read ((Value.object members).write .compact) = .ok (.object members)

namespace ToolCall

open Command

variable {call : ToolCall} {world : World} {members : List (LooseText × Value)}

/-- What a command answers is the reply, if it is JSON that can be read. -/
theorem replies_of_answers {code : Nat} {after : World}
    (h : Answers (execute call.words) world code members after)
    (hfits : Fits Json.maxDepth (.object members)) : call.Replies world members := by
  have hread : Value.read ((Value.object members).write .compact) = .ok (.object members) := by
    have hread := Json.read_write hfits .compact (List.forall_mem_nil _)
    rwa [List.append_nil] at hread
  refine ⟨?_, hread⟩
  have hcapture : (((execute call.words).capture []).run world).1 =
      .ok (code, Text.loose ((Value.object members).write .compact) ++ "\n") := by
    rw [Program.run_capture_fst, h.run, h.output]
    rfl
  have hsome : (Text.loose ((Value.object members).write .compact)).isEmpty = false := by
    obtain ⟨inner, hinner⟩ := write_object members
    rw [hinner]
    rfl
  rw [ToolCall.answer, commandJson, Program.run_bind_of_ok (Prod.ext hcapture rfl)]
  dsimp only
  rw [stripped_object, hsome, if_neg Bool.false_ne_true, LooseText.shown_loose, hread]
  rfl

/-! ### Lines that are read -/

section Lines

variable {root : Option Text}

/-- The folder that a call names; an empty text names none. -/
def namedRoot : Option Text → Option Text
  | none | some [] => none
  | some root => some root

theorem settings_namedRoot (root : Option Text) :
    ({ root := namedRoot root } : CommonArguments).settings =
      ({ root := root } : CommonArguments).settings := by
  match root with
  | none => rfl
  | some [] => rfl
  | some (_ :: _) => rfl

theorem read_rootWords {σ : Type} {grammar : Grammar σ} {words : List Text} (f : Option Text → σ)
    (hroot : ∀ text, root = some text → text.head? ≠ some '-')
    (hset : ∃ set, grammar.classify "--root" = .ok (.value set) ∧
      ∀ text, set (some text) (f none) = .ok (f (some text))) :
    grammar.read (f none) (rootWords root ++ words) = grammar.read (f (namedRoot root)) words := by
  match root with
  | none => rfl
  | some [] => rfl
  | some (c :: text) =>
    obtain ⟨set, hclass, hset⟩ := hset
    exact Grammar.read_value nofun hclass (hroot _ rfl) (hset _)

theorem isFlag_of_mem_rootWords (hroot : ∀ text, root = some text → text.head? ≠ some '-')
    {word : Text} (h : word ∈ rootWords root) : IsFlag word := by
  match root with
  | none => cases h
  | some [] => cases h
  | some (c :: text) =>
    rcases List.mem_cons.mp h with rfl | h
    · exact ⟨nofun, _, rfl⟩
    · exact List.mem_singleton.mp h ▸ isFlag_of_head? (hroot _ rfl)

/-- The word for the postfix form. -/
def postfixWord : Text := "--rpn"

theorem isFlag_postfixWord : IsFlag postfixWord := ⟨nofun, _, rfl⟩

/-- The arguments of the evaluation that a tool runs. -/
def evaluateArguments (text : Text) (angles : AngleUnit) (root : Option Text) : EvalArguments :=
  { common := { root }, angles := some angles, json := true, showsPostfix := true
    unrecorded := true, words := [text] }

/-- The arguments of the spoken request that a tool makes. -/
def askArguments (text : Text) (angles : AngleUnit) (root : Option Text) : AskArguments :=
  { common := { root }, angles := some angles, json := true, unrecorded := true, words := [text] }

/-- The arguments of the translation that a tool runs. -/
def translateArguments (text : Text) (root : Option Text) : TranslateArguments :=
  { common := { root }, json := true, words := [text] }

/-- A word before the text of a call. -/
theorem isFlag_of_mem_callWords (hroot : ∀ text, root = some text → text.head? ≠ some '-')
    {first last : List Text} (hfirst : ∀ word ∈ first, IsFlag word)
    (hlast : ∀ word ∈ last, IsFlag word) :
    ∀ word ∈ first ++ (rootWords root ++ last), IsFlag word := by
  intro word hword
  rcases List.mem_append.mp hword with hword | hword
  · exact hfirst word hword
  · rcases List.mem_append.mp hword with hword | hword
    · exact isFlag_of_mem_rootWords hroot hword
    · exact hlast word hword

theorem read_evaluate (hroot : ∀ text, root = some text → text.head? ≠ some '-') (text : Text)
    (angles : AngleUnit) : Arguments.read (ToolCall.evaluate text angles root).words =
      .ok (.eval (evaluateArguments text angles (namedRoot root))) := by
  have hwords : (ToolCall.evaluate text angles root).words = line "eval"
      ([jsonWord, unrecordedWord, postfixWord] ++ (rootWords root ++ [angleWord angles])) text := by
    rw [line, List.append_assoc, List.append_assoc]
    rfl
  have hfolder : evalGrammar.read _ (rootWords root ++ ([angleWord angles] ++ [endMark, text])) = _ :=
    read_rootWords (fun root => { evaluateArguments text angles root with angles := none, words := [] })
      hroot ⟨_, rfl, fun _ => rfl⟩
  have hangles : evalGrammar.read { evaluateArguments text angles (namedRoot root) with
        angles := none, words := [] } (angleWord angles :: [endMark, text]) =
      evalGrammar.read { evaluateArguments text angles (namedRoot root) with words := [] }
        [endMark, text] := by
    cases angles <;> exact Grammar.read_flag (isFlag_angleWord _).1 rfl rfl
  rw [hwords]
  refine read_line (by decide) (isFlag_of_mem_callWords hroot ?_ ?_) rfl ?_
  · exact List.forall_mem_cons.mpr ⟨isFlag_jsonWord, List.forall_mem_cons.mpr
      ⟨isFlag_unrecordedWord, List.forall_mem_singleton.mpr isFlag_postfixWord⟩⟩
  · exact List.forall_mem_singleton.mpr (isFlag_angleWord angles)
  · change Except.map _ (evalGrammar.read {} _) = _
    rw [List.append_assoc, List.append_assoc, List.cons_append, List.cons_append, List.cons_append,
      List.nil_append, Grammar.read_set isFlag_jsonWord.1 rfl,
      Grammar.read_set isFlag_unrecordedWord.1 rfl, Grammar.read_set isFlag_postfixWord.1 rfl]
    exact congrArg _ (hfolder.trans (hangles.trans (Grammar.read_rest rfl text [])))

theorem read_ask (hroot : ∀ text, root = some text → text.head? ≠ some '-') (text : Text)
    (angles : AngleUnit) : Arguments.read (ToolCall.ask text angles root).words =
      .ok (.ask (askArguments text angles (namedRoot root))) := by
  have hwords : (ToolCall.ask text angles root).words = line "ask"
      ([jsonWord, unrecordedWord] ++ (rootWords root ++ [angleWord angles])) text := by
    rw [line, List.append_assoc, List.append_assoc]
    rfl
  have hfolder : askGrammar.read _ (rootWords root ++ ([angleWord angles] ++ [endMark, text])) = _ :=
    read_rootWords (fun root => { askArguments text angles root with angles := none, words := [] })
      hroot ⟨_, rfl, fun _ => rfl⟩
  have hangles : askGrammar.read { askArguments text angles (namedRoot root) with
        angles := none, words := [] } (angleWord angles :: [endMark, text]) =
      askGrammar.read { askArguments text angles (namedRoot root) with words := [] }
        [endMark, text] := by
    cases angles <;> exact Grammar.read_flag (isFlag_angleWord _).1 rfl rfl
  rw [hwords]
  refine read_line (by decide) (isFlag_of_mem_callWords hroot ?_ ?_) rfl ?_
  · exact List.forall_mem_cons.mpr
      ⟨isFlag_jsonWord, List.forall_mem_singleton.mpr isFlag_unrecordedWord⟩
  · exact List.forall_mem_singleton.mpr (isFlag_angleWord angles)
  · change Except.map _ (askGrammar.read {} _) = _
    rw [List.append_assoc, List.append_assoc, List.cons_append, List.cons_append, List.nil_append,
      Grammar.read_set isFlag_jsonWord.1 rfl, Grammar.read_set isFlag_unrecordedWord.1 rfl]
    exact congrArg _ (hfolder.trans (hangles.trans (Grammar.read_rest rfl text [])))

theorem read_translate (hroot : ∀ text, root = some text → text.head? ≠ some '-') (text : Text) :
    Arguments.read (ToolCall.translate text root).words =
      .ok (.translate (translateArguments text (namedRoot root))) := by
  have hwords : (ToolCall.translate text root).words = line "translate"
      ([jsonWord] ++ (rootWords root ++ [])) text := by
    rw [line, List.append_assoc, List.append_assoc]
    rfl
  have hfolder : translateGrammar.read _ (rootWords root ++ ([] ++ [endMark, text])) = _ :=
    read_rootWords (fun root => { translateArguments text root with words := [] }) hroot
      ⟨_, rfl, fun _ => rfl⟩
  rw [hwords]
  refine read_line (by decide) (isFlag_of_mem_callWords hroot ?_ (List.forall_mem_nil _)) rfl ?_
  · exact List.forall_mem_singleton.mpr isFlag_jsonWord
  · change Except.map _ (translateGrammar.read {} _) = _
    rw [List.append_assoc, List.append_assoc, List.cons_append, List.nil_append,
      Grammar.read_set isFlag_jsonWord.1 rfl]
    exact congrArg _ (hfolder.trans (Grammar.read_rest rfl text []))

end Lines

/-! ### Replies -/

section Replies

variable {root : Option Text} {settings : Settings} {angles : AngleUnit} {text : Text}
  {value : Double} {form : List Token} {error : ExpressionError}

theorem run_settings_of_namedRoot
    (hsettings : (({ root } : CommonArguments).settings.run world).1 = .ok settings) :
    ({ root := namedRoot root } : CommonArguments).settings.run world = (.ok settings, world) := by
  rw [settings_namedRoot]
  exact Prod.ext hsettings ((onlyReads_settings _).run_snd world)

theorem replies_evaluate_ok (hroot : ∀ text, root = some text → text.head? ≠ some '-')
    (hsettings : (({ root } : CommonArguments).settings.run world).1 = .ok settings)
    (hform : explain text = .ok form) (hvalue : Reckoner.evaluate angles.isDegrees text = .ok value) :
    (evaluate text angles root).Replies world
      (evalJson text (shown value) value angles (some (tokensText form))) := by
  have hfinite := isFinite_of_evaluate hvalue
  obtain ⟨events, hgoes⟩ := goesOn_eval_ok (evaluateArguments text angles (namedRoot root))
    (run_settings_of_namedRoot hsettings) rfl (joinedWords_singleton text) hvalue rfl
  have hshown : shownForm true text = some (tokensText form) := by
    rw [shownForm, if_pos rfl, hform]
    rfl
  simp only [evaluateArguments, record_true, hshown] at hgoes
  obtain ⟨after, hanswers, -⟩ := answers_printJson (world.showsAll events)
    (evalJson text (shown value) value angles (some (tokensText form))) success
  exact replies_of_answers (((goesOn_execute (read_evaluate hroot text angles) rfl world).trans
    hgoes).answers hanswers) (legible_evalJson _ _ hfinite _ _).fits

theorem replies_evaluate_error (hroot : ∀ text, root = some text → text.head? ≠ some '-')
    (hsettings : (({ root } : CommonArguments).settings.run world).1 = .ok settings)
    (herror : Reckoner.evaluate angles.isDegrees text = .error error) :
    (evaluate text angles root).Replies world (failureJson "eval" error.failure) := by
  obtain ⟨events, hgoes⟩ := goesOn_eval_error (evaluateArguments text angles (namedRoot root))
    (run_settings_of_namedRoot hsettings) rfl (joinedWords_singleton text) herror
  obtain ⟨after, hanswers, -⟩ := answers_report (world.showsAll events) "eval" error.failure
  exact replies_of_answers (((goesOn_execute (read_evaluate hroot text angles) rfl world).trans
    hgoes).answers hanswers) (legible_failureJson _ _).fits

/-- The candidate of the phrase rules, which are asked once. -/
def ruleCandidate (text : Text) : Candidate :=
  ⟨1, spokenExpression text, expressionErrors (spokenExpression text)⟩

theorem ruleCandidate_expression (text : Text) :
    (ruleCandidate text).expression = spokenExpression text := by
  rw [ruleCandidate]

theorem run_translated_rules (text : Text) {common : CommonArguments}
    (hsettings : common.settings.run world = (.ok settings, world))
    (hrules : settings.translator.provider = .rules) : ∃ events,
    (translated common text).run world =
      (.ok (settings, ruleCandidate text), world.showsAll events) := by
  have htranslator : settings.translator.translator = pure .rules := by
    rw [TranslatorSettings.translator, hrules]
  have hcandidate : Translator.rules.translate text = pure (ruleCandidate text) := by
    change Translator.rules.attemptsFrom text 0 none 2 = _
    rw [Translator.attemptsFrom]
    change (if (expressionErrors (spokenExpression text)).isEmpty || true || _ then _ else _) = _
    rw [Bool.or_true, Bool.true_or, if_pos rfl]
    rfl
  rw [translated, Program.run_bind_of_ok hsettings, htranslator, Program.done_bind, hcandidate]
  exact ⟨_, rfl⟩

theorem replies_translate (hroot : ∀ text, root = some text → text.head? ≠ some '-')
    (hsettings : (({ root } : CommonArguments).settings.run world).1 = .ok settings)
    (hrules : settings.translator.provider = .rules) :
    (translate text root).Replies world (translateJson text (ruleCandidate text)) := by
  obtain ⟨events, htranslated⟩ := run_translated_rules text (run_settings_of_namedRoot hsettings)
    hrules
  obtain ⟨code, after, hanswers⟩ := answers_translate (translateArguments text (namedRoot root))
    (joinedWords_singleton text) htranslated rfl
  exact replies_of_answers ((goesOn_execute (read_translate hroot text) rfl world).answers hanswers)
    (legible_translateJson text one_le_two).fits

theorem replies_ask_ok (hroot : ∀ text, root = some text → text.head? ≠ some '-')
    (hsettings : (({ root } : CommonArguments).settings.run world).1 = .ok settings)
    (hrules : settings.translator.provider = .rules)
    (hvalue : Reckoner.evaluate angles.isDegrees (spokenExpression text) = .ok value) :
    (ask text angles root).Replies world
      (askJson text (shown value) value angles (ruleCandidate text)) := by
  have hfinite := isFinite_of_evaluate hvalue
  rw [← ruleCandidate_expression] at hvalue
  obtain ⟨before, htranslated⟩ := run_translated_rules text (run_settings_of_namedRoot hsettings)
    hrules
  obtain ⟨events, hgoes⟩ := goesOn_ask_ok (askArguments text angles (namedRoot root))
    (joinedWords_singleton text) htranslated rfl hvalue rfl
  simp only [askArguments, record_true] at hgoes
  obtain ⟨after, hanswers, -⟩ := answers_printJson ((world.showsAll before).showsAll events)
    (askJson text (shown value) value angles (ruleCandidate text)) success
  exact replies_of_answers (((goesOn_execute (read_ask hroot text angles) rfl world).trans
    hgoes).answers hanswers) (legible_askJson _ _ hfinite _ one_le_two).fits

theorem replies_ask_error (hroot : ∀ text, root = some text → text.head? ≠ some '-')
    (hsettings : (({ root } : CommonArguments).settings.run world).1 = .ok settings)
    (hrules : settings.translator.provider = .rules)
    (herror : Reckoner.evaluate angles.isDegrees (spokenExpression text) = .error error) :
    (ask text angles root).Replies world (failureJson "ask" error.failure) := by
  rw [← ruleCandidate_expression] at herror
  obtain ⟨before, htranslated⟩ := run_translated_rules text (run_settings_of_namedRoot hsettings)
    hrules
  obtain ⟨events, hgoes⟩ := goesOn_ask_error (askArguments text angles (namedRoot root))
    (joinedWords_singleton text) htranslated rfl herror rfl
  obtain ⟨after, hanswers, -⟩ := answers_report ((world.showsAll before).showsAll events) "ask"
    error.failure
  exact replies_of_answers (((goesOn_execute (read_ask hroot text angles) rfl world).trans
    hgoes).answers hanswers) (legible_failureJson _ _).fits

/-- A tool gets its text as it is, whatever the text looks like, and replies for exactly that text; and
no call of a tool changes a file. -/
theorem tools_reply_verbatim (text : Text) (angles : AngleUnit)
    (hroot : ∀ text, root = some text → text.head? ≠ some '-')
    (hsettings : (({ root } : CommonArguments).settings.run world).1 = .ok settings) :
    (∀ value, Reckoner.evaluate angles.isDegrees text = .ok value → ∃ form,
        explain text = .ok form ∧ (evaluate text angles root).Replies world
          [("command", .text "eval"), ("ok", .boolean true), ("expression", .text text),
            ("result", .text (shown value)), ("value", .real value),
            ("degree_mode", .boolean angles.isDegrees), ("rpn", .text (tokensText form))]) ∧
      (∀ error, Reckoner.evaluate angles.isDegrees text = .error error →
        (evaluate text angles root).Replies world
          [("command", .text "eval"), ("ok", .boolean false), ("error", .text error.failure.words),
            ("kind", .text error.failure.stage.kind)]) ∧
      (settings.translator.provider = .rules →
        (translate text root).Replies world (translateJson text (ruleCandidate text)) ∧
        (∀ value, Reckoner.evaluate angles.isDegrees (spokenExpression text) = .ok value →
          (ask text angles root).Replies world
            (askJson text (shown value) value angles (ruleCandidate text))) ∧
        ∀ error, Reckoner.evaluate angles.isDegrees (spokenExpression text) = .error error →
          (ask text angles root).Replies world
            [("command", .text "ask"), ("ok", .boolean false), ("error", .text error.failure.words),
              ("kind", .text error.failure.stage.kind)]) ∧
      ∀ (call : ToolCall) (world : World), (call.answer.run world).2.disk = world.disk := by
  refine ⟨fun value hvalue => ?_, fun error herror => replies_evaluate_error hroot hsettings herror,
    fun hrules => ⟨replies_translate hroot hsettings hrules,
      fun value hvalue => replies_ask_ok hroot hsettings hrules hvalue,
      fun error herror => replies_ask_error hroot hsettings hrules herror⟩,
    fun call world => ((onlyAsks_answer call).alike world).disk⟩
  obtain ⟨form, hform, -⟩ := bind_eq_ok hvalue
  exact ⟨form, hform, replies_evaluate_ok hroot hsettings hform hvalue⟩

end Replies

/-! The end mark itself as an expression, where no file has settings. -/

/-- The settings that are used where there are none. -/
def usualSettings : Settings where
  version := 1
  root := ⟨1, []⟩
  angles := .degrees
  journalEnabled := true
  journalPath := ⟨1, [".rpncalc_history.json"]⟩
  journalCapacity := 200
  translator := ⟨.rules, [], [], []⟩

theorem tools_reply_verbatim_endMark :
    (({} : CommonArguments).settings.run {}).1 = .ok usualSettings ∧
      Reckoner.evaluate true endMark = .error (.eval .stackUnderflow) ∧
      (evaluate endMark .degrees none).Replies {}
        [("command", .text "eval"), ("ok", .boolean false), ("error", .text "stack underflow"),
          ("kind", .text "eval")] := by
  have hsettings : (({} : CommonArguments).settings.run {}).1 = .ok usualSettings := by
    decide +kernel
  have herror : Reckoner.evaluate true endMark = .error (.eval .stackUnderflow) := by decide +kernel
  obtain ⟨-, hreplies, -⟩ := @tools_reply_verbatim {} none usualSettings endMark .degrees nofun
    hsettings
  have hwords : (ExpressionError.eval .stackUnderflow).failure.words = "stack underflow".toList := by
    decide +kernel
  have hreply := hreplies _ herror
  rw [hwords] at hreply
  exact ⟨hsettings, herror, hreply⟩

end ToolCall

end Reckoner
