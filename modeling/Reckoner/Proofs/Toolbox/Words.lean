import Reckoner.Proofs.Command.Reading
import Reckoner.Proofs.Program.Asking
import Reckoner.Toolbox.Calls

/-! The words of tools.  A tool runs a command that leaves the journal alone, whatever the texts are
that it is given: a text that is taken for an option makes no command at all. -/

namespace Reckoner

namespace ToolCall

open Command (CommonArguments EvalArguments AskArguments HistoryArguments Grammar endMark)

variable {σ : Type} {grammar : Grammar σ} {arguments result : σ} {words : List Text}

/-! ### The words of a call -/

/-- The words for the folder of the settings set it and nothing else. -/
theorem of_read_rootWords {root : Option Text}
    (change : (CommonArguments → CommonArguments) → σ → σ)
    (hclass : grammar.classify "--root" =
      .ok (.value fun text s => .ok (change ({ · with root := text }) s)))
    (h : grammar.read arguments (rootWords root ++ words) = .ok result) :
    grammar.read arguments words = .ok result ∨
      ∃ root, grammar.read (change ({ · with root := some root }) arguments) words = .ok result := by
  match root with
  | none => exact .inl h
  | some [] => exact .inl h
  | some (c :: root) =>
    obtain ⟨arguments', hset, h⟩ := Grammar.of_read_value (by decide) hclass h
    obtain rfl := Except.ok.inj hset
    exact .inr ⟨c :: root, h⟩

theorem unrecorded_of_read_evaluate {expression : Text} {angles : AngleUnit} {root : Option Text}
    {given : EvalArguments} (h : Command.evalGrammar.read {} ("--json" :: "--no-history" :: "--rpn" ::
      (rootWords root ++ [angleWord angles, endMark, expression])) = .ok given) :
    given.unrecorded = true := by
  have h := Grammar.of_read_set (by decide) rfl h
  have h := Grammar.of_read_set (by decide) rfl h
  have h := Grammar.of_read_set (by decide) rfl h
  rcases of_read_rootWords (fun change s => { s with common := change s.common }) rfl h with
    h | ⟨root, h⟩
  all_goals
    cases angles
    all_goals
      obtain ⟨_, hset, h⟩ := Grammar.of_read_flag (by decide) rfl h
      obtain rfl := Except.ok.inj hset
      exact Except.ok.inj h ▸ rfl

theorem unrecorded_of_read_ask {request : Text} {angles : AngleUnit} {root : Option Text}
    {given : AskArguments} (h : Command.askGrammar.read {} ("--json" :: "--no-history" ::
      (rootWords root ++ [angleWord angles, endMark, request])) = .ok given) :
    given.unrecorded = true := by
  have h := Grammar.of_read_set (by decide) rfl h
  have h := Grammar.of_read_set (by decide) rfl h
  rcases of_read_rootWords (fun change s => { s with common := change s.common }) rfl h with
    h | ⟨root, h⟩
  all_goals
    cases angles
    all_goals
      obtain ⟨_, hset, h⟩ := Grammar.of_read_flag (by decide) rfl h
      obtain rfl := Except.ok.inj hset
      exact Except.ok.inj h ▸ rfl

theorem lists_of_read_history {limit : Option Int} {root : Option Text} {given : HistoryArguments}
    (h : Command.historyGrammar.read {} ("--json" :: (rootWords root ++ limitWords limit)) =
      .ok given) : given.lists = true := by
  have h := Grammar.of_read_set (by decide) rfl h
  rcases of_read_rootWords (fun change s => { s with common := change s.common }) rfl h with
    h | ⟨root, h⟩
  all_goals
    cases limit with
    | none => exact Except.ok.inj h ▸ rfl
    | some limit =>
      obtain ⟨_, hset, h⟩ := Grammar.of_read_value (by decide) rfl h
      obtain ⟨_, -, rfl⟩ := map_eq_ok hset
      exact Except.ok.inj h ▸ rfl

/-- The command that a tool runs leaves the journal alone. -/
theorem isQuiet_of_read_words {call : ToolCall} {arguments : Command.Arguments}
    (h : Command.Arguments.read call.words = .ok arguments) : arguments.isQuiet = true := by
  obtain ⟨given, hread, h⟩ := bind_eq_ok h
  cases call with
  | evaluate expression angles root =>
    have hrun := Grammar.of_read_command rfl (by decide) rfl hread
    obtain ⟨given, hgiven, rfl⟩ := map_eq_ok hrun
    obtain rfl := Except.ok.inj h
    exact unrecorded_of_read_evaluate hgiven
  | translate request root =>
    have hrun := Grammar.of_read_command rfl (by decide) rfl hread
    obtain ⟨given, -, rfl⟩ := map_eq_ok hrun
    obtain rfl := Except.ok.inj h
    rfl
  | ask request angles root =>
    have hrun := Grammar.of_read_command rfl (by decide) rfl hread
    obtain ⟨given, hgiven, rfl⟩ := map_eq_ok hrun
    obtain rfl := Except.ok.inj h
    exact unrecorded_of_read_ask hgiven
  | history limit root =>
    have hrun := Grammar.of_read_command rfl (by decide) rfl hread
    obtain ⟨given, hgiven, rfl⟩ := map_eq_ok hrun
    obtain rfl := Except.ok.inj h
    exact lists_of_read_history hgiven

theorem onlyAsks_answer (call : ToolCall) : call.answer.OnlyAsks := by
  have hexecute : (Command.execute call.words).OnlyAsks := by
    rw [Command.execute]
    split
    case h_1 arguments hread => exact Command.onlyAsks_run (isQuiet_of_read_words hread)
    case h_2 stop _ => exact Command.onlyAsks_stop stop
  refine Program.only_bind (Program.only_capture hexecute []) fun (_, output) => ?_
  dsimp only
  split
  · trivial
  · split <;> trivial

end ToolCall

end Reckoner
