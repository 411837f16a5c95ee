import Reckoner.Command.Run
import Reckoner.Proofs.Journal.Format

/-! The objects that commands print.  Each can be read again, and agrees with an exit code: it names
the command, says whether that has succeeded, and if it has not, why. -/

namespace Reckoner.Command

open Json (Value Fits)

/-- The name of a command. -/
def Arguments.name : Arguments → Text
  | .eval _ => "eval"
  | .ask _ => "ask"
  | .translate _ => "translate"
  | .history _ => "history"
  | .session _ => "repl"
  | .serve _ => "mcp"

/-- Whether a command is asked for JSON. -/
def Arguments.json : Arguments → Bool
  | .eval arguments => arguments.json
  | .ask arguments => arguments.json
  | .translate arguments => arguments.json
  | .history arguments => arguments.json
  | .session _ | .serve _ => false

variable {depth code : ℕ} {name : Text} {members : List (LooseText × Value)}

/-! ### Objects that can be read -/

/-- A value all numbers of which are finite, so that its text has a meaning to every reader. -/
inductive Portable : Value → Prop
  | null : Portable .null
  | boolean (value : Bool) : Portable (.boolean value)
  | integer (n : ℤ) : Portable (.integer n)
  | real {value : Double} (h : value.isFinite = true) : Portable (.real value)
  | text (s : LooseText) : Portable (.text s)
  | array {items : List Value} (h : ∀ v ∈ items, Portable v) : Portable (.array items)
  | object {members : List (LooseText × Value)} (h : ∀ m ∈ members, Portable m.2) :
    Portable (.object members)

/-- A value that can be read again from its text, by every reader. -/
structure Legible (depth : ℕ) (v : Value) : Prop where
  fits : Fits depth v
  portable : Portable v

section Legible

variable {key : Text} {value : Value} {candidate : Candidate}

theorem legible_text (text : Text) : Legible depth (.text text) :=
  ⟨.text (LooseText.isJoined_loose text), .text _⟩

theorem legible_boolean (value : Bool) : Legible depth (.boolean value) :=
  ⟨.boolean value, .boolean value⟩

theorem legible_real {value : Double} (h : value.isFinite = true) : Legible depth (.real value) :=
  ⟨.real value, .real h⟩

theorem legible_array {items : List Value} (h : ∀ v ∈ items, Legible depth v) :
    Legible (depth + 1) (.array items) :=
  ⟨.array fun v hv => (h v hv).fits, .array fun v hv => (h v hv).portable⟩

theorem legible_object : Legible (depth + 1) (.object members) ↔
    ∀ m ∈ members, m.1.IsJoined ∧ Legible depth m.2 := by
  constructor
  · rintro ⟨hfits, hportable⟩ m hm
    cases hfits with
    | object hkeys hvalues =>
      cases hportable with
      | object hall => exact ⟨hkeys m hm, hvalues m hm, hall m hm⟩
  · intro h
    constructor
    · exact .object (fun m hm => (h m hm).1) fun m hm => (h m hm).2.fits
    · exact .object fun m hm => (h m hm).2.portable

theorem legible_nil : Legible (depth + 1) (.object []) :=
  legible_object.mpr (List.forall_mem_nil _)

theorem legible_cons (hvalue : Legible depth value) (h : Legible (depth + 1) (.object members)) :
    Legible (depth + 1) (.object ((Text.loose key, value) :: members)) :=
  legible_object.mpr (List.forall_mem_cons.mpr
    ⟨⟨LooseText.isJoined_loose key, hvalue⟩, legible_object.mp h⟩)

theorem legible_concat (hvalue : Legible depth value) (h : Legible (depth + 1) (.object members)) :
    Legible (depth + 1) (.object (members.concat (Text.loose key, value))) := by
  rw [List.concat_eq_append]
  exact legible_object.mpr (List.forall_mem_append.mpr
    ⟨legible_object.mp h, List.forall_mem_singleton.mpr ⟨LooseText.isJoined_loose key, hvalue⟩⟩)

theorem legible_failureJson (command : Text) (failure : Failure) :
    Legible (depth + 1) (.object (failureJson command failure)) :=
  legible_cons (legible_text _) (legible_cons (legible_boolean _) (legible_cons (legible_text _)
    (legible_cons (legible_text _) legible_nil)))

theorem legible_evalJson (expression result : Text) {value : Double} (h : value.isFinite = true)
    (angles : AngleUnit) (form : Option Text) :
    Legible (depth + 1) (.object (evalJson expression result value angles form)) := by
  cases form with
  | none | some form => ?_
  case' some => refine legible_concat (legible_text form) ?_
  all_goals
    exact legible_cons (legible_text _) (legible_cons (legible_boolean _)
      (legible_cons (legible_text _) (legible_cons (legible_text _) (legible_cons (legible_real h)
        (legible_cons (legible_boolean _) legible_nil)))))

/-- A count of attempts has few digits. -/
theorem legible_attempts (h : candidate.attempts ≤ 2) :
    Legible depth (.integer candidate.attempts) := by
  refine ⟨.integer (Nat.le_trans ?_ (by decide : 1 ≤ maxIntegerDigits)), .integer _⟩
  exact (Entry.length_ofNat_le_iff (by decide)).mpr (Nat.lt_of_le_of_lt h (by decide))

theorem legible_translateJson (request : Text) (h : candidate.attempts ≤ 2) :
    Legible (depth + 2) (.object (translateJson request candidate)) := by
  refine legible_cons (legible_text _) (legible_cons (legible_boolean _) (legible_cons
    (legible_text _) (legible_cons (legible_text _) (legible_cons (legible_attempts h)
      (legible_cons (legible_array ?_) legible_nil)))))
  exact List.forall_mem_map.mpr fun error _ => legible_text error

theorem legible_askJson (request result : Text) {value : Double} (hvalue : value.isFinite = true)
    (angles : AngleUnit) (h : candidate.attempts ≤ 2) :
    Legible (depth + 1) (.object (askJson request result value angles candidate)) := by
  rw [askJson]
  split
  case' isTrue => refine legible_concat (legible_text _) ?_
  all_goals
    exact legible_cons (legible_text _) (legible_cons (legible_boolean _)
      (legible_cons (legible_text _) (legible_cons (legible_text _) (legible_cons (legible_text _)
        (legible_cons (legible_real hvalue) (legible_cons (legible_boolean _)
          (legible_cons (legible_attempts h) legible_nil)))))))

theorem legible_historyJson (hvalue : Legible depth value) :
    Legible (depth + 1) (.object (historyJson [(Text.loose key, value)])) :=
  legible_cons (legible_text _) (legible_cons (legible_boolean _) (legible_cons hvalue legible_nil))

theorem legible_entry {entry : Entry} (h : entry.Keepable) : Legible (depth + 1) entry.json := by
  refine ⟨h.fits, .object ?_⟩
  exact List.forall_mem_cons.mpr ⟨.text _, List.forall_mem_cons.mpr ⟨.text _,
    List.forall_mem_singleton.mpr (.integer _)⟩⟩

end Legible

/-! ### Objects that agree with a code -/

/-- The stages whose failures commands report. -/
def reportedStages : List Stage := [.lex, .parse, .eval, .config, .history, .translator]

/-- The kinds of failures that are reported, each with the exit code that goes with it. -/
def kindCodes : List (Text × Nat) :=
  [("lex", 1), ("parse", 1), ("eval", 1), ("config", 2), ("history", 2), ("translation", 3)]

/-- What an object tells of a command without success: the words and the kind of a failure, or, of the
command that translates, an answer that is no expression, with what is wrong with it. -/
inductive Explains (name : Text) (code : Nat) (members : List (LooseText × Value)) : Prop
  | failure {words kind : Text} (herror : Value.member? "error" members = some (.text words))
    (hkind : Value.member? "kind" members = some (.text kind)) (hcode : (kind, code) ∈ kindCodes) :
    Explains name code members
  | candidate {request : Text} {candidate : Candidate} (hname : name = "translate")
    (hcode : code = 3) (herrors : candidate.errors ≠ [])
    (hmembers : members = translateJson request candidate) : Explains name code members

/-- An object that a command with this name prints if it ends with this exit code. -/
structure Coherent (name : Text) (code : Nat) (members : List (LooseText × Value)) : Prop where
  command : Value.member? "command" members = some (.text name)
  ok : Value.member? "ok" members = some (.boolean (code == success))
  explains : code ≠ success → Explains name code members

theorem exitCode_ne_success (stage : Stage) : stage.exitCode ≠ success := by
  cases stage with
  | other name => exact Nat.one_ne_zero
  | _ => decide

theorem mem_kindCodes : ∀ stage ∈ reportedStages, (stage.kind, stage.exitCode) ∈ kindCodes := by
  decide

theorem coherent_failureJson {failure : Failure} (h : failure.stage ∈ reportedStages) :
    Coherent name failure.stage.exitCode (failureJson name failure) where
  command := rfl
  ok := by
    rw [beq_false_of_ne (exitCode_ne_success failure.stage)]
    rfl
  explains _ := .failure rfl rfl (mem_kindCodes _ h)

theorem coherent_success (hcommand : Value.member? "command" members = some (.text name))
    (hok : Value.member? "ok" members = some (.boolean true)) : Coherent name success members :=
  ⟨hcommand, hok, fun h => absurd rfl h⟩

theorem member?_concat {key other : LooseText} (h : key ≠ other)
    (members : List (LooseText × Value)) (value : Value) :
    Value.member? key (members.concat (other, value)) = Value.member? key members := by
  rw [Value.member?, Value.member?, List.concat_eq_append, List.reverse_append]
  simp [List.lookup_cons, beq_eq_false_iff_ne.mpr h]

theorem coherent_evalJson (expression result : Text) (value : Double) (angles : AngleUnit)
    (form : Option Text) :
    Coherent "eval" success (evalJson expression result value angles form) := by
  cases form with
  | none => exact coherent_success rfl rfl
  | some form =>
    exact coherent_success (member?_concat (by decide) _ _) (member?_concat (by decide) _ _)

theorem coherent_askJson (request result : Text) (value : Double) (angles : AngleUnit)
    (candidate : Candidate) :
    Coherent "ask" success (askJson request result value angles candidate) := by
  rw [askJson]
  split
  · exact coherent_success (member?_concat (by decide) _ _) (member?_concat (by decide) _ _)
  · exact coherent_success rfl rfl

theorem coherent_translateJson (request : Text) (candidate : Candidate) :
    Coherent "translate"
      (if candidate.errors.isEmpty then success else Stage.translator.exitCode)
      (translateJson request candidate) := by
  cases herrors : candidate.errors with
  | nil =>
    refine coherent_success rfl ?_
    rw [translateJson, herrors]
    rfl
  | cons error errors =>
    refine ⟨rfl, ?_, fun _ => .candidate rfl rfl ?_ rfl⟩
    · rw [translateJson, herrors]
      rfl
    · rw [herrors]
      exact List.cons_ne_nil error errors

theorem coherent_historyJson {key : Text} (hcommand : Text.loose key ≠ "command")
    (hok : Text.loose key ≠ "ok") (value : Value) :
    Coherent "history" success (historyJson [(Text.loose key, value)]) := by
  apply coherent_success
  · exact member?_concat hcommand.symm [("command", .text "history"), ("ok", .boolean true)] value
  · exact member?_concat hok.symm [("command", .text "history"), ("ok", .boolean true)] value

end Reckoner.Command
