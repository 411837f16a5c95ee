import Reckoner.Failure
import Reckoner.Proofs.Checked.Conversion

/-! Hints for expressions that have no value.  A hint is chosen by the words of a failure, into which
characters and names of the text go; the words before these decide, so that there is one hint for
each cause. -/

namespace Reckoner

/-! ### Parts of a text -/

namespace Text

variable {lead part s : Text}

theorem startsWith_iff : startsWith lead s = true ↔ lead <+: s := by
  rw [startsWith, Option.isSome_iff_exists]
  constructor
  · rintro ⟨rest, h⟩
    exact ⟨rest, (after?_eq_some.mp h).symm⟩
  · rintro ⟨rest, h⟩
    exact ⟨rest, after?_eq_some.mpr h.symm⟩

theorem contains_iff : contains part s = true ↔ part <:+: s := by
  induction s with
  | nil => rw [contains, List.isEmpty_iff, List.infix_nil]
  | cons c s ih => rw [contains, Bool.or_eq_true, startsWith_iff, ih, List.infix_cons_iff]

/-- What comes after a text that is long enough makes no difference to how it starts. -/
theorem startsWith_append_of_length (h : lead.length ≤ s.length) (rest : Text) :
    startsWith lead (s ++ rest) = startsWith lead s := by
  rw [Bool.eq_iff_iff, startsWith_iff, startsWith_iff]
  exact ⟨fun hlead => List.prefix_of_prefix_length_le hlead (List.prefix_append s rest) h,
    fun hlead => hlead.trans (List.prefix_append s rest)⟩

theorem contains_append (h : contains part s = true) (rest : Text) :
    contains part (s ++ rest) = true :=
  contains_iff.mpr ((contains_iff.mp h).trans (List.prefix_append s rest).isInfix)

end Text

/-! ### Causes -/

/-- Why a text has no value, whatever characters and names are in it. -/
inductive Cause
  | badLiteral
  | equation
  | badCharacter
  | parentheses
  | comma
  | unknownFunction
  | factorial
  | nonFinite
  | missingOperand
  /-- There is not just one operand left at the end. -/
  | finalShape
  deriving DecidableEq, Repr

/-- What to do about a cause. -/
def Cause.hint : Cause → Text
  | badLiteral => "a number may contain at most one decimal point"
  | equation => equationNotice
  | badCharacter => "use digits, + - * / ^, ! %, parentheses and function names only"
  | parentheses => "check that every '(' has a matching ')'"
  | comma => "commas are only allowed inside function-call parentheses"
  | unknownFunction =>
    "supported functions: sin cos tan csc sec cot ln log sqrt; constants: pi e"
  | factorial => "factorial needs a whole number between 0 and 170"
  | nonFinite => "the result is undefined or too large (division by zero, log of 0, ...)"
  | missingOperand => "an operator is missing an operand"
  | finalShape =>
    "operands must be joined by operators (there is no implicit multiplication)"

theorem Cause.hint_injective : Function.Injective Cause.hint := by
  intro cause cause' h
  cases cause <;> cases cause' <;> first | rfl | exact absurd h (by decide)

/-- The cause of a lexical error.  Of the characters, an equals sign alone makes a difference. -/
def LexError.cause (error : LexError) : Cause :=
  match error.reason with
  | .invalidNumber => .badLiteral
  | .unexpectedCharacter => if error.lexeme = ['='] then .equation else .badCharacter

/-- The cause of an error of the postfix form; the tokens of a text have no other. -/
def ParseError.cause? : ParseError → Option Cause
  | .mismatchedParentheses => some .parentheses
  | .misplacedComma => some .comma
  | .unexpectedToken => none

/-- The cause of an error of an evaluation. -/
def EvalError.cause : EvalError → Cause
  | .stackUnderflow => .missingOperand
  | .invalidExpression => .finalShape
  | .nonFinite => .nonFinite
  | .unknownFunction _ => .unknownFunction
  | .factorialArgument _ | .factorialFraction _ | .factorialTooLarge _ => .factorial

/-- The cause of an error of an expression. -/
def ExpressionError.cause? : ExpressionError → Option Cause
  | .lex error => some error.cause
  | .parse error => error.cause?
  | .eval error => some error.cause

/-! ### The hint for a cause -/

theorem message_lexical (reason : Text) (lexeme : Option Text) (position : Option Int) :
    ∃ about, (Failure.lexical reason lexeme position).message = reason ++ about :=
  ⟨_, List.append_assoc ..⟩

theorem message_evaluation (reason : Text) (subject : Option Text) :
    ∃ about, (Failure.evaluation reason subject).message = reason ++ about :=
  ⟨_, rfl⟩

theorem hint?_lex (error : LexError) :
    (ExpressionError.lex error).failure.hint? = some error.cause.hint := by
  obtain ⟨reason, lexeme, position⟩ := error
  obtain ⟨about, habout⟩ := message_lexical reason.message (some lexeme) (some position)
  change some (lexHint (Failure.lexical reason.message (some lexeme) (some position)).message
    (some lexeme)) = _
  rw [habout, lexHint]
  cases reason with
  | invalidNumber =>
    have hreason : Text.startsWith "invalid number" (LexReason.invalidNumber.message ++ about) =
        true := Text.startsWith_append _ about
    rw [if_pos hreason]
    rfl
  | unexpectedCharacter =>
    have hreason : Text.startsWith "invalid number"
        (LexReason.unexpectedCharacter.message ++ about) = false :=
      (Text.startsWith_append_of_length (by decide) about).trans (by decide)
    rw [if_neg (Bool.eq_false_iff.mp hreason), LexError.cause]
    by_cases hequals : lexeme = ['=']
    · rw [if_pos (congrArg some hequals)]
      dsimp only
      rw [if_pos hequals]
      rfl
    · rw [if_neg (mt Option.some.inj hequals)]
      dsimp only
      rw [if_neg hequals]
      rfl

theorem hint?_parse {error : ParseError} {cause : Cause} (h : error.cause? = some cause) :
    (ExpressionError.parse error).failure.hint? = some cause.hint := by
  cases error with
  | mismatchedParentheses =>
    obtain rfl := Option.some.inj h
    decide
  | misplacedComma =>
    obtain rfl := Option.some.inj h
    decide
  | unexpectedToken => cases h

/-- A reason with a factorial in it is told from an unknown function by how it starts. -/
theorem evalHint?_factorial {reason : Text}
    (hlength : "unknown function".toList.length ≤ reason.length)
    (hother : Text.startsWith "unknown function" reason = false)
    (hreason : Text.contains "factorial" reason = true) (about : Text) :
    evalHint? (reason ++ about) = some Cause.factorial.hint := by
  have hstart := (Text.startsWith_append_of_length hlength about).trans hother
  rw [evalHint?, if_neg (Bool.eq_false_iff.mp hstart), if_pos (Text.contains_append hreason about)]
  rfl

theorem hint?_eval (error : EvalError) :
    (ExpressionError.eval error).failure.hint? = some error.cause.hint := by
  obtain ⟨about, habout⟩ := message_evaluation error.reason error.subject?
  change evalHint? (Failure.evaluation error.reason error.subject?).message = _
  cases error with
  | unknownFunction name =>
    have hreason : Text.startsWith "unknown function"
        ((EvalError.unknownFunction name).reason ++ about) = true := Text.startsWith_append _ about
    rw [habout, evalHint?, if_pos hreason]
    rfl
  | factorialArgument =>
    rw [habout]
    exact @evalHint?_factorial "invalid factorial argument" (by decide) (by decide) (by decide) about
  | factorialFraction =>
    rw [habout]
    exact @evalHint?_factorial "factorial requires an integer" (by decide) (by decide) (by decide)
      about
  | factorialTooLarge =>
    rw [habout]
    exact @evalHint?_factorial "factorial result too large" (by decide) (by decide) (by decide) about
  | stackUnderflow => decide
  | invalidExpression => decide
  | nonFinite => decide

theorem hint?_of_cause {error : ExpressionError} {cause : Cause} (h : error.cause? = some cause) :
    error.failure.hint? = some cause.hint := by
  cases error with
  | lex error =>
    obtain rfl := Option.some.inj h
    exact hint?_lex error
  | parse error => exact hint?_parse h
  | eval error =>
    obtain rfl := Option.some.inj h
    exact hint?_eval error

/-! ### Evaluations that fail -/

/-- The word for the stage at which the evaluation of a text fails: all stages before it have a
result. -/
inductive FailsIn (degrees : Bool) (s : Text) : (kind : Text) → Prop
  | lex {error} (h : scan (normalized s) = .error error) : FailsIn degrees s "lex"
  | parse {tokens error} (hscan : scan (normalized s) = .ok tokens)
      (h : toPostfix tokens = .error error) : FailsIn degrees s "parse"
  | eval {tokens form error} (hscan : scan (normalized s) = .ok tokens)
      (hform : toPostfix tokens = .ok form) (h : valueOf degrees form = .error error) :
      FailsIn degrees s "eval"

section Evaluate

variable {degrees : Bool} {s : Text} {error : ExpressionError}

theorem explain_cases (s : Text) :
    (∃ error at', scan (normalized s) = .error error ∧
      explain s = .error (.lex { error with position := at' })) ∨
    ∃ tokens, scan (normalized s) = .ok tokens ∧
      explain s = (toPostfix tokens).mapError .parse := by
  rw [explain]
  cases scan (normalized s) with
  | error error => exact .inl ⟨error, _, rfl, rfl⟩
  | ok tokens => exact .inr ⟨tokens, rfl, rfl⟩

/-- An evaluation fails at its first stage without a result, whose error has a cause. -/
theorem failsIn_of_evaluate (h : evaluate degrees s = .error error) :
    FailsIn degrees s error.failure.stage.kind ∧ ∃ cause, error.cause? = some cause := by
  rw [evaluate] at h
  rcases explain_cases s with ⟨scanned, place, hscan, hexplain⟩ | ⟨tokens, hscan, hexplain⟩
  · rw [hexplain] at h
    obtain rfl := Except.error.inj h
    exact ⟨.lex hscan, _, rfl⟩
  · cases hform : toPostfix tokens with
    | error refused =>
      rw [hform] at hexplain
      rw [hexplain] at h
      obtain rfl := Except.error.inj h
      refine ⟨.parse hscan hform, ?_⟩
      cases refused with
      | mismatchedParentheses => exact ⟨_, rfl⟩
      | misplacedComma => exact ⟨_, rfl⟩
      | unexpectedToken => exact absurd hexplain (Checked.explain_ne_unexpectedToken s)
    | ok form =>
      rw [hform] at hexplain
      rw [hexplain] at h
      cases hvalue : valueOf degrees form with
      | ok value =>
        simp [bind, Except.bind, Except.mapError, hvalue] at h
      | error fault =>
        obtain rfl : ExpressionError.eval fault = error := by
          simpa [bind, Except.bind, Except.mapError, hvalue] using h
        exact ⟨.eval hscan hform hvalue, _, rfl⟩

/-- Each failed evaluation is reported with the word for the stage that failed and with a hint.  The
hint is the one for the cause, so failures of any two texts, in degrees or radians, have the same hint
just if they have the same cause. -/
theorem hint_of_evaluate (h : evaluate degrees s = .error error) :
    FailsIn degrees s error.failure.stage.kind ∧
      (∃ cause, error.cause? = some cause ∧ error.failure.hint? = some cause.hint) ∧
      ∀ degrees' s' error', evaluate degrees' s' = .error error' →
        (error'.failure.hint? = error.failure.hint? ↔ error'.cause? = error.cause?) := by
  obtain ⟨hfails, cause, hcause⟩ := failsIn_of_evaluate h
  refine ⟨hfails, ⟨cause, hcause, hint?_of_cause hcause⟩, fun degrees' s' error' h' => ?_⟩
  obtain ⟨-, cause', hcause'⟩ := failsIn_of_evaluate h'
  rw [hint?_of_cause hcause, hint?_of_cause hcause', hcause, hcause', Option.some_inj,
    Option.some_inj, Cause.hint_injective.eq_iff]

/-- A function whose name is the word by which other failures are told is still an unknown one. -/
theorem hint_of_evaluate_factorial :
    evaluate true "factorial(2)" = .error (.eval (.unknownFunction "factorial")) ∧
      FailsIn true "factorial(2)" "eval" ∧
      (ExpressionError.eval (.unknownFunction "factorial")).failure.hint? =
        some Cause.unknownFunction.hint := by
  have h : evaluate true "factorial(2)" = .error (.eval (.unknownFunction "factorial")) := by
    decide +kernel
  obtain ⟨hfails, ⟨cause, hcause, hhint⟩, -⟩ := hint_of_evaluate h
  obtain rfl := Option.some.inj hcause
  exact ⟨h, hfails, hhint⟩

end Evaluate

end Reckoner
