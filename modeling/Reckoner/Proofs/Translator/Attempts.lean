import Reckoner.Proofs.Program.Requests
import Reckoner.Translator.Selection

/-! The attempts of a translator.  It is called for each answer that is rejected and once more, and
each call is told about all the answers before it.  A translation makes the requests of these calls
and no others, and what it ends with is settled by the outcome of the last call. -/

namespace Reckoner

namespace Program

variable {α : Type} {program : Program α} {world world' : World}

theorem run_translating_of_ok {value : α} (h : program.run world = (.ok value, world')) :
    program.translating.run world = (.ok value, world') := by
  rw [translating, run_bind_of_ok (run_attempt program world), h]
  rfl

theorem run_translating_of_error {fault : Fault} (h : program.run world = (.error fault, world')) :
    program.translating.run world = (.error (.failure fault.translated), world') := by
  rw [translating, run_bind_of_ok (run_attempt program world), h]
  rfl

theorem requests_translating (program : Program α) (world : World) :
    program.translating.requests world = program.requests world := by
  rw [translating, requests_bind_of_ok (run_attempt program world), requests_attempt]
  split <;> exact List.append_nil _

end Program

namespace Translator

/-- An answer that was rejected, and what is wrong with it. -/
structure Rejected where
  answer : Text
  error : Text

/-- What a translator is told about the answers that were rejected; at the first call that is
nothing. -/
def notesOn : List Rejected → Option (List Text)
  | [] => none
  | rejected => some (rejected.map fun r =>
      "previous answer " ++ Text.quoted r.answer ++ " was rejected: " ++ r.error)

/-- The calls of a translator after the answers `before` were rejected.  The answers in `rejected`
are rejected as well, each by a call that is told about all that were before it, and then there is
one call more, the outcome of which is `last`. -/
inductive Calls (translator : Translator) (request : Text) : (before : List Rejected) → World →
    (rejected : List Rejected) → (last : Except Fault Text) → List Request → World → Prop
  | last {before : List Rejected} {world after : World} {last : Except Fault Text}
    (h : (translator.answer request (notesOn before)).run world = (last, after)) :
    Calls translator request before world [] last
      ((translator.answer request (notesOn before)).requests world) after
  | rejected {before more : List Rejected} {world between after : World} {r : Rejected}
    {last : Except Fault Text} {requests : List Request}
    (h : (translator.answer request (notesOn before)).run world = (.ok r.answer, between))
    (herror : expressionErrors r.answer = [r.error])
    (hmore : Calls translator request (before ++ [r]) between more last requests after) :
    Calls translator request before world (r :: more) last
      ((translator.answer request (notesOn before)).requests world ++ requests) after

/-- What a translation ends with after so many calls, the last of which had this outcome.  A failure
of the calculator comes out as it is, and every other error as a failure of the translator with its
name and its words. -/
def ending (calls : Nat) : (last : Except Fault Text) → Except Fault Candidate
  | .ok answer => .ok ⟨calls, answer, expressionErrors answer⟩
  | .error (.failure failure) => .error (.failure failure)
  | .error (.foreign error) =>
    .error (.failure (.translator (error.name ++ ": " ++ error.message)))
  | .error (.crash cause) => .error (.failure (.translator (cause.name ++ ": " ++ cause.message)))

theorem expressionErrors_eq (text : Text) :
    expressionErrors text = [] ∨ ∃ error, expressionErrors text = [error] := by
  rw [expressionErrors]
  split
  · exact .inl rfl
  · exact .inr ⟨_, rfl⟩

theorem notesOn_concat (before : List Rejected) (r : Rejected) :
    notesOn (before ++ [r]) =
      some ((notesOn before).getD [] ++ [rejection r.answer r.error]) := by
  cases before with
  | nil => rfl
  | cons first before => exact congrArg some List.map_append

section Attempts

variable {translator : Translator} {request : Text} {world between : World}

/-- Whether nothing is asked after an outcome, with so many attempts left. -/
def Stops (translator : Translator) (left : Nat) (outcome : Except Fault Text) : Prop :=
  ∀ answer, outcome = .ok answer →
    expressionErrors answer = [] ∨ translator.deterministic = true ∨ left = 0

/-- The last attempt. -/
theorem attemptsFrom_of_stops (made : Nat) {left : Nat} {notes : Option (List Text)}
    {last : Except Fault Text} (h : (translator.answer request notes).run world = (last, between))
    (hstops : translator.Stops left last) :
    (translator.attemptsFrom request made notes (left + 1)).run world =
        (ending (made + 1) last, between) ∧
      (translator.attemptsFrom request made notes (left + 1)).requests world =
        (translator.answer request notes).requests world := by
  have hrequests := Program.requests_translating (translator.answer request notes) world
  rw [attemptsFrom]
  cases last with
  | ok answer =>
    have hanswer := Program.run_translating_of_ok h
    have hlast : ((expressionErrors answer).isEmpty || translator.deterministic ||
        decide (left = 0)) = true := by
      rcases hstops answer rfl with hgood | honce | hleft
      · simp [hgood]
      · simp [honce]
      · simp [hleft]
    rw [Program.run_bind_of_ok hanswer, Program.requests_bind_of_ok hanswer, hrequests]
    dsimp only
    rw [if_pos hlast]
    exact ⟨rfl, List.append_nil _⟩
  | error fault =>
    have hfault := Program.run_translating_of_error h
    rw [Program.run_bind_of_error hfault, Program.requests_bind, hfault, hrequests]
    cases fault <;> exact ⟨rfl, List.append_nil _⟩

theorem exists_of_not_stops {left : Nat} {outcome : Except Fault Text}
    (h : ¬translator.Stops left outcome) : ∃ r : Rejected, outcome = .ok r.answer ∧
      expressionErrors r.answer = [r.error] ∧ translator.deterministic = false ∧ left ≠ 0 := by
  obtain ⟨answer, h⟩ := Classical.not_forall.mp h
  obtain ⟨houtcome, h⟩ := Classical.not_imp.mp h
  obtain ⟨herrors, h⟩ := not_or.mp h
  obtain ⟨honce, hleft⟩ := not_or.mp h
  obtain ⟨error, herror⟩ := (expressionErrors_eq answer).resolve_left herrors
  exact ⟨⟨answer, error⟩, houtcome, herror, Bool.eq_false_iff.mpr honce, hleft⟩

/-- An attempt after which the translator is asked again. -/
theorem attemptsFrom_of_rejected {before : List Rejected} {left : Nat} {r : Rejected}
    (h : (translator.answer request (notesOn before)).run world = (.ok r.answer, between))
    (herror : expressionErrors r.answer = [r.error]) (honce : translator.deterministic = false)
    (hleft : left ≠ 0) :
    (translator.attemptsFrom request before.length (notesOn before) (left + 1)).run world =
        (translator.attemptsFrom request (before ++ [r]).length (notesOn (before ++ [r])) left).run
          between ∧
      (translator.attemptsFrom request before.length (notesOn before) (left + 1)).requests world =
        (translator.answer request (notesOn before)).requests world ++
          (translator.attemptsFrom request (before ++ [r]).length (notesOn (before ++ [r]))
            left).requests between := by
  have hanswer := Program.run_translating_of_ok h
  have hrequests := Program.requests_translating (translator.answer request (notesOn before)) world
  have hagain : ¬((expressionErrors r.answer).isEmpty || translator.deterministic ||
      decide (left = 0)) = true := by
    simp [herror, honce, hleft]
  rw [attemptsFrom, Program.run_bind_of_ok hanswer, Program.requests_bind_of_ok hanswer, hrequests]
  dsimp only
  rw [if_neg hagain, herror, List.length_append, notesOn_concat]
  exact ⟨rfl, rfl⟩

/-- The attempts that are left, by induction on their number, after some answers were rejected. -/
theorem attemptsFrom_calls (translator : Translator) (request : Text) (before : List Rejected)
    (left : Nat) (world : World) : ∃ rejected last after,
      translator.Calls request before world rejected last
        ((translator.attemptsFrom request before.length (notesOn before) (left + 1)).requests world)
        after ∧
      rejected.length ≤ left ∧ (translator.deterministic = true → rejected = []) ∧
      translator.Stops (left - rejected.length) last ∧
      (translator.attemptsFrom request before.length (notesOn before) (left + 1)).run world =
        (ending (before.length + rejected.length + 1) last, after) := by
  induction left using Nat.strongRecOn generalizing before world with
  | ind left ih =>
    obtain ⟨last, between, hanswer⟩ : ∃ last between,
        (translator.answer request (notesOn before)).run world = (last, between) := ⟨_, _, rfl⟩
    by_cases hstops : translator.Stops left last
    case pos =>
      obtain ⟨hrun, hrequests⟩ := attemptsFrom_of_stops before.length hanswer hstops
      exact ⟨[], last, between, hrequests ▸ .last hanswer, Nat.zero_le _, fun _ => rfl, hstops, hrun⟩
    case neg =>
      obtain ⟨r, rfl, herror, honce, hleft⟩ := exists_of_not_stops hstops
      obtain ⟨left, rfl⟩ := Nat.exists_eq_succ_of_ne_zero hleft
      obtain ⟨hrun, hrequests⟩ := attemptsFrom_of_rejected hanswer herror honce hleft
      obtain ⟨more, last, after, hcalls, hlength, -, hstops, hmore⟩ :=
        ih left (Nat.lt_succ_self left) (before ++ [r]) between
      refine ⟨r :: more, last, after, hrequests ▸ .rejected hanswer herror hcalls,
        Nat.succ_le_succ hlength, fun h => absurd h (by simp [honce]), ?_, ?_⟩
      · rwa [List.length_cons, Nat.succ_sub_succ]
      · have hcount : (before ++ [r]).length + more.length = before.length + (r :: more).length := by
          simp only [List.length_append, List.length_cons, List.length_nil]
          omega
        rw [hrun, hmore, hcount]

/-- A translation with at least one attempt.  All answers but the last are rejected, and the last one
is good, or it is the answer of a translator that always gives the same one, or there may be no
more. -/
theorem translateWithin_calls (translator : Translator) (request : Text) (world : World)
    {limit : Int} (h : 1 ≤ limit) : ∃ rejected last after,
      translator.Calls request [] world rejected last
        ((translator.translateWithin limit request).requests world) after ∧
      rejected.length < limit ∧ (translator.deterministic = true → rejected = []) ∧
      (∀ answer, last = .ok answer → expressionErrors answer = [] ∨
        translator.deterministic = true ∨ rejected.length + 1 = limit) ∧
      (translator.translateWithin limit request).run world =
        (ending (rejected.length + 1) last, after) := by
  obtain ⟨left, rfl⟩ : ∃ left : Nat, limit = (left + 1 : Nat) := ⟨(limit - 1).toNat, by omega⟩
  obtain ⟨rejected, last, after, hcalls, hlength, honce, hstops, hrun⟩ :=
    attemptsFrom_calls translator request [] left world
  rw [List.length_nil, Nat.zero_add] at hrun
  refine ⟨rejected, last, after, hcalls, by omega, honce, fun answer hanswer => ?_, hrun⟩
  exact (hstops answer hanswer).imp_right fun h => h.imp_right fun hleft => by omega

/-- A service that answers with an unfinished sum and then with the whole of it. -/
def sumInTwo : World where
  scripts := { openAi := ⟨[.ok ⟨[some "3 +"]⟩, .ok ⟨[some "3 + 4"]⟩], .ok ⟨[none]⟩⟩ }

theorem translateWithin_calls_secondAnswer : (1 : Int) ≤ 3 ∧
    ∃ rejected last after,
      (OpenAi.translator [] []).Calls "three and four" [] sumInTwo rejected last
        (((OpenAi.translator [] []).translateWithin 3 "three and four").requests sumInTwo) after ∧
      rejected.length < (3 : Int) ∧
      ((OpenAi.translator [] []).deterministic = true → rejected = []) ∧
      (∀ answer, last = .ok answer → expressionErrors answer = [] ∨
        (OpenAi.translator [] []).deterministic = true ∨ rejected.length + 1 = (3 : Int)) ∧
      ((OpenAi.translator [] []).translateWithin 3 "three and four").run sumInTwo =
        (ending (rejected.length + 1) last, after) :=
  ⟨by decide, translateWithin_calls _ _ _ (by decide)⟩

end Attempts

end Translator

end Reckoner
