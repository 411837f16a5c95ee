import Mathlib.Data.List.Forall2
import Reckoner.Expression.Value
import Reckoner.Proofs.Results

/-! Expression trees.  A postfix form is the post-order of a tree, and the stack machine that takes
its items one by one computes what evaluation of the tree does: `valueOf_iff_tree` says so of every
list of tokens.  In one direction, the items of a subtree put its value on any stack.  In the other,
`assemble` runs the machine on trees in place of values, so that a list of tokens that leaves one
value is the post-order of the one tree that it assembles. -/

namespace Reckoner

/-- An expression as a tree.  Each node has the place of its token. -/
inductive Tree
  | number (value : Double) (position : Int)
  | binary (op : Operator) (position : Int) (left right : Tree)
  | suffixed (mark : Suffix) (position : Int) (operand : Tree)
  | negated (position : Int) (operand : Tree)
  | call (word : Text) (position : Int) (argument : Tree)
  deriving DecidableEq, Repr

namespace Tree

/-- The tokens of a tree, those of the operands before that of their operator. -/
def postorder : Tree → List Token
  | number value position => [⟨.number value, position⟩]
  | binary op position left right =>
    left.postorder ++ right.postorder ++ [⟨.operator op, position⟩]
  | suffixed mark position operand => operand.postorder ++ [⟨.suffix mark, position⟩]
  | negated position operand => operand.postorder ++ [⟨.negation, position⟩]
  | call word position argument => argument.postorder ++ [⟨.name word, position⟩]

/-- The value of a tree, the left operand before the right one.  Literals and the results of
operators, suffixes and functions must be finite, and functions must be known. -/
def eval (degrees : Bool) : Tree → Except EvalError Double
  | number value _ => finite value
  | binary op _ left right => do
    let a ← left.eval degrees
    let b ← right.eval degrees
    finiteResult (op.apply a b)
  | suffixed mark _ operand => do
    let a ← operand.eval degrees
    mark.apply a
  | negated _ operand => do
    let a ← operand.eval degrees
    return a.neg
  | call word _ argument => do
    let a ← argument.eval degrees
    match Function.named? word with
    | some f => f.call degrees a
    | none => throw (.unknownFunction word)

/-- The subtrees of a tree in post-order, the tree itself last. -/
def subtrees : Tree → List Tree
  | number value position => [number value position]
  | binary op position left right =>
    left.subtrees ++ right.subtrees ++ [binary op position left right]
  | suffixed mark position operand => operand.subtrees ++ [suffixed mark position operand]
  | negated position operand => operand.subtrees ++ [negated position operand]
  | call word position argument => argument.subtrees ++ [call word position argument]

/-- The error of a subtree that has no value. -/
def failure? (degrees : Bool) (t : Tree) : Option EvalError :=
  match t.eval degrees with
  | .error error => some error
  | .ok _ => none

/-- The error of the first node in post-order that has no value. -/
def firstFailure? (degrees : Bool) (t : Tree) : Option EvalError :=
  t.subtrees.findSome? (failure? degrees)

variable {degrees : Bool} {t : Tree}

theorem failure?_eq_some {error : EvalError} :
    t.failure? degrees = some error ↔ t.eval degrees = .error error := by
  rw [failure?]
  cases t.eval degrees <;> simp

/-- A node whose operand fails, fails with it, so the failure of the operand is the first. -/
theorem failure?_or {operand : Tree} (h : ∀ error, operand.eval degrees = .error error →
    t.eval degrees = .error error) :
    (operand.failure? degrees).or (t.failure? degrees) = t.failure? degrees := by
  cases ho : operand.eval degrees with
  | error error => simp [failure?, ho, h error ho]
  | ok value => simp [failure?, ho]

/-- A tree fails as the first of its nodes does that has no value. -/
theorem firstFailure?_eq (degrees : Bool) (t : Tree) :
    t.firstFailure? degrees = t.failure? degrees := by
  induction t with
  | number value position => simp [firstFailure?, subtrees]
  | binary op position left right ihl ihr =>
    rw [firstFailure?] at ihl ihr ⊢
    simp only [subtrees, List.findSome?_append, ihl, ihr, List.findSome?_singleton]
    cases hl : left.eval degrees with
    | error error => simp [failure?, eval, hl, bind, Except.bind]
    | ok a =>
      rw [failure?, hl, Option.none_or]
      exact failure?_or fun error hr => by simp [eval, hl, hr, bind, Except.bind]
  | suffixed mark position operand ih | negated position operand ih
  | call word position operand ih =>
    rw [firstFailure?] at ih ⊢
    simp only [subtrees, List.findSome?_append, ih, List.findSome?_singleton]
    exact failure?_or fun error ho => by simp [eval, ho, bind, Except.bind]

end Tree

/-! ### The items of a tree on a stack -/

theorem applyTokens_cons (degrees : Bool) (stack : List Double) (token : Token)
    (tokens : List Token) :
    applyTokens degrees stack (token :: tokens) =
      applyItem degrees stack token.item >>= fun stack' => applyTokens degrees stack' tokens := by
  simp [applyTokens]

/-- The items of a tree put its value on the stack, or fail as the tree does. -/
theorem applyTokens_postorder (degrees : Bool) (t : Tree) (stack : List Double)
    (rest : List Token) :
    applyTokens degrees stack (t.postorder ++ rest) =
      t.eval degrees >>= fun value => applyTokens degrees (value :: stack) rest := by
  induction t generalizing stack rest with
  | number value position =>
    rw [Tree.postorder, List.singleton_append, applyTokens_cons]
    simp [applyItem, Tree.eval]
  | binary op position left right ihl ihr =>
    simp only [Tree.postorder, List.append_assoc, ihl, ihr, List.singleton_append,
      applyTokens_cons]
    simp [applyItem, Tree.eval]
  | suffixed mark position operand ih =>
    simp only [Tree.postorder, List.append_assoc, ih, List.singleton_append, applyTokens_cons]
    simp [applyItem, Tree.eval]
  | negated position operand ih =>
    simp only [Tree.postorder, List.append_assoc, ih, List.singleton_append, applyTokens_cons]
    simp only [Tree.eval, bind_assoc, pure_bind]
    rfl
  | call word position argument ih =>
    simp only [Tree.postorder, List.append_assoc, ih, List.singleton_append, applyTokens_cons]
    simp only [applyItem, Tree.eval, bind_assoc]
    congr 1
    funext a
    cases Function.named? word with
    | none => rfl
    | some f => simp

theorem valueOf_postorder (degrees : Bool) (t : Tree) :
    valueOf degrees t.postorder = t.eval degrees := by
  have h := applyTokens_postorder degrees t [] []
  rw [List.append_nil] at h
  rw [valueOf, h]
  cases t.eval degrees <;> rfl

/-! ### The tree of a list of tokens -/

namespace Tree

/-- The stack of trees after a token: the machine with nodes in place of operations. -/
def shift (stack : List Tree) (token : Token) : Option (List Tree) :=
  match token.item, stack with
  | .number value, stack => some (number value token.position :: stack)
  | .operator op, right :: left :: stack => some (binary op token.position left right :: stack)
  | .suffix mark, operand :: stack => some (suffixed mark token.position operand :: stack)
  | .negation, operand :: stack => some (negated token.position operand :: stack)
  | .name word, argument :: stack => some (call word token.position argument :: stack)
  | _, _ => none

/-- The stack of trees after the tokens. -/
def assemble (stack : List Tree) (tokens : List Token) : Option (List Tree) :=
  tokens.foldlM shift stack

/-- The tokens of a stack of trees, from the bottom up. -/
def spelled (stack : List Tree) : List Token := stack.reverse.flatMap postorder

theorem assemble_cons (stack : List Tree) (token : Token) (tokens : List Token) :
    assemble stack (token :: tokens) = (shift stack token).bind (assemble · tokens) := by
  simp [assemble]

theorem assemble_postorder (t : Tree) (stack : List Tree) (rest : List Token) :
    assemble stack (t.postorder ++ rest) = assemble (t :: stack) rest := by
  induction t generalizing stack rest with
  | number value position => simp [postorder, assemble_cons, shift]
  | binary op position left right ihl ihr =>
    simp only [postorder, List.append_assoc, ihl, ihr]
    simp [assemble_cons, shift]
  | suffixed mark position operand ih | negated position operand ih
  | call word position operand ih =>
    simp only [postorder, List.append_assoc, ih]
    simp [assemble_cons, shift]

theorem postorder_injective : Function.Injective postorder := by
  intro t u h
  have ht := assemble_postorder t [] []
  have hu := assemble_postorder u [] []
  rw [h, hu] at ht
  simpa [assemble, eq_comm] using ht

theorem spelled_shift {stack stack' : List Tree} {token : Token}
    (h : shift stack token = some stack') : spelled stack' = spelled stack ++ [token] := by
  obtain ⟨item, position⟩ := token
  rw [shift.eq_def] at h
  split at h
  all_goals cases h
  all_goals simp_all [spelled, postorder]

theorem push_eq_ok {r : Except EvalError Double} {rest values : List Double}
    (h : (do return (← r) :: rest) = .ok values) : ∃ v, r = .ok v ∧ v :: rest = values := by
  obtain ⟨v, hr, hv⟩ := bind_eq_ok h
  exact ⟨v, hr, Except.ok.inj hv⟩

/-- The trees of a stack have the values of a stack of operands. -/
abbrev Values (degrees : Bool) : List Tree → List Double → Prop :=
  List.Forall₂ fun t value => t.eval degrees = .ok value

theorem exists_shift {trees : List Tree} {values values' : List Double} {token : Token}
    (hv : Values degrees trees values) (h : applyItem degrees values token.item = .ok values') :
    ∃ trees', shift trees token = some trees' ∧ Values degrees trees' values' := by
  obtain ⟨item, position⟩ := token
  cases item with
  | number value =>
    obtain ⟨v, hf, rfl⟩ := push_eq_ok h
    exact ⟨_, rfl, .cons hf hv⟩
  | operator op =>
    match hv with
    | .nil | .cons _ .nil => cases h
    | .cons hb (.cons ha hrest) =>
      obtain ⟨v, hf, rfl⟩ := push_eq_ok h
      refine ⟨_, rfl, .cons ?_ hrest⟩
      simp only [eval, ha, hb]
      exact hf
  | suffix mark =>
    match hv with
    | .nil => cases h
    | .cons ha hrest =>
      obtain ⟨v, hf, rfl⟩ := push_eq_ok h
      refine ⟨_, rfl, .cons ?_ hrest⟩
      simp only [eval, ha]
      exact hf
  | negation =>
    match hv with
    | .nil => cases h
    | .cons ha hrest =>
      obtain rfl := Except.ok.inj h
      refine ⟨_, rfl, .cons ?_ hrest⟩
      simp only [eval, ha]
      rfl
  | name word =>
    cases hf : Function.named? word with
    | none => simp [applyItem, hf] at h
    | some f =>
      match hv with
      | .nil => simp [applyItem, hf] at h
      | .cons ha hrest =>
        simp only [applyItem, hf] at h
        obtain ⟨v, hc, rfl⟩ := push_eq_ok h
        refine ⟨_, rfl, .cons ?_ hrest⟩
        simp only [eval, ha, bind, Except.bind, hf]
        exact hc
  | opening | closing | comma => cases h

/-- Where the machine runs on values, it runs on trees, and the trees spell the tokens. -/
theorem exists_assemble {trees : List Tree} {values values' : List Double} {tokens : List Token}
    (hv : Values degrees trees values) (h : applyTokens degrees values tokens = .ok values') :
    ∃ trees', Values degrees trees' values' ∧ spelled trees' = spelled trees ++ tokens := by
  induction tokens generalizing trees values with
  | nil =>
    obtain rfl := Except.ok.inj h
    exact ⟨trees, hv, (List.append_nil _).symm⟩
  | cons token tokens ih =>
    rw [applyTokens_cons] at h
    obtain ⟨values1, hitem, hrest⟩ := bind_eq_ok h
    obtain ⟨trees1, hshift, hv1⟩ := exists_shift hv hitem
    obtain ⟨trees', hv', hs⟩ := ih hv1 hrest
    refine ⟨trees', hv', ?_⟩
    rw [hs, spelled_shift hshift, List.append_assoc, List.singleton_append]

/-- A list of tokens with a value is the post-order of a tree with this value. -/
theorem exists_of_valueOf {tokens : List Token} {value : Double}
    (h : valueOf degrees tokens = .ok value) :
    ∃ t : Tree, t.postorder = tokens ∧ t.eval degrees = .ok value := by
  obtain ⟨values, happly, hone⟩ := bind_eq_ok h
  obtain ⟨trees, hv, hs⟩ := exists_assemble .nil happly
  match values, hv with
  | [v], .cons (a := t) ht .nil =>
    obtain rfl : v = value := Except.ok.inj hone
    refine ⟨t, ?_, ht⟩
    simpa [spelled] using hs
  | [], _ | _ :: _ :: _, _ => cases hone

end Tree

/-- A list of tokens has a value just where it is the post-order of a tree that has this value, and
then of no other tree.  Where the tree has no value, the tokens fail as the first node does that has
none.  The tokens of no tree have no value. -/
theorem valueOf_iff_tree (degrees : Bool) (tokens : List Token) :
    (∀ value, valueOf degrees tokens = .ok value ↔
      ∃ t : Tree, t.postorder = tokens ∧ (∀ u : Tree, u.postorder = tokens → u = t) ∧
        t.eval degrees = .ok value) ∧
    (∀ t : Tree, t.postorder = tokens → ∀ error, t.eval degrees = .error error →
      t.firstFailure? degrees = some error ∧ valueOf degrees tokens = .error error) ∧
    ((∀ t : Tree, t.postorder ≠ tokens) → ∃ error, valueOf degrees tokens = .error error) := by
  refine ⟨fun value => ⟨fun h => ?_, ?_⟩, ?_, fun hno => ?_⟩
  · obtain ⟨t, rfl, ht⟩ := Tree.exists_of_valueOf h
    exact ⟨t, rfl, fun u hu => Tree.postorder_injective hu, ht⟩
  · rintro ⟨t, rfl, -, ht⟩
    rw [valueOf_postorder, ht]
  · rintro t rfl error ht
    refine ⟨?_, by rw [valueOf_postorder, ht]⟩
    rw [Tree.firstFailure?_eq, Tree.failure?_eq_some]
    exact ht
  · cases h : valueOf degrees tokens with
    | error error => exact ⟨error, rfl⟩
    | ok value =>
      obtain ⟨t, ht, -⟩ := Tree.exists_of_valueOf h
      exact absurd ht (hno t)

end Reckoner
