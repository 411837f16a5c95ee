import Reckoner.Command.Arguments
import Reckoner.Proofs.Results

/-! Reading the words of a command line, word by word: what a word sets, it sets before the words
after it are read, and what stands after the end mark is never taken for an option. -/

namespace Reckoner

namespace Command

namespace Grammar

variable {σ : Type} {grammar : Grammar σ} {arguments arguments' result : σ} {word value : Text}
  {words : List Text}

/-! ### Reading a word -/

theorem splitAtMark_cons (h : word ≠ endMark) :
    splitAtMark (word :: words) = (word :: (splitAtMark words).1, (splitAtMark words).2) := by
  rw [splitAtMark, if_neg h]

theorem splitAtMark_append (words : List Text) :
    (splitAtMark words).1 ++ withMark (splitAtMark words).2 = words := by
  induction words with
  | nil => rfl
  | cons word words ih =>
    by_cases h : word = endMark
    · rw [splitAtMark, if_pos h, h]
      rfl
    · rw [splitAtMark_cons h, List.cons_append, ih]

theorem splitAtMark_append_mark (h : endMark ∉ words) (rest : List Text) :
    splitAtMark (words ++ endMark :: rest) = (words, some rest) := by
  induction words with
  | nil => rfl
  | cons word words ih =>
    obtain ⟨hword, hwords⟩ := not_or.mp (mt List.mem_cons.mpr h)
    rw [List.cons_append, splitAtMark_cons (Ne.symm hword), ih hwords]

theorem classify_of_head? (h : word.head? ≠ some '-') : grammar.classify word = .ok .operand := by
  rw [classify.eq_def]
  split
  · exact absurd rfl h
  · exact absurd rfl h
  · rfl

theorem closeRow_waiting (strays : Bool) : Progress.closeRow grammar ⟨arguments, .waiting, strays⟩ =
    ⟨arguments, .waiting, strays⟩ := rfl

/-- A flag is set before the words after it are read. -/
theorem of_read_flag {run : Setter σ} (hword : word ≠ endMark)
    (hclass : grammar.classify word = .ok (.options run))
    (h : grammar.read arguments (word :: words) = .ok result) :
    ∃ arguments', run arguments = .ok arguments' ∧ grammar.read arguments' words = .ok result := by
  rw [read, splitAtMark_cons hword] at h
  dsimp only at h
  rw [List.mapM_cons, hclass] at h
  cases hpairs : (splitAtMark words).1.mapM fun word => (grammar.classify word).map (word, ·) with
  | error stop =>
    rw [hpairs] at h
    cases h
  | ok pairs =>
    rw [hpairs] at h
    change readFrom grammar _ _ ((word, .options run) :: pairs) = _ at h
    rw [readFrom, closeRow_waiting] at h
    obtain ⟨arguments', hset, h⟩ := bind_eq_ok h
    refine ⟨arguments', hset, ?_⟩
    rw [read]
    dsimp only
    rw [hpairs]
    exact h

theorem of_read_set {set : σ → σ} (hword : word ≠ endMark)
    (hclass : grammar.classify word = .ok (.options fun s => .ok (set s)))
    (h : grammar.read arguments (word :: words) = .ok result) :
    grammar.read (set arguments) words = .ok result := by
  obtain ⟨arguments', hset, h⟩ := of_read_flag hword hclass h
  obtain rfl := Except.ok.inj hset
  exact h

/-- The value of an option is set before the words after it are read. -/
theorem of_read_value {set : Option Text → Setter σ} (hword : word ≠ endMark)
    (hclass : grammar.classify word = .ok (.value set))
    (h : grammar.read arguments (word :: value :: words) = .ok result) :
    ∃ arguments', set (some value) arguments = .ok arguments' ∧
      grammar.read arguments' words = .ok result := by
  rw [read, splitAtMark_cons hword] at h
  dsimp only at h
  rw [List.mapM_cons, hclass] at h
  -- The end mark, an option or a faulty word in the place of the value is misuse.
  by_cases hvalue : value = endMark
  · rw [splitAtMark, if_pos hvalue] at h
    cases h
  · rw [splitAtMark_cons hvalue] at h
    dsimp only at h
    rw [List.mapM_cons] at h
    cases hclass' : grammar.classify value with
    | error stop =>
      rw [hclass'] at h
      cases h
    | ok given =>
      rw [hclass'] at h
      cases hpairs : (splitAtMark words).1.mapM fun word => (grammar.classify word).map (word, ·) with
      | error stop =>
        rw [hpairs] at h
        cases h
      | ok pairs =>
        rw [hpairs] at h
        change readFrom grammar _ _ ((word, .value set) :: (value, given) :: pairs) = _ at h
        cases given with
        | operand =>
          rw [readFrom, closeRow_waiting] at h
          obtain ⟨arguments', hset, h⟩ := bind_eq_ok h
          refine ⟨arguments', hset, ?_⟩
          rw [read]
          dsimp only
          rw [hpairs]
          exact h
        | stray => cases h
        | options => cases h
        | value => cases h

theorem map_fst_of_mapM {pairs : List (Text × Word σ)}
    (h : (words.mapM fun word => (grammar.classify word).map (word, ·)) = .ok pairs) :
    pairs.map (·.1) = words := by
  induction words generalizing pairs with
  | nil => exact Except.ok.inj h ▸ rfl
  | cons word words ih =>
    rw [List.mapM_cons] at h
    obtain ⟨pair, hpair, h⟩ := bind_eq_ok h
    obtain ⟨more, hmore, h⟩ := bind_eq_ok h
    obtain ⟨given, -, rfl⟩ := map_eq_ok hpair
    obtain rfl := Except.ok.inj h
    rw [List.map_cons, ih hmore]

/-- All words after the name of a command belong to the command. -/
theorem of_read_command {run : Text → List Text → Setter σ}
    (hoperands : grammar.operands = .command run) (hword : word ≠ endMark)
    (hclass : grammar.classify word = .ok .operand)
    (h : grammar.read arguments (word :: words) = .ok result) :
    run word words arguments = .ok result := by
  rw [read, splitAtMark_cons hword] at h
  dsimp only at h
  rw [List.mapM_cons, hclass] at h
  obtain ⟨pairs, hpairs, h⟩ := bind_eq_ok h
  obtain ⟨pair, hpair, hpairs⟩ := bind_eq_ok hpairs
  obtain rfl := Except.ok.inj hpair
  obtain ⟨more, hmore, hpairs⟩ := bind_eq_ok hpairs
  obtain rfl := Except.ok.inj hpairs
  rw [readFrom, hoperands] at h
  dsimp only at h
  rw [map_fst_of_mapM hmore, splitAtMark_append] at h
  obtain ⟨arguments', hrun, h⟩ := bind_eq_ok h
  rw [hrun, ← h, Progress.finish, Progress.closeRow, hoperands]

/-! ### Words that are read -/

/-- What a flag sets, it sets before the words after it are read. -/
theorem read_flag {run : Setter σ} (hword : word ≠ endMark)
    (hclass : grammar.classify word = .ok (.options run)) (hset : run arguments = .ok arguments') :
    grammar.read arguments (word :: words) = grammar.read arguments' words := by
  rw [read, read, splitAtMark_cons hword]
  dsimp only
  rw [List.mapM_cons, hclass]
  cases (splitAtMark words).1.mapM fun word => (grammar.classify word).map (word, ·) with
  | error stop => rfl
  | ok pairs =>
    change readFrom grammar _ _ ((word, .options run) :: pairs) = readFrom grammar _ _ pairs
    rw [readFrom, closeRow_waiting, hset]
    rfl

theorem read_set {set : σ → σ} (hword : word ≠ endMark)
    (hclass : grammar.classify word = .ok (.options fun s => .ok (set s))) :
    grammar.read arguments (word :: words) = grammar.read (set arguments) words :=
  read_flag hword hclass rfl

theorem read_value {set : Option Text → Setter σ} (hword : word ≠ endMark)
    (hclass : grammar.classify word = .ok (.value set)) (hvalue : value.head? ≠ some '-')
    (hset : set (some value) arguments = .ok arguments') :
    grammar.read arguments (word :: value :: words) = grammar.read arguments' words := by
  have hmark : value ≠ endMark := by
    rintro rfl
    exact hvalue rfl
  rw [read, read, splitAtMark_cons hword, splitAtMark_cons hmark]
  dsimp only
  rw [List.mapM_cons, List.mapM_cons, hclass, classify_of_head? hvalue]
  cases (splitAtMark words).1.mapM fun word => (grammar.classify word).map (word, ·) with
  | error stop => rfl
  | ok pairs =>
    change readFrom grammar _ _ ((word, .value set) :: (value, .operand) :: pairs) =
      readFrom grammar _ _ pairs
    rw [readFrom, closeRow_waiting, hset]
    rfl

/-- Words after the end mark are operands, whatever they look like. -/
theorem read_rest {set : List Text → σ → σ} (hoperands : grammar.operands = .words set) (word : Text)
    (words : List Text) :
    grammar.read arguments (endMark :: word :: words) = .ok (set (word :: words) arguments) := by
  rw [read, splitAtMark, if_pos rfl]
  change readFrom grammar (some (word :: words)) ⟨arguments, .waiting, false⟩ [] = _
  simp [readFrom, Progress.addRest, Progress.finish, Progress.closeRow, hoperands]

/-- All words after the name of a command belong to the command. -/
theorem read_command {run : Text → List Text → Setter σ}
    (hoperands : grammar.operands = .command run) (hword : word.head? ≠ some '-')
    (hwords : ∀ other ∈ (splitAtMark words).1, ∃ given, grammar.classify other = .ok given)
    (hrun : run word words arguments = .ok result) :
    grammar.read arguments (word :: words) = .ok result := by
  have hmark : word ≠ endMark := by
    rintro rfl
    exact hword rfl
  have hpairs (before : List Text) (hbefore : ∀ other ∈ before, ∃ given,
      grammar.classify other = .ok given) : ∃ pairs,
      (before.mapM fun word => (grammar.classify word).map (word, ·)) = .ok pairs := by
    induction before with
    | nil => exact ⟨[], rfl⟩
    | cons other before ih =>
      obtain ⟨⟨given, hgiven⟩, hrest⟩ := List.forall_mem_cons.mp hbefore
      obtain ⟨pairs, hpairs⟩ := ih hrest
      exact ⟨(other, given) :: pairs, by rw [List.mapM_cons, hgiven, hpairs]; rfl⟩
  obtain ⟨pairs, hpairs⟩ := hpairs _ hwords
  rw [read, splitAtMark_cons hmark]
  dsimp only
  rw [List.mapM_cons, classify_of_head? hword, hpairs]
  change readFrom grammar _ _ ((word, .operand) :: pairs) = _
  rw [readFrom, hoperands]
  dsimp only
  rw [map_fst_of_mapM hpairs, splitAtMark_append, hrun]
  change Progress.finish grammar _ = _
  rw [Progress.finish, Progress.closeRow, hoperands]

/-- A flag that may be given. -/
theorem read_optional {ι : Type} {given : Option ι} {wordOf : ι → Text} {f : Option ι → σ}
    (hword : ∀ i, wordOf i ≠ endMark) (hset : ∀ i, ∃ run,
      grammar.classify (wordOf i) = .ok (.options run) ∧ run (f none) = .ok (f (some i))) :
    grammar.read (f none) ((given.map wordOf).toList ++ words) =
      grammar.read (f given) words := by
  cases given with
  | none => rfl
  | some i =>
    obtain ⟨run, hclass, hset⟩ := hset i
    exact read_flag (hword i) hclass hset

theorem read_when {given : Bool} {f : Bool → σ} (hword : word ≠ endMark) (hset : ∃ run,
    grammar.classify word = .ok (.options run) ∧ run (f false) = .ok (f true)) :
    grammar.read (f false) ((if given then [word] else []) ++ words) =
      grammar.read (f given) words := by
  cases given with
  | false => rfl
  | true =>
    obtain ⟨run, hclass, hset⟩ := hset
    exact read_flag hword hclass hset

end Grammar

end Command

end Reckoner
