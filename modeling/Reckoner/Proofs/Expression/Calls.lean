import Reckoner.Proofs.Expression.Parentheses
import Reckoner.Proofs.Expression.Spacing

/-! Calls with the number bare and in parentheses.  Between a function and what follows the number a
parenthesis decides who goes first; one call after the other is put into parentheses, and each time
the functions and negations stand behind fewer other tokens, or behind as many. -/

namespace Reckoner

section Conversion

variable {before tokens grouped output : List Token} {afters : List (List Token)}

/-! ### Calls among tokens -/

/-- The tokens of a text, those of the same text with the bare numbers of some calls in parentheses,
and the tokens behind each of these calls. -/
inductive Calls : (tokens grouped : List Token) → (afters : List (List Token)) → Prop
  | nil : Calls [] [] []
  | keep {token : Token} {tokens grouped : List Token} {afters : List (List Token)}
      (h : Calls tokens grouped afters) : Calls (token :: tokens) (token :: grouped) afters
  | call {f : Function} {value : Double} {first place : ℤ} {tokens grouped : List Token}
      {afters : List (List Token)} (h : Calls tokens grouped afters) :
      Calls (⟨.name f.name, place⟩ :: ⟨.number value, first⟩ :: tokens)
        (⟨.name f.name, place⟩ :: ⟨.opening, -1⟩ :: ⟨.number value, first⟩ :: ⟨.closing, -1⟩ ::
          grouped) (tokens :: afters)

theorem constant?_name (f : Function) : constant? f.name = none := by
  cases f <;> decide

/-- The number of one call in parentheses: what follows the call decides whether the function still
waits for it. -/
theorem exists_call {f : Function} {value : Double} {first place : ℤ}
    (h : toPostfix (before ++ ⟨.name f.name, place⟩ :: ⟨.number value, first⟩ :: tokens) =
      .ok output) :
    ∃ output', toPostfix (before ++ ⟨.name f.name, place⟩ :: ⟨.opening, -1⟩ ::
        ⟨.number value, first⟩ :: ⟨.closing, -1⟩ :: tokens) = .ok output' ∧
      delays output' ≤ delays output ∧
      (tokens.head?.all (·.item.releases) = true → output' = output) ∧
      (tokens.head?.any (·.item.goesFirst) = true → delays output' < delays output) := by
  obtain ⟨out, stack, previous, more, hsteps, hmore, rfl⟩ := exists_steps h
  have hname : Step stack previous ⟨.name f.name, place⟩ [] (⟨.name f.name, place⟩ :: stack) :=
    .function (constant?_name f)
  rw [hname.toPostfixFrom_cons, map_nil_append] at hmore
  obtain ⟨more', hmore', -, hother⟩ := exists_group (-1) (-1) hmore
  obtain ⟨early, late, -, rfl, rfl, hahead, hreleases, hfirst⟩ := hother _ _ rfl rfl
  have htop : Token.isPrefixed ⟨.name f.name, place⟩ = true := rfl
  refine ⟨out ++ ⟨.number value, first⟩ :: ⟨.name f.name, place⟩ :: early, ?_, ?_, ?_, ?_⟩
  · rw [toPostfix, hsteps.reads, hname.toPostfixFrom_cons, map_nil_append, hmore']
    rfl
  · rw [List.append_cons, List.append_cons out _ late]
    exact hahead.delays_le htop _
  · intro hnext
    rw [hreleases hnext]
  · intro hnext
    rw [List.append_cons, List.append_cons out _ late]
    exact (hfirst hnext).delays_le htop _

/-- Calls with their numbers in parentheses have a postfix form where they have one without. -/
theorem Calls.toPostfix (h : Calls tokens grouped afters) (before : List Token)
    (ho : toPostfix (before ++ tokens) = .ok output) :
    ∃ output', Reckoner.toPostfix (before ++ grouped) = .ok output' ∧
      delays output' ≤ delays output ∧
      ((∀ after ∈ afters, after.head?.all (·.item.releases) = true) → output' = output) ∧
      ((∃ after ∈ afters, after.head?.any (·.item.goesFirst) = true) →
        delays output' < delays output) := by
  -- One call after the other, from the left: those that follow are still as they were.
  induction h generalizing before output with
  | nil => exact ⟨output, ho, le_rfl, fun _ => rfl, nofun⟩
  | @keep token tokens grouped afters _ ih =>
    rw [List.append_cons] at ho ⊢
    exact ih (before ++ [token]) ho
  | @call f value first place tokens grouped afters _ ih =>
    obtain ⟨between, hbetween, hle, hsame, hlt⟩ := exists_call ho
    rw [show before ++ ⟨.name f.name, place⟩ :: ⟨.opening, -1⟩ :: ⟨.number value, first⟩ ::
      ⟨.closing, -1⟩ :: tokens = before ++ [⟨.name f.name, place⟩, ⟨.opening, -1⟩,
        ⟨.number value, first⟩, ⟨.closing, -1⟩] ++ tokens by simp] at hbetween
    obtain ⟨output', houtput', hle', hsame', hlt'⟩ := ih _ hbetween
    refine ⟨output', by simpa using houtput', hle'.trans hle, fun hall => ?_, fun hsome => ?_⟩
    · obtain ⟨hfirst, hall⟩ := List.forall_mem_cons.mp hall
      rw [hsame' hall, hsame hfirst]
    · obtain ⟨after, hafter, hfirst⟩ := hsome
      rcases List.mem_cons.mp hafter with rfl | hafter
      · exact hle'.trans_lt (hlt hfirst)
      · exact (hlt' ⟨after, hafter, hfirst⟩).trans_le hle

end Conversion

section Scanning

variable {position : ℕ} {s : Text} {tokens : List Token}

/-! ### What follows a call -/

/-- The first item of a text that has tokens is its first sign, if it starts with one. -/
theorem Scanned.head?_items (h : Scanned position s tokens) :
    ((normalized s).head? = none → tokens = []) ∧
      ∀ c ∈ (normalized s).head?, ∀ item, Item.ofSign? c = some item →
        tokens.head?.map (·.item) = some item := by
  have hrun {c : Char} {run s : Text} {tokens : List Token} (hc : joins c = true)
      (hsign : Item.ofSign? c = none) : ((normalized (c :: run ++ s)).head? = none → tokens = []) ∧
        ∀ d ∈ (normalized (c :: run ++ s)).head?, ∀ item, Item.ofSign? d = some item →
          tokens.head?.map (·.item) = some item := by
    rw [List.cons_append, normalized_cons_of_joins hc]
    refine ⟨nofun, ?_⟩
    rintro _ ⟨⟩ item hitem
    rw [hsign] at hitem
    cases hitem
  induction h with
  | nil => exact ⟨fun _ => rfl, nofun⟩
  | blank hb _ ih => rwa [normalized_cons, if_pos hb]
  | @sign position c s tokens item hsign hrest =>
    rw [normalized_cons, if_neg (by simp [(sign_of_ofSign? hsign).1])]
    refine ⟨nofun, ?_⟩
    rintro _ ⟨⟩ item' hitem
    rw [← hitem, hsign]
    rfl
  | number hn =>
    have hc := isNumeral_of_startsNumber hn
    refine hrun (joins_of_isNumeral hc) (Option.eq_none_iff_forall_ne_some.mpr fun item hsign => ?_)
    rw [(sign_of_ofSign? hsign).2.1] at hc
    cases hc
  | name ha =>
    refine hrun (joins_of_isAlphanum (isAlphanum_of_isAlpha ha))
      (Option.eq_none_iff_forall_ne_some.mpr fun item hsign => ?_)
    rw [(sign_of_ofSign? hsign).2.2.1] at ha
    cases ha

/-- The end of a text and the signs that end an operand let go of a function that waits for it. -/
theorem Scanned.releases (h : Scanned position s tokens)
    (hs : ∀ c ∈ (normalized s).head?, c ∈ "),+-*/".toList) :
    tokens.head?.all (·.item.releases) = true := by
  have hreleases : "),+-*/".toList.all (fun c => (Item.ofSign? c).any Item.releases) = true := by
    decide
  obtain ⟨hnone, hsome⟩ := h.head?_items
  cases hc : (normalized s).head? with
  | none => rw [hnone hc]; rfl
  | some c =>
    obtain ⟨item, hitem, hitemReleases⟩ := Option.any_eq_true .. |>.mp
      (List.all_eq_true.mp hreleases c (hs c hc))
    obtain ⟨token, htoken, rfl⟩ := Option.map_eq_some_iff.mp (hsome c hc item hitem)
    rw [htoken]
    exact hitemReleases

/-- A power or a suffix behind an operand goes before a function that waits for it. -/
theorem Scanned.goesFirst (h : Scanned position s tokens)
    (hs : ∃ c ∈ (normalized s).head?, c ∈ "^!%".toList) :
    tokens.head?.any (·.item.goesFirst) = true := by
  have hfirst : "^!%".toList.all (fun c => (Item.ofSign? c).any Item.goesFirst) = true := by decide
  obtain ⟨c, hc, hsign⟩ := hs
  obtain ⟨item, hitem, hitemFirst⟩ := Option.any_eq_true .. |>.mp
    (List.all_eq_true.mp hfirst c hsign)
  obtain ⟨token, htoken, rfl⟩ := Option.map_eq_some_iff.mp (h.head?_items.2 c hc item hitem)
  rw [htoken]
  exact hitemFirst

end Scanning

end Reckoner
