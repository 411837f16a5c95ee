/-! Results: what the result of a computation says of its parts. -/

namespace Reckoner

theorem map_eq_ok {ε α β : Type} {r : Except ε α} {f : α → β} {b : β} (h : r.map f = .ok b) :
    ∃ a, r = .ok a ∧ f a = b := by
  cases r with
  | error => cases h
  | ok a => exact ⟨a, rfl, Except.ok.inj h⟩

theorem map_eq_error {ε α β : Type} {r : Except ε α} {f : α → β} {e : ε}
    (h : r.map f = .error e) : r = .error e := by
  cases r with
  | error =>
    cases h
    rfl
  | ok => cases h

theorem bind_eq_ok {ε α β : Type} {r : Except ε α} {f : α → Except ε β} {b : β}
    (h : r >>= f = .ok b) : ∃ a, r = .ok a ∧ f a = .ok b := by
  cases r with
  | error => cases h
  | ok a => exact ⟨a, rfl, h⟩

/-- A fold fails at the first item at which a step fails. -/
theorem foldlM_eq_error {ε α β : Type} {f : β → α → Except ε β} {items : List α} {start : β} {e : ε} :
    items.foldlM f start = .error e ↔ ∃ before item after between, items = before ++ item :: after ∧
      before.foldlM f start = .ok between ∧ f between item = .error e := by
  constructor
  · intro h
    induction items generalizing start with
    | nil => cases h
    | cons item items ih =>
      rw [List.foldlM_cons] at h
      cases hitem : f start item with
      | error e' =>
        rw [hitem] at h
        cases h
        exact ⟨[], item, items, start, rfl, rfl, hitem⟩
      | ok next =>
        rw [hitem] at h
        obtain ⟨before, stopped, after, between, rfl, hbefore, hstopped⟩ := ih h
        refine ⟨item :: before, stopped, after, between, rfl, ?_, hstopped⟩
        rw [List.foldlM_cons, hitem]
        exact hbefore
  · rintro ⟨before, item, after, between, rfl, hbefore, hitem⟩
    rw [List.foldlM_append, hbefore]
    change List.foldlM f between (item :: after) = _
    rw [List.foldlM_cons, hitem]
    rfl

end Reckoner
