import Mathlib.Data.List.TakeWhile
import Reckoner.Proofs.Text.Runs
import Reckoner.Text.Blank
import Reckoner.Text.Lines

/-! The first line of a text, and the white space at the ends of one. -/

namespace Reckoner

section Lines

variable {line s rest : Text}

theorem linesFrom_append (start : Text) (h : ∀ c ∈ line, isLineEnd c = false) (rest : Text) :
    Text.linesFrom start (line ++ rest) = Text.linesFrom (line.reverse ++ start) rest := by
  induction line generalizing start with
  | nil => rfl
  | cons c line ih =>
    obtain ⟨hc, hline⟩ := List.forall_mem_cons.mp h
    have hstep : Text.linesFrom start (c :: (line ++ rest)) =
        Text.linesFrom (c :: start) (line ++ rest) := by
      rw [Text.linesFrom.eq_def]
      split
      case h_1 heq => cases heq
      case h_2 heq =>
        obtain ⟨rfl, -⟩ := List.cons.inj heq
        exact absurd hc (by decide)
      case h_3 heq =>
        obtain ⟨rfl, rfl⟩ := List.cons.inj heq
        rw [hc]
        rfl
    rw [List.cons_append, hstep, ih (c :: start) hline, List.reverse_cons, List.append_assoc]
    rfl

/-- Where a line end or nothing follows, the characters before it are the first line. -/
theorem exists_lines (h : ∀ c ∈ line, isLineEnd c = false) (hne : line ≠ [])
    (hrest : ∀ c ∈ rest.head?, isLineEnd c = true) :
    ∃ more, Text.lines (line ++ rest) = line :: more := by
  rw [Text.lines, linesFrom_append [] h, Text.linesFrom.eq_def]
  split
  case h_1 => exact ⟨[], by simp [hne]⟩
  case h_2 => exact ⟨_, by rw [List.append_nil, List.reverse_reverse]⟩
  case h_3 c more _ =>
    rw [hrest c rfl]
    exact ⟨_, by rw [if_pos rfl, List.append_nil, List.reverse_reverse]⟩

theorem lines_eq_singleton (h : ∀ c ∈ s, isLineEnd c = false) (hne : s ≠ []) : s.lines = [s] := by
  have happend := linesFrom_append [] h []
  rw [List.append_nil] at happend
  simp [Text.lines, happend, Text.linesFrom, hne]

end Lines

section Ends

variable {p : Char → Bool} {lead mid trail : Text}

/-- What is trimmed are the characters at the two ends that satisfy `p`. -/
theorem trimmed_append (hlead : ∀ c ∈ lead, p c = true) (htrail : ∀ c ∈ trail, p c = true)
    (hfirst : ∀ c ∈ mid.head?, p c = false) (hlast : ∀ c ∈ mid.getLast?, p c = false) :
    Text.trimmed p (lead ++ (mid ++ trail)) = mid := by
  cases mid with
  | nil =>
    have hall : (lead ++ trail).dropWhile p = [] :=
      List.dropWhile_eq_nil_iff.mpr (List.forall_mem_append.mpr ⟨hlead, htrail⟩)
    rw [Text.trimmed, List.nil_append, hall]
    rfl
  | cons c mid =>
    have hhead : ∀ d ∈ (c :: mid ++ trail).head?, p d = false := hfirst
    have hdrop := (takeWhile_run hlead hhead).2
    have hback : (trail.reverse ++ (c :: mid).reverse).dropWhile p = (c :: mid).reverse :=
      (takeWhile_run (fun d hd => htrail d (List.mem_reverse.mp hd))
        fun d hd => hlast d (by rwa [List.head?_reverse] at hd)).2
    rw [Text.trimmed, hdrop, List.reverse_append, hback, List.reverse_reverse]

theorem trimmed_append_right (htrail : ∀ c ∈ trail, p c = true)
    (hfirst : ∀ c ∈ mid.head?, p c = false) (hlast : ∀ c ∈ mid.getLast?, p c = false) :
    Text.trimmed p (mid ++ trail) = mid :=
  trimmed_append (List.forall_mem_nil _) htrail hfirst hlast

theorem trimmed_self (hfirst : ∀ c ∈ mid.head?, p c = false)
    (hlast : ∀ c ∈ mid.getLast?, p c = false) : Text.trimmed p mid = mid := by
  have htrimmed := trimmed_append_right (List.forall_mem_nil _) hfirst hlast
  rwa [List.append_nil] at htrimmed

theorem trimmed_eq_self {s : Text} (h : ∀ c ∈ s, p c = false) : s.trimmed p = s :=
  trimmed_self (fun c hc => h c (List.mem_of_mem_head? hc))
    fun c hc => h c (List.mem_of_mem_getLast? hc)

theorem exists_trailing (p : Char → Bool) (s : Text) : ∃ kept trail, s = kept ++ trail ∧
    (∀ c ∈ trail, p c = true) ∧ ∀ c ∈ kept.getLast?, p c = false := by
  refine ⟨(s.reverse.dropWhile p).reverse, (s.reverse.takeWhile p).reverse, ?_, fun c hc => ?_,
    fun c hc => ?_⟩
  · rw [← List.reverse_append, List.takeWhile_append_dropWhile, List.reverse_reverse]
  · exact List.mem_takeWhile_imp (List.mem_reverse.mp hc)
  · rw [List.getLast?_reverse] at hc
    exact head?_dropWhile_eq_false c hc

theorem exists_skipBlanks (s : Text) :
    ∃ blanks, s = blanks ++ s.skipBlanks ∧ ∀ c ∈ blanks, isBlank c = true :=
  ⟨s.takeWhile isBlank, List.takeWhile_append_dropWhile.symm, fun _ hc => List.mem_takeWhile_imp hc⟩

theorem skipBlanks_suffix (s : Text) : s.skipBlanks <:+ s := List.dropWhile_suffix _

/-- A character that does not satisfy `p` ends the run in front of it. -/
theorem takeWhile_append_stop {c : Char} (hc : p c = false) (s rest : Text) :
    (s ++ c :: rest).takeWhile p = s.takeWhile p := by
  induction s with
  | nil => simp [hc]
  | cons d s ih =>
    rw [List.cons_append, List.takeWhile_cons, List.takeWhile_cons, ih]

end Ends

end Reckoner
