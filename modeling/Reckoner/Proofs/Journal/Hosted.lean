import Reckoner.Proofs.Journal.Saving
import Reckoner.Proofs.Program.Asking
import Reckoner.Proofs.Program.Hosts

/-! Journals on a system that may refuse what is asked of it.  A journal that has been opened holds
entries that can be kept, at a path that the system knows how to look for; saving it then succeeds or
fails as an operation of a journal, and nothing else can happen. -/

namespace Reckoner

open Program

variable {host : Host} {world after : World} {journal : Journal} {path : Path}

namespace Journal

/-! ### Opening -/

theorem yields_entriesAt (path : Path) :
    (entriesAt path).Yields fun entries => ∀ e ∈ entries, e.Keepable := by
  apply yields_bind
  intro reply
  cases reply with
  | error fault =>
    cases fault with
    | missing => exact List.forall_mem_nil _
    | _ => exact yields_bind fun _ => List.forall_mem_nil _
  | ok text =>
    dsimp only
    split
    case h_1 entries hread => exact Entry.keepable_of_readAll hread
    case h_2 => trivial
    case h_3 => trivial
    case h_4 => exact yields_bind fun _ => List.forall_mem_nil _
    case h_5 => exact yields_bind fun _ => List.forall_mem_nil _

/-- What an opened journal is like. -/
structure Sound (path : Path) (journal : Journal) : Prop where
  path : journal.path = path
  entries : ∀ e ∈ journal.entries, e.Keepable

theorem sound_of_runOn_opened {capacity : Int}
    (h : (opened path capacity).runOn host world = (.ok journal, after)) : journal.Sound path := by
  obtain ⟨entries, between, hentries, h⟩ := runOn_bind_eq_ok h
  obtain rfl := Except.ok.inj (Prod.mk.inj h).1
  have hkeepable := (yields_entriesAt path).runOn hentries
  exact ⟨rfl, fun e he => hkeepable e (mem_of_mem_upTo he)⟩

theorem hasZero_of_runOn_opened (hhost : host.Honest) {capacity : Int}
    (h : (opened path capacity).runOn host world = (.ok journal, after)) :
    path.hasZero = false := by
  obtain ⟨entries, _, hentries, -⟩ := runOn_bind_eq_ok h
  obtain ⟨text, _, htext, -⟩ := runOn_bind_eq_ok hentries
  obtain ⟨reply, _, hread, -⟩ := runOn_bind_eq_ok htext
  exact hasZero_of_runOn_read hhost hread

/-! ### Saving -/

/-- A journal is saved, or that fails because its file cannot be written.  Then nothing has changed
but that folders may have been made. -/
theorem runOn_save_eq (hhost : host.Honest) (hzero : journal.path.hasZero = false)
    (htimes : ∀ e ∈ journal.entries, (Text.ofInt? e.time).isSome = true) (world : World) :
    (∃ disk, journal.save.runOn host world = (.ok (), { world with disk }) ∧
      disk.read world.folder journal.path =
        .ok (Utf8.encode (Entry.writeAll .compact journal.entries))) ∨
    journal.save.runOn host world = (.error (.failure (unwritable journal.path)),
      (host world (.makeFolders journal.path.parent)).2) := by
  have htext := (Entry.writeAll?_eq_some .compact).mpr ⟨htimes, rfl⟩
  obtain ⟨disk, hmade, -⟩ := (hhost world (.makeFolders journal.path.parent)).made
  rw [save, runOn_bind_of_ok (runOn_makeFolders hhost (Path.hasZero_parent hzero) world), hmade]
  generalize (host world (.makeFolders journal.path.parent)).1 = reply
  cases reply with
  | error fault => exact .inr rfl
  | ok =>
    have hwritten : (journal.written .compact).runOn host { world with disk } =
        (.ok (Entry.writeAll .compact journal.entries), { world with disk }) := by
      rw [written, htext]
      rfl
    dsimp only
    rw [runOn_bind_of_ok hwritten, runOn_bind_of_ok (runOn_write hhost hzero _ _)]
    rcases (hhost { world with disk } (.write journal.path _)).wrote with
      ⟨disk', hwrite, hmet⟩ | ⟨fault, hmet⟩
    · rw [hmet]
      exact .inl ⟨disk', rfl, Disk.read_of_write hwrite⟩
    · rw [hmet]
      exact .inr rfl

end Journal

end Reckoner
