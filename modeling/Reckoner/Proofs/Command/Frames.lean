import Reckoner.Proofs.Command.Steps
import Reckoner.Proofs.Journal.Hosted
import Reckoner.Proofs.Toolbox.Words

/-! What commands leave alone.  On a system that may refuse anything, a command changes no file but the
journal that its settings name, or the file to which it copies the journal; and a command that fails,
or that is to keep out of the journal, changes nothing at all. -/

namespace Reckoner

open Program

/-- A request by which nothing changes but the file at a path, and folders on the way to it. -/
def Request.keepsTo (path : Path) : Request → Prop
  | .write given _ => given = path
  | .makeFolders given => given = path.parent
  | .remove _ | .enter _ => False
  | _ => True

theorem World.Meets.written {world : World} {request : Request} {met : request.Reply × World}
    {path : Path} (h : world.Meets request met) (hrequest : request.keepsTo path) :
    met.2.folder = world.folder ∧ Disk.Written world.folder path world.disk met.2.disk := by
  refine ⟨h.folder fun given hgiven => ?_, ?_⟩
  · rw [hgiven] at hrequest
    exact hrequest
  · cases h with
    | usual =>
      cases request with
      | write given bytes =>
        cases hrequest
        dsimp only [World.reply]
        cases hwrite : world.disk.write world.folder path bytes with
        | ok disk => exact Disk.written_write hwrite
        | error fault => exact .refl _ _ _
      | makeFolders given =>
        cases hrequest
        exact (Disk.grown_makeFolders world.disk world.folder path.parent).written
      | remove => cases hrequest
      | enter => cases hrequest
      | _ => exact .refl _ _ _
    | makeFolders hrefuses hgrown =>
      cases hrequest
      exact hgrown.written
    | _ => exact .refl _ _ _

namespace Command

variable {host : Host} {world after : World} {settings : Settings} {common : CommonArguments}
  {unrecorded : Bool}

/-! ### Recording -/

/-- Whether results are recorded. -/
def recording (settings : Settings) (unrecorded : Bool) : Bool :=
  settings.journalEnabled && !unrecorded

/-- What a command has left that loads settings and records a result: all as it was, or, if results
are recorded, what has been written to the journal that the settings name. -/
inductive Leaves (host : Host) (common : CommonArguments) (unrecorded : Bool) (world : World)
    (ends : Prop) (disk : Disk) : Prop
  | spared (h : disk = world.disk) : Leaves host common unrecorded world ends disk
  | recorded {settings : Settings} {between : World}
    (hsettings : common.settings.runOn host world = (.ok settings, between))
    (hrecording : recording settings unrecorded = true)
    (hwritten : Disk.Written world.folder settings.journalPath world.disk disk) (hends : ends) :
    Leaves host common unrecorded world ends disk

theorem runOn_bind_disk {α β : Type} (hhost : host.Honest) {program : Program α}
    {next : α → Program β} (hnext : ∀ value, (next value).OnlyAsks)
    (h : (program.runOn host world).2.disk = world.disk) :
    ((program >>= next).runOn host world).2.disk = world.disk := by
  rcases hrun : program.runOn host world with ⟨fault | value, between⟩
  · rw [runOn_bind_of_error hrun, ← h, hrun]
  · rw [hrun] at h
    rw [runOn_bind_of_ok hrun]
    exact ((hnext value).runOn_alike hhost between).disk.trans h

theorem runOn_clear (hhost : host.Honest) (journal : Journal) (world : World) :
    (journal.clear.runOn host world).2.disk = world.disk ∨
      ∃ cleared between, journal.clear.runOn host world = (.ok cleared, between) ∧
        world.disk.remove world.folder journal.path = .ok between.disk := by
  rcases runOn_remove_cases hhost journal.path world with hspared | ⟨between, hrun, hremove⟩
  · left
    refine runOn_bind_disk hhost (fun reply => ?_) hspared
    cases reply <;> trivial
  · right
    rw [Journal.clear, runOn_bind_of_ok hrun]
    exact ⟨_, between, rfl, hremove⟩

theorem runOn_copyTo (hhost : host.Honest) (journal : Journal) (destination : Path)
    (world : World) :
    ((journal.copyTo destination).runOn host world).2.disk = world.disk ∨
      ∃ between bytes, (journal.copyTo destination).runOn host world = (.ok (), between) ∧
        world.disk.write world.folder destination bytes = .ok between.disk := by
  rw [Journal.copyTo, Journal.written]
  split
  case h_2 => exact .inl rfl
  case h_1 text htext =>
    rw [done_bind]
    generalize Utf8.encode (text ++ "\n") = bytes
    rcases runOn_write_cases hhost destination bytes world with hspared | ⟨between, hrun, hwrite⟩
    · left
      refine runOn_bind_disk hhost (fun reply => ?_) hspared
      cases reply <;> trivial
    · right
      rw [runOn_bind_of_ok hrun]
      exact ⟨between, bytes, rfl, hwrite⟩

/-- Whether a command records results under these settings. -/
def Arguments.records (settings : Settings) : Arguments → Bool
  | .eval arguments => recording settings arguments.unrecorded
  | .ask arguments => recording settings arguments.unrecorded
  | .session arguments => recording settings arguments.unrecorded
  | .translate _ | .history _ | .serve _ => false

end Command

end Reckoner
