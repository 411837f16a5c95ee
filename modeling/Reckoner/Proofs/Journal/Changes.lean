import Reckoner.Journal.Changes
import Reckoner.Proofs.Journal.Hosted
import Reckoner.Proofs.Journal.Recovery

/-! Changes of a journal in use, on a system that may refuse them.  An operation is performed as a
whole or fails, and one that fails leaves the journal and all files as they were.  What comes after it
goes on as if it had never been performed, but for folders that it has made on the way to the file of
the journal. -/

namespace Reckoner

open Utf8 (Bytes)
open Program

namespace Journal

variable {host : Host} {world after : World} {journal journal' : Journal} {path : Path}
  {capacity : ℤ} {operation : Operation} {ended : Except Fault (Option Entry)} {fault : Fault}

/-! ### Operations -/

/-- Goes on with what an operation has left, unless it ended with a fault. -/
def settled : Except Fault (Option Entry) × Journal → Program (Option Entry × Journal)
  | (.ok added, journal) => return (added, journal)
  | (.error fault, _) => .raise fault

/-- A record in place is a record, but that its fault does not take the journal away. -/
theorem perform_record_settled (journal : Journal) (expression result : LooseText)
    (time : Option ℤ) : journal.perform (.record expression result time) >>= settled =
      journal.record expression result time >>= fun (entry, left) => pure (some entry, left) := by
  have hadd (entry : Entry) : journal.add entry >>= settled =
      (journal.withEntry entry).save >>= fun _ => pure (some entry, journal.withEntry entry) := by
    rw [add, bind_bind, ← attempt_bind (journal.withEntry entry).save]
    refine congrArg (_ >>= ·) (funext fun ended => ?_)
    cases ended <;> rfl
  have htimed (now : Program ℤ) :
      (now >>= fun time => journal.add ⟨expression, result, time⟩) >>= settled =
        (now >>= fun time => (journal.withEntry ⟨expression, result, time⟩).save >>= fun _ =>
          pure (⟨expression, result, time⟩, journal.withEntry ⟨expression, result, time⟩)) >>=
            fun (entry, left) => pure (some entry, left) := by
    rw [bind_bind, bind_bind]
    refine congrArg (_ >>= ·) (funext fun time => ?_)
    rw [hadd, bind_bind]
    rfl
  cases time with
  | some time => exact htimed (pure time)
  | none => exact htimed Program.clock

/-- The time of the clock after an operation. -/
def Operation.clockAfter : Operation → ℤ → ℤ
  | .record _ _ time, clock => Journal.clockAfter time clock
  | .clear, clock | .copyTo _, clock => clock

/-- Whether the time of the entry that an operation adds, if it adds one, can be written down. -/
def Operation.InTime (clock : ℤ) : Operation → Prop
  | .record _ _ time => (time.getD clock).natAbs < 10 ^ maxIntegerDigits
  | .clear | .copyTo _ => True

/-- Whether the folder that an operation needs for the file of the journal is there. -/
def Operation.FindsFolder (world : World) (path : Path) : Operation → Prop
  | .record .. => world.disk.isFolder world.folder path.parent = true
  | .clear | .copyTo _ => True

/-- What an operation may come to: what it ends with, and the journal and the world that it leaves. -/
inductive Performed (journal : Journal) (world : World) :
    Operation → Except Fault (Option Entry) → Journal → World → Prop
  | recorded {expression result : LooseText} {time : Option ℤ} {entry : Entry} {entries : List Entry}
      {disk : Disk} (hentry : entry = ⟨expression, result, time.getD world.clock⟩)
      (hentries : entries = upTo journal.capacity (entry :: journal.entries))
      (hfile : disk.read world.folder journal.path =
        .ok (Utf8.encode (Entry.writeAll .compact entries)))
      (hrecovered : (∀ e ∈ entries, e.expression.IsJoined ∧ e.result.IsJoined) →
        Recovered disk world.folder journal.path entries none) :
      Performed journal world (.record expression result time) (.ok (some entry))
        { journal with entries } { world with disk, clock := clockAfter time world.clock }
  | unrecorded {expression result : LooseText} {time : Option ℤ} {disk : Disk}
      (hgrown : Disk.Grown world.folder journal.path.parent world.disk disk) :
      Performed journal world (.record expression result time)
        (.error (.failure (unwritable journal.path))) journal
        { world with disk, clock := clockAfter time world.clock }
  | cleared {disk : Disk} (hfile : disk.read world.folder journal.path = .error .missing) :
      Performed journal world .clear (.ok none) { journal with entries := [] } { world with disk }
  | uncleared : Performed journal world .clear (.error (.failure (unremovable journal.path))) journal
      world
  | copied {destination : Path} {disk : Disk} (hfile : disk.read world.folder destination =
        .ok (Utf8.encode (Entry.writeAll (.indented 2) journal.entries ++ "\n"))) :
      Performed journal world (.copyTo destination) (.ok none) journal { world with disk }
  | uncopied {destination : Path} {fault : Fault}
      (hfault : fault = .failure (unexportable destination) ∨ fault = .crash (.disk .zeroInName)) :
      Performed journal world (.copyTo destination) (.error fault) journal world

/-! ### Journals in use -/

/-- A journal that has been opened, and on which operations may have been performed, each in some
world and on a system that may refuse anything. -/
inductive InUse (path : Path) (capacity : ℤ) : Journal → Prop
  | opened {host : Host} {world after : World} {journal : Journal} (hhost : host.Honest)
      (h : (Journal.opened path capacity).runOn host world = (.ok journal, after)) :
      InUse path capacity journal
  | performed {host : Host} {world after : World} {journal journal' : Journal}
      {operation : Operation} {ended : Except Fault (Option Entry)} (hhost : host.Honest)
      (hinuse : InUse path capacity journal) (htime : operation.InTime world.clock)
      (h : (journal.perform operation).runOn host world = (.ok (ended, journal'), after)) :
      InUse path capacity journal'

/-- What a journal in use is like. -/
structure Usable (path : Path) (capacity : ℤ) (journal : Journal) : Prop where
  hasZero : path.hasZero = false
  path : journal.path = path
  capacity : journal.capacity = capacity
  times : ∀ e ∈ journal.entries, (Text.ofInt? e.time).isSome = true

theorem usable_of_runOn_opened (hhost : host.Honest)
    (h : (opened path capacity).runOn host world = (.ok journal, after)) :
    Usable path capacity journal := by
  have hsound := sound_of_runOn_opened h
  refine ⟨hasZero_of_runOn_opened hhost h, hsound.path, ?_, fun e he =>
    Entry.isSome_ofInt?.mpr (hsound.entries e he).time⟩
  obtain ⟨entries, between, -, h⟩ := runOn_bind_eq_ok h
  rw [← Except.ok.inj (Prod.mk.inj h).1]

theorem Usable.withEntry (h : Usable path capacity journal) {entry : Entry}
    (htime : entry.time.natAbs < 10 ^ maxIntegerDigits) :
    Usable path capacity (journal.withEntry entry) := by
  refine ⟨h.hasZero, h.path, h.capacity, fun e he => ?_⟩
  rcases List.mem_cons.mp (mem_of_mem_upTo he) with rfl | he
  · exact Entry.isSome_ofInt?.mpr ((Entry.length_ofNat_le_iff (by decide)).mpr htime)
  · exact h.times e he

/-- An entry is added, or it is taken back. -/
theorem runOn_add (hhost : host.Honest) {entry : Entry}
    (h : Usable path capacity (journal.withEntry entry)) (world : World) :
    (∃ disk, (journal.add entry).runOn host world =
        (.ok (.ok (some entry), journal.withEntry entry), { world with disk }) ∧
      disk.read world.folder journal.path =
        .ok (Utf8.encode (Entry.writeAll .compact (journal.withEntry entry).entries))) ∨
    (journal.add entry).runOn host world =
      (.ok (.error (.failure (unwritable journal.path)), journal),
        (host world (.makeFolders journal.path.parent)).2) := by
  have hzero : (journal.withEntry entry).path.hasZero = false := h.path ▸ h.hasZero
  have hattempt := runOn_attempt host (journal.withEntry entry).save world
  rcases runOn_save_eq hhost hzero h.times world with ⟨disk, hsave, hfile⟩ | hsave
  · rw [hsave] at hattempt
    exact .inl ⟨disk, runOn_bind_of_ok hattempt, hfile⟩
  · rw [hsave] at hattempt
    exact .inr (runOn_bind_of_ok hattempt)

theorem runOn_perform_record (hhost : host.Honest) (journal : Journal)
    (expression result : LooseText) (time : Option ℤ) (world : World) :
    (journal.perform (.record expression result time)).runOn host world =
      (journal.add ⟨expression, result, time.getD world.clock⟩).runOn host
        { world with clock := clockAfter time world.clock } := by
  cases time with
  | some time => rfl
  | none =>
    have hclock : Program.clock.runOn host world =
        (.ok world.clock, { world with clock := world.clock + 1 }) := by
      change (Except.ok (host world .clock).1, (host world .clock).2) = _
      rw [hhost.clock]
      rfl
    exact runOn_bind_of_ok hclock

/-- A journal is cleared, or nothing changes. -/
theorem runOn_clear (hhost : host.Honest) (hzero : journal.path.hasZero = false) (world : World) :
    (∃ disk, journal.clear.runOn host world =
        (.ok { journal with entries := [] }, { world with disk }) ∧
      disk.read world.folder journal.path = .error .missing) ∨
    journal.clear.runOn host world = (.error (.failure (unremovable journal.path)), world) := by
  rw [clear, runOn_bind_of_ok (runOn_remove hhost hzero world)]
  rcases (hhost world (.remove journal.path)).removed with ⟨disk, hremove, hmet⟩ | ⟨fault, hmet⟩
  · rw [hmet]
    exact .inl ⟨disk, rfl, Disk.read_of_remove hremove⟩
  · rw [hmet]
    exact .inr rfl

/-- The entries are copied, or nothing changes. -/
theorem runOn_copyTo (hhost : host.Honest)
    (htimes : ∀ e ∈ journal.entries, (Text.ofInt? e.time).isSome = true) (destination : Path)
    (world : World) :
    (∃ disk, (journal.copyTo destination).runOn host world = (.ok (), { world with disk }) ∧
      disk.read world.folder destination =
        .ok (Utf8.encode (Entry.writeAll (.indented 2) journal.entries ++ "\n"))) ∨
    ∃ fault, (fault = .failure (unexportable destination) ∨ fault = .crash (.disk .zeroInName)) ∧
      (journal.copyTo destination).runOn host world = (.error fault, world) := by
  have htext := (Entry.writeAll?_eq_some (.indented 2)).mpr ⟨htimes, rfl⟩
  rw [copyTo, written, htext, done_bind]
  generalize hbytes : Utf8.encode (Entry.writeAll (.indented 2) journal.entries ++ "\n") = bytes
  have hrun : (write destination bytes).runOn host world =
      (ofDisk (host world (.write destination bytes)).1).runOn host
        (host world (.write destination bytes)).2 := rfl
  rw [runOn_bind, hrun]
  rcases (hhost world (.write destination bytes)).wrote with ⟨disk, hwrite, hmet⟩ | ⟨fault, hmet⟩
  · rw [hmet]
    exact .inl ⟨disk, rfl, Disk.read_of_write hwrite⟩
  · rw [hmet]
    cases fault with
    | zeroInName => exact .inr ⟨_, .inr rfl, rfl⟩
    | _ => exact .inr ⟨_, .inl rfl, rfl⟩

/-- An operation on a journal in use comes to something, and leaves a journal that can be used.  If it
fails and no folder is to be made, the disk is as it was. -/
theorem runOn_perform (hhost : host.Honest) (h : Usable path capacity journal)
    (htime : operation.InTime world.clock) : ∃ ended journal' after,
      (journal.perform operation).runOn host world = (.ok (ended, journal'), after) ∧
        Performed journal world operation ended journal' after ∧ Usable path capacity journal' ∧
        (host.Tidy → operation.FindsFolder world journal.path → ∀ fault, ended = .error fault →
          after.disk = world.disk) := by
  cases operation with
  | record expression result time =>
    rw [runOn_perform_record hhost]
    have hwith := @Usable.withEntry _ _ _ h ⟨expression, result, time.getD world.clock⟩ htime
    -- The clock, where it is read at all, is read before anything is written.
    generalize hlater : { world with clock := clockAfter time world.clock } = later
    rcases runOn_add hhost hwith later with ⟨disk, hadd, hfile⟩ | hadd
    · subst hlater
      exact ⟨_, _, _, hadd, .recorded rfl rfl hfile (recovered_of_written hfile hwith.times), hwith,
        fun _ _ _ hnone => nomatch hnone⟩
    · obtain ⟨disk, hmade, hgrown⟩ := (hhost later (.makeFolders journal.path.parent)).made
      subst hlater
      refine ⟨_, _, _, hadd, hmade ▸ .unrecorded hgrown, h, fun htidy hfolder _ _ => ?_⟩
      rw [@Host.Honest.made_of_isFolder _ hhost htidy
        { world with clock := clockAfter time world.clock } _ hfolder]
  | clear =>
    have hattempt := runOn_attempt host journal.clear world
    rcases runOn_clear hhost (h.path ▸ h.hasZero) world with ⟨disk, hclear, hfile⟩ | hclear
    · rw [hclear] at hattempt
      exact ⟨_, _, _, runOn_bind_of_ok hattempt, .cleared hfile,
        ⟨h.hasZero, h.path, h.capacity, List.forall_mem_nil _⟩, fun _ _ _ hnone => nomatch hnone⟩
    · rw [hclear] at hattempt
      exact ⟨_, _, _, runOn_bind_of_ok hattempt, .uncleared, h, fun _ _ _ _ => rfl⟩
  | copyTo destination =>
    have hattempt := runOn_attempt host (journal.copyTo destination) world
    rcases runOn_copyTo hhost h.times destination world with
      ⟨disk, hcopy, hfile⟩ | ⟨fault, hfault, hcopy⟩
    · rw [hcopy] at hattempt
      exact ⟨_, _, _, runOn_bind_of_ok hattempt, .copied hfile, h, fun _ _ _ hnone => nomatch hnone⟩
    · rw [hcopy] at hattempt
      exact ⟨_, _, _, runOn_bind_of_ok hattempt, .uncopied hfault, h, fun _ _ _ _ => rfl⟩

theorem InUse.usable (h : InUse path capacity journal) : Usable path capacity journal := by
  -- By induction on what has been done with the journal: what fails leaves it usable too.
  induction h with
  | opened hhost h => exact usable_of_runOn_opened hhost h
  | performed hhost _ htime h ih =>
    obtain ⟨ended, left, after, hrun, -, husable, -⟩ := runOn_perform hhost ih htime
    rw [hrun] at h
    rw [← (Prod.mk.inj (Except.ok.inj (Prod.mk.inj h).1)).2]
    exact husable

/-! ### Operations that fail -/

/-- What fails leaves the journal as it was, and a world in which nothing is different but the time of
the clock and folders on the way to the file. -/
theorem Performed.of_error (h : Performed journal world operation (.error fault) journal' after) :
    journal' = journal ∧ ∃ disk,
      after = { world with disk, clock := operation.clockAfter world.clock } ∧
        Disk.Grown world.folder journal.path.parent world.disk disk := by
  cases h with
  | unrecorded hgrown => exact ⟨rfl, _, rfl, hgrown⟩
  | uncleared => exact ⟨rfl, _, rfl, .refl _ _ _⟩
  | uncopied _ => exact ⟨rfl, _, rfl, .refl _ _ _⟩

/-- The operations after one that is done are performed in the journal and the world that it leaves. -/
theorem runOn_performAll_cons {operations : List Operation}
    (h : (journal.perform operation).runOn host world = (.ok (ended, journal'), after)) :
    (journal.performAll (operation :: operations)).runOn host world =
      (journal'.performAll operations >>= fun (more, last) => pure (ended :: more, last)).runOn host
        after := by
  rw [performAll, runOn_bind_of_ok h]

/-- An operation on a journal in use is performed as a whole or fails.  One that fails leaves the
journal as it was, and a disk on which nothing is different but that folders may have been made on the
way to the file of the journal, where they were not there before.  All operations after it are
performed as if it had never been called on this disk. -/
theorem perform_atomic (hhost : host.Honest) (hinuse : InUse path capacity journal) (world : World)
    {operation : Operation} (htime : operation.InTime world.clock) :
    ∃ ended journal' after,
      (journal.perform operation).runOn host world = (.ok (ended, journal'), after) ∧
        Performed journal world operation ended journal' after ∧
        ∀ fault, ended = .error fault → journal' = journal ∧
          ∃ disk, after = { world with disk, clock := operation.clockAfter world.clock } ∧
            Disk.Grown world.folder path.parent world.disk disk ∧
            (∀ bytes, world.disk.read world.folder path = .ok bytes →
              disk.read world.folder path = .ok bytes) ∧
            (host.Tidy → operation.FindsFolder world path → disk = world.disk) ∧
            ∀ operations, (journal.performAll (operation :: operations)).runOn host world =
              (journal.performAll operations >>= fun (more, last) =>
                pure (.error fault :: more, last)).runOn host
                  { world with disk, clock := operation.clockAfter world.clock } := by
  have husable := hinuse.usable
  obtain ⟨ended, journal', after, hrun, hperformed, -, htidied⟩ := runOn_perform hhost husable htime
  refine ⟨ended, journal', after, hrun, hperformed, ?_⟩
  rintro fault rfl
  obtain ⟨rfl, disk, rfl, hgrown⟩ := hperformed.of_error
  rw [husable.path] at hgrown htidied
  exact ⟨rfl, disk, rfl, hgrown, fun bytes => hgrown.read, fun htidy hfolder =>
    htidied htidy hfolder fault rfl, fun operations => runOn_performAll_cons hrun⟩

/-! A folder has come in the place of the file, so that an entry is taken back. -/

def seizedJournal : Journal := ⟨mixedPath, 1, [oldEntry]⟩

def seizedWorld : World where
  disk := ⟨[([['h']], .folder)]⟩
  clock := 1000

def seizedOperation : Operation := .record newEntry.expression newEntry.result none

theorem inUse_seized : InUse mixedPath 1 seizedJournal := by
  obtain ⟨hlines, hvalue⟩ := read_mixed
  have hrecovered : Recovered mixedWorld.disk mixedWorld.folder mixedPath [oldEntry] none := by
    rw [← hlines] at hvalue
    exact .array fileAt_mixed (Utf8.decode_encode _) hvalue (Entry.among_filterMap _)
  exact .opened honest_reply ((runOn_reply _ _).trans (run_opened_of_recovered hrecovered))

theorem perform_seized : (seizedJournal.perform seizedOperation).run seizedWorld =
    (.ok (.error (.failure (unwritable mixedPath)), seizedJournal),
      { seizedWorld with clock := 1001 }) := by cbv

theorem perform_atomic_seized :
    InUse mixedPath 1 seizedJournal ∧ seizedOperation.InTime seizedWorld.clock ∧
      seizedOperation.FindsFolder seizedWorld mixedPath ∧
      (seizedJournal.perform seizedOperation).run seizedWorld =
        (.ok (.error (.failure (unwritable mixedPath)), seizedJournal),
          { seizedWorld with clock := 1001 }) ∧
      ∀ operations, (seizedJournal.performAll (seizedOperation :: operations)).run seizedWorld =
        (seizedJournal.performAll operations >>= fun (more, last) =>
          pure (.error (.failure (unwritable mixedPath)) :: more, last)).run
            { seizedWorld with clock := 1001 } := by
  have htime : seizedOperation.InTime seizedWorld.clock :=
    (Entry.length_ofNat_le_iff (by decide)).mp (by decide)
  refine ⟨inUse_seized, htime, rfl, perform_seized, fun operations => ?_⟩
  obtain ⟨ended, journal', after, hrun, -, hfails⟩ :=
    perform_atomic honest_reply inUse_seized seizedWorld htime
  rw [runOn_reply, perform_seized] at hrun
  obtain ⟨hended, hafter⟩ := Prod.mk.inj hrun
  obtain ⟨-, disk, -, -, -, htidy, hall⟩ :=
    hfails _ (Prod.mk.inj (Except.ok.inj hended)).1.symm
  have hdisk := htidy tidy_reply rfl
  rw [← runOn_reply, hall operations, runOn_reply, hdisk]
  rfl

/-! The path of a journal goes through a folder that is missing, and back, to the file of something
else. -/

def strayJournal : Journal := ⟨⟨0, [['a'], ['.', '.'], ['f'], ['h']]⟩, 200, []⟩

def strayWorld : World where
  disk := ⟨[([['f']], .file [])]⟩

def strayOperation : Operation := .record (Text.loose ['1']) (Text.loose ['1']) (some 1)

/-- A record that fails leaves a folder, because of which the journal cannot be cleared any more. -/
theorem not_perform_atomic :
    InUse strayJournal.path 200 strayJournal ∧
      ((strayJournal.performAll [strayOperation, .clear]).run strayWorld).1 =
        .ok ([.error (.failure (unwritable strayJournal.path)),
          .error (.failure (unremovable strayJournal.path))], strayJournal) ∧
      ((strayJournal.performAll [.clear]).run strayWorld).1 = .ok ([.ok none], strayJournal) := by
  have hopened : (opened strayJournal.path 200).run strayWorld = (.ok strayJournal, strayWorld) := by
    rfl
  exact ⟨.opened honest_reply ((runOn_reply _ _).trans hopened), by cbv, rfl⟩

end Journal

end Reckoner
