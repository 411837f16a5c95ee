import Reckoner.Output
import Reckoner.Proofs.Disk
import Reckoner.Proofs.Journal.Format
import Reckoner.Proofs.Json.Characters
import Reckoner.Proofs.Program.Runs
import Reckoner.Proofs.Text.Utf8

/-! What the operations of a journal do: what opening finds in a file, and what the file holds after
an entry was added or all entries were removed. -/

namespace Reckoner

open Utf8 (Bytes)

theorem unifyLineFeeds_eq_self {s : Text} (h : ∀ c ∈ s, c ≠ '\r') : s.unifyLineFeeds = s := by
  fun_induction Text.unifyLineFeeds s with
  | case1 => rfl
  | case2 s => exact absurd rfl (h '\r' List.mem_cons_self)
  | case3 c s _ ih =>
    obtain ⟨hc, hs⟩ := List.forall_mem_cons.mp h
    rw [if_neg hc, ih hs]

namespace Journal

variable {journal journal' : Journal} {path : Path} {capacity : ℤ} {world world' : World}
  {entries : List Entry}

/-! ### Opening -/

/-- The text in what a read of a file gives. -/
def textIn : Except DiskFault Bytes → Except Crash (Except DiskFault Text)
  | .error .zeroInName => .error (.disk .zeroInName)
  | .error fault => .ok (.error fault)
  | .ok bytes =>
    match Utf8.decode bytes with
    | .ok text => .ok (.ok text.unifyLineFeeds)
    | .error fault => .error (.undecodable fault)

/-- The entries in a text. -/
def entriesIn (text : Text) : Except Crash (List Entry) :=
  match Entry.readAll text with
  | .ok entries => .ok entries
  | .error (.json .numeralTooLong) => .error .numeralTooLong
  | .error (.json .tooDeep) => .error .tooDeep
  | .error (.json .malformed) | .error .noArray => .ok []

/-- The entries in what a read of a file gives. -/
def found (reply : Except DiskFault Bytes) : Except Crash (List Entry) :=
  (textIn reply).bind fun
    | .error _ => .ok []
    | .ok text => entriesIn text

theorem run_readText (path : Path) (world : World) : (Program.readText path).run world =
    ((textIn (world.disk.read world.folder path)).mapError .crash, world) := by
  change (Program.ofDisk (world.disk.read world.folder path) >>= _).run world = _
  cases world.disk.read world.folder path with
  | error fault => cases fault <;> rfl
  | ok bytes =>
    change (Program.decodeText bytes >>= _).run world = _
    rw [Program.decodeText, textIn]
    cases Utf8.decode bytes <;> rfl

/-- The file of a journal decides what opening gives; nothing changes but the log. -/
theorem run_entriesAt (path : Path) (world : World) : ∃ events, Event.output events = [] ∧
    (entriesAt path).run world = ((found (world.disk.read world.folder path)).mapError .crash,
      world.showsAll events) := by
  rw [entriesAt, Program.run_bind, run_readText, found]
  rcases textIn (world.disk.read world.folder path) with crash | fault | text
  · exact ⟨[], rfl, by rw [World.showsAll_nil]; rfl⟩
  · cases fault with
    | missing => exact ⟨[], rfl, by rw [World.showsAll_nil]; rfl⟩
    | _ => exact ⟨_, rfl, rfl⟩
  · dsimp only [Except.bind, Except.mapError]
    rw [entriesIn]
    rcases Entry.readAll text with fault | entries
    · rcases fault with fault | _
      · cases fault with
        | malformed => exact ⟨_, rfl, rfl⟩
        | _ => exact ⟨[], rfl, by rw [World.showsAll_nil]; rfl⟩
      · exact ⟨_, rfl, rfl⟩
    · exact ⟨[], rfl, by rw [World.showsAll_nil]; rfl⟩

theorem run_opened (path : Path) (capacity : ℤ) (world : World) : ∃ events,
    Event.output events = [] ∧ (opened path capacity).run world =
      (((found (world.disk.read world.folder path)).mapError Fault.crash).map
        fun entries => ⟨path, capacity, upTo capacity entries⟩, world.showsAll events) := by
  obtain ⟨events, hsilent, h⟩ := run_entriesAt path world
  refine ⟨events, hsilent, ?_⟩
  rw [opened, Program.run_bind, h]
  cases found (world.disk.read world.folder path) <;> rfl

/-! ### Saving -/

theorem run_written {layout : Json.Layout} {text : Text}
    (h : Entry.writeAll? layout journal.entries = some text) (world : World) :
    (journal.written layout).run world = (.ok text, world) := by
  rw [written, h]
  rfl

theorem run_save {text : Text} {disk disk' : Disk}
    (htext : Entry.writeAll? .compact journal.entries = some text)
    (hfolders : world.disk.makeFolders world.folder journal.path.parent = (.ok (), disk))
    (hwrite : disk.write world.folder journal.path (Utf8.encode text) = .ok disk') :
    journal.save.run world = (.ok (), { world with disk := disk' }) := by
  rw [save, Program.run_bind_of_ok (Program.run_makeFolders_of_ok hfolders)]
  dsimp only
  rw [Program.run_bind_of_ok (run_written htext _), Program.run_bind_of_ok
    (@Program.run_write_of_ok { world with disk } _ _ _ hwrite)]
  rfl

/-- A journal is saved by writing the text of its entries to the file, in folders that are there. -/
theorem of_run_save (h : journal.save.run world = (.ok (), world')) :
    ∃ text disk, Entry.writeAll? .compact journal.entries = some text ∧
      world.disk.makeFolders world.folder journal.path.parent = (.ok (), disk) ∧
      disk.write world.folder journal.path (Utf8.encode text) = .ok world'.disk ∧
      world' = { world with disk := world'.disk } := by
  rw [save] at h
  obtain ⟨reply, between, hmake, h⟩ := Program.run_bind_eq_ok h
  obtain ⟨disk, hfolders, rfl⟩ := Program.makeFolders_eq_ok hmake
  cases reply with
  | error fault => cases (Prod.mk.inj h).1
  | ok =>
    obtain ⟨text, between, hwritten, h⟩ := Program.run_bind_eq_ok h
    rw [written] at hwritten
    split at hwritten
    case h_2 => cases (Prod.mk.inj hwritten).1
    case h_1 text' htext =>
      obtain ⟨hok, rfl⟩ := Prod.mk.inj hwritten
      obtain rfl := Except.ok.inj hok
      obtain ⟨reply, between, hwrite, h⟩ := Program.run_bind_eq_ok h
      rcases Program.write_eq_ok hwrite with ⟨disk', hdisk', rfl, rfl⟩ | ⟨fault, -, rfl, rfl⟩
      · obtain rfl := (Prod.mk.inj h).2
        exact ⟨text', disk, htext, hfolders, hdisk', rfl⟩
      · cases (Prod.mk.inj h).1

/-- The time of the clock after a record, which reads the clock only where no time is given. -/
def clockAfter (time : Option ℤ) (clock : ℤ) : ℤ := time.elim (clock + 1) fun _ => clock

/-- A record saves the journal with the new entry. -/
theorem run_record_eq (expression result : LooseText) (time : Option ℤ) (world : World) :
    (journal.record expression result time).run world =
      ((journal.withEntry ⟨expression, result, time.getD world.clock⟩).save >>= fun _ =>
        pure (⟨expression, result, time.getD world.clock⟩,
          journal.withEntry ⟨expression, result, time.getD world.clock⟩)).run
        { world with clock := clockAfter time world.clock } := by
  cases time <;> rfl

theorem run_record {expression result : LooseText} {time : Option ℤ} {text : Text}
    {disk disk' : Disk}
    (htext : Entry.writeAll? .compact
      (journal.withEntry ⟨expression, result, time.getD world.clock⟩).entries = some text)
    (hfolders : world.disk.makeFolders world.folder journal.path.parent = (.ok (), disk))
    (hwrite : disk.write world.folder journal.path (Utf8.encode text) = .ok disk') :
    (journal.record expression result time).run world =
      (.ok (⟨expression, result, time.getD world.clock⟩,
        journal.withEntry ⟨expression, result, time.getD world.clock⟩),
        { world with disk := disk', clock := clockAfter time world.clock }) := by
  rw [run_record_eq, Program.run_bind_of_ok (@run_save _
    { world with clock := clockAfter time world.clock } _ _ _ htext hfolders hwrite)]
  rfl

theorem of_run_record {expression result : LooseText} {time : Option ℤ} {entry : Entry}
    (h : (journal.record expression result time).run world = (.ok (entry, journal'), world')) :
    entry = ⟨expression, result, time.getD world.clock⟩ ∧ journal' = journal.withEntry entry ∧
      ∃ text disk, Entry.writeAll? .compact journal'.entries = some text ∧
        Disk.write disk world.folder journal.path (Utf8.encode text) = .ok world'.disk ∧
        world'.folder = world.folder := by
  rw [run_record_eq] at h
  obtain ⟨_, between, hsave, h⟩ := Program.run_bind_eq_ok h
  obtain ⟨hresult, rfl⟩ := Prod.mk.inj h
  obtain ⟨rfl, rfl⟩ := Prod.mk.inj (Except.ok.inj hresult)
  obtain ⟨text, disk, htext, -, hwrite, hworld⟩ := of_run_save hsave
  exact ⟨rfl, rfl, text, disk, htext, hwrite, by rw [hworld]⟩

theorem run_clear {disk : Disk} (h : world.disk.remove world.folder journal.path = .ok disk) :
    journal.clear.run world = (.ok { journal with entries := [] }, { world with disk }) := by
  rw [clear, Program.run_bind_of_ok (Program.run_remove_of_ok h)]
  rfl

/-- A journal is cleared by removing its file. -/
theorem of_run_clear (h : journal.clear.run world = (.ok journal', world')) :
    journal' = { journal with entries := [] } ∧
      world.disk.remove world.folder journal.path = .ok world'.disk ∧
      world' = { world with disk := world'.disk } := by
  rw [clear] at h
  obtain ⟨reply, between, hremove, hrest⟩ := Program.run_bind_eq_ok h
  rcases Program.remove_eq_ok hremove with ⟨disk, hdisk, rfl, rfl⟩ | ⟨fault, -, rfl, rfl⟩
  · obtain ⟨hjournal, rfl⟩ := Prod.mk.inj hrest
    exact ⟨(Except.ok.inj hjournal).symm, hdisk, rfl⟩
  · cases (Prod.mk.inj hrest).1

/-! ### What is found -/

/-- The file of a journal, or a copy of it, has its entries. -/
theorem found_encode {layout : Json.Layout} {text space : Text} {entries : List Entry}
    (htext : Entry.writeAll? layout entries = some text) (hentries : ∀ e ∈ entries, e.Keepable)
    (hspace : ∀ c ∈ space, Json.isSpace c = true) (hreturn : ∀ c ∈ space, c ≠ '\r') :
    found (.ok (Utf8.encode (text ++ space))) = .ok entries := by
  obtain ⟨-, rfl⟩ := (Entry.writeAll?_eq_some layout).mp htext
  have hlines : (Entry.writeAll layout entries ++ space).unifyLineFeeds =
      Entry.writeAll layout entries ++ space := by
    refine unifyLineFeeds_eq_self fun c hc => ?_
    rcases List.mem_append.mp hc with hc | hc
    · exact Json.write_ne_return _ layout c hc
    · exact hreturn c hc
  rw [found, textIn, Utf8.decode_encode]
  dsimp only [Except.bind]
  rw [hlines, entriesIn, Entry.readAll_writeAll hentries layout hspace]

theorem keepable_of_found {reply : Except DiskFault Bytes} (h : found reply = .ok entries) :
    ∀ e ∈ entries, e.Keepable := by
  rw [found] at h
  obtain ⟨text, -, h⟩ := bind_eq_ok h
  cases text with
  | error fault =>
    obtain rfl := Except.ok.inj h
    exact List.forall_mem_nil _
  | ok text =>
    dsimp only at h
    rw [entriesIn] at h
    split at h
    case h_1 entries' hread =>
      obtain rfl := Except.ok.inj h
      exact Entry.keepable_of_readAll hread
    case h_2 => cases h
    case h_3 => cases h
    all_goals
      obtain rfl := Except.ok.inj h
      exact List.forall_mem_nil _

end Journal

end Reckoner
