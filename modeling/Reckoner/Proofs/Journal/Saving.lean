import Reckoner.Proofs.Disk.Amended
import Reckoner.Proofs.Journal.Storage

/-! Journals that may not be saved.  Saving a journal whose file could be opened succeeds or fails as
an operation of a journal, changes nothing else on the disk, and leaves a file that can be opened. -/

namespace Reckoner

open Utf8 (Bytes)

namespace Journal

variable {journal : Journal} {path : Path} {world : World} {entries : List Entry}

theorem hasZero_of_found {disk : Disk} {folder : Place}
    (h : found (disk.read folder path) = .ok entries) : path.hasZero = false := by
  refine @Disk.hasZero_of_read disk folder path fun hread => ?_
  rw [hread] at h
  cases h

/-- A file that cannot be read has no entries. -/
theorem found_of_read_error {disk : Disk} {folder : Place} {fault : DiskFault}
    (hzero : path.hasZero = false) (h : disk.read folder path = .error fault) :
    found (disk.read folder path) = .ok [] := by
  rw [h]
  cases fault with
  | zeroInName => exact absurd h (Disk.read_ne_zeroInName hzero)
  | _ => rfl

theorem run_makeFolders {world : World} (hzero : path.hasZero = false) :
    (Program.makeFolders path).run world =
      (.ok (world.disk.makeFolders world.folder path).1,
        { world with disk := (world.disk.makeFolders world.folder path).2 }) :=
  Program.run_ofDisk (Disk.makeFolders_ne_zeroInName hzero)
    { world with disk := (world.disk.makeFolders world.folder path).2 }

theorem run_write_of_error {bytes : Bytes} {fault : DiskFault} (hzero : path.hasZero = false)
    (h : world.disk.write world.folder path bytes = .error fault) :
    (Program.write path bytes).run world = (.ok (.error fault), world) := by
  change (Program.ofDisk (world.onDisk (world.disk.write _ _ _)).1).run
    (world.onDisk (world.disk.write _ _ _)).2 = _
  rw [h]
  have hreply : (.error fault : Except DiskFault Unit) ≠ .error .zeroInName := by
    intro hfault
    rw [Except.error.inj hfault] at h
    exact Disk.write_ne_zeroInName hzero h
  exact Program.run_ofDisk hreply world

/-- A journal is saved, or that fails because its file cannot be written. -/
theorem save_or_unwritable (hentries : ∀ e ∈ journal.entries, e.Keepable)
    (hfound : found (world.disk.read world.folder journal.path) = .ok entries) :
    ∃ result disk, journal.save.run world = (result, { world with disk }) ∧
      (result = .ok () ∨ result = .error (.failure (unwritable journal.path))) ∧
      Disk.Amended (Disk.placeOf world.folder journal.path) world.disk disk ∧
      ∃ entries, found (disk.read world.folder journal.path) = .ok entries := by
  have hzero := hasZero_of_found hfound
  have hmade := Disk.amended_makeFolders (Disk.placeOf world.folder journal.path) world.disk
    world.folder journal.path.parent
  rw [save, Program.run_bind_of_ok (run_makeFolders (Path.hasZero_parent hzero))]
  generalize hmake : world.disk.makeFolders world.folder journal.path.parent = reply at hmade ⊢
  obtain ⟨fault | _, made⟩ := reply
  · refine ⟨_, made, rfl, .inr rfl, hmade, ?_⟩
    rcases Disk.read_of_makeFolders_error hmake with hsame | ⟨fault', -, hread⟩
    · exact ⟨entries, by rw [hsame, hfound]⟩
    · exact ⟨[], found_of_read_error hzero hread⟩
  · have htext := Entry.writeAll?_of_keepable hentries .compact
    dsimp only
    rw [Program.run_bind_of_ok (run_written htext _)]
    cases hwrite : made.write world.folder journal.path
        (Utf8.encode (Entry.writeAll .compact journal.entries)) with
    | error fault =>
      rw [Program.run_bind_of_ok (@run_write_of_error _ { world with disk := made } _ _ hzero hwrite)]
      exact ⟨_, made, rfl, .inr rfl, hmade, [],
        found_of_read_error hzero (Disk.read_of_write_error hwrite)⟩
    | ok disk =>
      rw [Program.run_bind_of_ok (@Program.run_write_of_ok { world with disk := made } _ _ _ hwrite)]
      refine ⟨_, disk, rfl, .inl rfl, hmade.trans (Disk.amended_write hwrite), journal.entries, ?_⟩
      rw [Disk.read_of_write hwrite, ← List.append_nil (Entry.writeAll _ _)]
      exact found_encode htext hentries (List.forall_mem_nil _) (List.forall_mem_nil _)

theorem mem_of_mem_upTo {α : Type} {count : Int} {items : List α} {item : α}
    (h : item ∈ upTo count items) : item ∈ items := by
  cases count <;> exact List.mem_of_mem_take h

/-- A record in a journal that has been opened ends so too. -/
theorem record_or_unwritable {expression result : LooseText}
    (hentries : ∀ e ∈ journal.entries, e.Keepable)
    (hentry : Entry.Keepable ⟨expression, result, world.clock⟩)
    (hfound : found (world.disk.read world.folder journal.path) = .ok entries) :
    ∃ recorded disk, (journal.record expression result none).run world =
        (recorded, { world with disk, clock := world.clock + 1 }) ∧
      ((∃ value, recorded = .ok value) ∨
        recorded = .error (.failure (unwritable journal.path))) ∧
      Disk.Amended (Disk.placeOf world.folder journal.path) world.disk disk ∧
      ∃ entries, found (disk.read world.folder journal.path) = .ok entries := by
  rw [run_record_eq]
  have hkeepable : ∀ e ∈ (journal.withEntry ⟨expression, result, world.clock⟩).entries,
      e.Keepable := fun e he =>
    List.forall_mem_cons.mpr ⟨hentry, hentries⟩ e (mem_of_mem_upTo he)
  obtain ⟨result, disk, hsave, hresult, hamended, hafter⟩ :=
    @save_or_unwritable _ { world with clock := world.clock + 1 } _ hkeepable hfound
  rcases hresult with rfl | rfl
  · exact ⟨_, disk, Program.run_bind_of_ok hsave, .inl ⟨_, rfl⟩, hamended, hafter⟩
  · exact ⟨_, disk, Program.run_bind_of_error hsave, .inr rfl, hamended, hafter⟩

end Journal

end Reckoner
