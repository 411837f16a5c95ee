import Reckoner.Proofs.Disk.Folders
import Reckoner.Proofs.Program.Asking
import Reckoner.Proofs.Program.Requests

/-! Settings while a journal is kept.  What a command looks at when it loads its settings is the same
as long as no path that it looks at leads to the file of the journal. -/

namespace Reckoner

variable {α β : Type}

/-! ### Lookups beside the journal -/

namespace Disk

variable {disk disk' : Disk} {place q : Place} {path : Path}

/-- An absolute path that leads to a place which is neither this one nor below it. -/
def LeadsPast (disk : Disk) (place : Place) (path : Path) : Prop :=
  path.isAbsolute = true ∧ ∃ q, disk.locate [] path = .ok q ∧ ¬place <+: q

theorem Beside.locate (h : Beside place disk disk') (hplace : disk.find? place ≠ some .folder)
    (hlocate : disk.locate [] path = .ok q) : disk'.locate [] path = .ok q := by
  refine locate_of_approached (fun r hr hfolder => ?_) hlocate
  -- The place itself is no folder, so no folder on the way is below it.
  have hpast : ¬place <+: r := by
    intro hprefix
    by_cases heq : place = r
    · exact hplace (heq ▸ hfolder)
    · exact hplace (hr place hprefix heq)
  rcases h r hpast with heq | ⟨hnone, -⟩
  · rw [heq, hfolder]
  · rw [hnone] at hfolder
    cases hfolder

theorem LeadsPast.isFile (hpath : disk.LeadsPast place path) (h : Beside place disk disk')
    (hplace : disk.find? place ≠ some .folder) (folder : Place) :
    disk'.isFile folder path = disk.isFile folder path := by
  obtain ⟨habsolute, q, hlocate, hpast⟩ := hpath
  rw [Disk.isFile, Disk.isFile, locate_of_isAbsolute habsolute folder,
    locate_of_isAbsolute habsolute folder, hlocate, h.locate hplace hlocate]
  dsimp only
  rcases h q hpast with heq | ⟨hnone, hfolder⟩
  · rw [heq]
  · rw [hnone, hfolder]

theorem LeadsPast.read (hpath : disk.LeadsPast place path) (h : Beside place disk disk')
    (hplace : disk.find? place ≠ some .folder) {folder : Place} {bytes : Utf8.Bytes}
    (hread : disk.read folder path = .ok bytes) : disk'.read folder path = .ok bytes := by
  obtain ⟨habsolute, q, hlocate, hpast⟩ := hpath
  rw [read_of_isAbsolute habsolute, read_of_locate hlocate, fileAt] at hread
  rw [read_of_isAbsolute habsolute, read_of_locate (h.locate hplace hlocate), fileAt]
  rcases h q hpast with heq | ⟨hnone, -⟩
  · rw [heq]
    exact hread
  · rw [hnone] at hread
    cases hread

end Disk

/-! ### The settings of a command -/

open Program

section Settings

variable {settings : Settings} {place : Place} {start : Disk} {world : World} {path : Path}

/-- A file in which a program looks is not one in which its first part looks, if that looks into no
file. -/
theorem read_mem_of_onlyGlances {program : Program α} {next : α → Program β} {result : β}
    (h : program.OnlyGlances) (hrun : ((program >>= next).run world).1 = .ok result)
    (hread : .read path ∈ (program >>= next).requests world) : ∃ value,
    ((next value).run world).1 = .ok result ∧ .read path ∈ (next value).requests world := by
  obtain ⟨value, between, hprogram, hnext⟩ := run_bind_eq_ok (Prod.ext hrun rfl)
  obtain rfl : between = world := by
    have hsame := h.onlyReads.run_snd world
    rw [hprogram] at hsame
    exact hsame
  refine ⟨value, (Prod.mk.inj hnext).1, ?_⟩
  rw [requests_bind_of_ok hprogram] at hread
  rcases List.mem_append.mp hread with hread | hread
  · cases h.of_mem_requests hread
  · exact hread

theorem read_eq_ok_of_readSettings {file : Path} {document : Toml.Members} {world' : World}
    (hrun : (readSettings file).run world = (.ok document, world'))
    (hread : .read path ∈ (readSettings file).requests world) :
    ∃ bytes, world.disk.read world.folder file = .ok bytes ∧ path = file := by
  rw [readSettings, Program.read, request] at hrun hread
  change Program.run (ofDisk (world.disk.read world.folder file) >>= _) world = _ at hrun
  change _ ∈ .read file :: Program.requests (ofDisk (world.disk.read world.folder file) >>= _) world
    at hread
  cases hfile : world.disk.read world.folder file with
  | error fault =>
    rw [hfile] at hrun
    cases fault <;> cases (Prod.mk.inj hrun).1
  | ok bytes =>
    refine ⟨bytes, rfl, ?_⟩
    rw [hfile] at hread
    rcases List.mem_cons.mp hread with heq | hread
    · exact Request.read.inj heq
    · rw [show ofDisk (.ok bytes) = pure (.ok bytes) from rfl, done_bind] at hread
      dsimp only at hread
      split at hread
      · cases hread
      · split at hread <;> cases hread

/-- Settings are loaded only if the file with them can be read. -/
theorem read_eq_ok_of_settings {common : Command.CommonArguments}
    (hrun : (common.settings.run world).1 = .ok settings)
    (hread : .read path ∈ common.settings.requests world) :
    ∃ bytes, world.disk.read world.folder path = .ok bytes := by
  -- Before and after the file with the settings is read, nothing looks into a file.
  rw [Command.settings_eq] at hrun hread
  obtain ⟨root, hrun, hread⟩ := read_mem_of_onlyGlances (Command.onlyGlances_givenPath? _) hrun hread
  obtain ⟨file, hrun, hread⟩ := read_mem_of_onlyGlances (Command.onlyGlances_givenPath? _) hrun hread
  rw [load_eq] at hrun hread
  obtain ⟨⟨root, file⟩, hrun, hread⟩ :=
    read_mem_of_onlyGlances (onlyGlances_locate _) hrun hread
  obtain ⟨document, between, hdocument, -⟩ := run_bind_eq_ok (Prod.ext hrun rfl)
  rw [requests_bind_of_ok hdocument] at hread
  rcases List.mem_append.mp hread with hread | hread
  · cases file with
    | none => cases hread
    | some file =>
      obtain ⟨bytes, hbytes, hpath⟩ := read_eq_ok_of_readSettings hdocument hread
      exact ⟨bytes, hpath ▸ hbytes⟩
  · cases (onlyGlances_settingsIn root document).of_mem_requests hread

/-- The settings to which arguments point are these, whatever a certain place of the disk holds and
whichever folders have been made. -/
def Command.CommonArguments.Give (common : CommonArguments) (settings : Settings) (place : Place)
    (start : Disk) (world : World) : Prop :=
  ∀ disk, Disk.Beside place start disk → (common.settings.run { world with disk }).1 = .ok settings

/-- Arguments give the settings of the start as long as all that is looked at for them is elsewhere. -/
theorem Command.give_of_leadsPast {common : CommonArguments}
    (hrun : (common.settings.run { world with disk := start }).1 = .ok settings)
    (hplace : start.find? place ≠ some .folder)
    (hpast : ∀ path, .isFile path ∈ common.settings.requests { world with disk := start } ∨
      .read path ∈ common.settings.requests { world with disk := start } →
        start.LeadsPast place path) :
    common.Give settings place start world := by
  intro disk hdisk
  rw [← hrun]
  refine @run_fst_of_requests _ _ (onlyReads_settings common) { world with disk := start }
    disk fun request hrequest => ?_
  cases request with
  | isFile path => exact (hpast path (.inl hrequest)).isFile hdisk hplace world.folder
  | read path =>
    obtain ⟨bytes, hread⟩ := read_eq_ok_of_settings hrun hrequest
    exact ((hpast path (.inr hrequest)).read hdisk hplace hread).trans hread.symm
  | folder | «variable» | hasPackage | accounts => rfl
  | _ => cases (onlyReads_settings common).of_mem_requests hrequest

theorem Command.CommonArguments.Give.showsAll {common : CommonArguments}
    (h : common.Give settings place start world) (events : List Event) :
    common.Give settings place start (world.showsAll events) :=
  fun disk hdisk => (run_fst_of_events _ { world with disk } _).trans (h disk hdisk)

end Settings

end Reckoner
