import Reckoner.Proofs.Disk.Folders

/-! Disks on which one file has been written, or could not be.  A path leads to one place on all disks
on which it leads anywhere, and where a file cannot be written there is none that can be read. -/

namespace Reckoner

namespace Path

theorem length_encode_parent_le (path : Path) :
    (Utf8.encode path.parent.text).length ≤ max 1 (Utf8.encode path.text).length := by
  by_cases hdot : path.slashes = 0 ∧ path.names.dropLast = []
  · -- The empty relative path has a text of one character.
    have htext : path.parent.text = ['.'] := by
      rw [text, parent, hdot.1, hdot.2]
      rfl
    rw [htext]
    exact Nat.le_max_left 1 _
  · have htext (names : List Text) (h : ¬(path.slashes = 0 ∧ names = [])) :
        text { path with names } = List.replicate path.slashes '/' ++ Text.joined "/" names := by
      rw [text, if_neg (by simpa using h)]
    have hnames : ¬(path.slashes = 0 ∧ path.names = []) := by
      rintro ⟨hzero, hnil⟩
      exact hdot ⟨hzero, by rw [hnil]; rfl⟩
    obtain ⟨rest, hrest⟩ := joined_dropLast_prefix "/" path.names
    rw [parent, htext _ hdot, show path.text = text { path with names := path.names } from rfl,
      htext _ hnames, ← hrest, ← List.append_assoc]
    generalize List.replicate path.slashes '/' ++ Text.joined "/" path.names.dropLast = shorter
    rw [Utf8.encode, Utf8.encode, List.flatMap_append, List.length_append]
    exact Nat.le_trans (Nat.le_add_right _ _) (Nat.le_max_right _ _)

end Path

namespace Disk

open Utf8 (Bytes)

section Amended

variable {disk disk' disk'' : Disk} {folder place : Place} {path : Path} {bytes : Bytes}
  {fault : DiskFault}

/-! ### Places and faults -/

/-- The place to which a path leads from a folder, if it leads anywhere. -/
def placeOf (folder : Place) (path : Path) : Place :=
  path.names.foldl (fun place name => if name = "..".toList then place.dropLast else place ++ [name])
    (startOf folder path)

theorem place_of_foldlM {names : List Text} {start : Place}
    (h : names.foldlM disk.step start = .ok place) :
    place = names.foldl (fun place name =>
      if name = "..".toList then place.dropLast else place ++ [name]) start := by
  induction names generalizing start with
  | nil => exact (Except.ok.inj h).symm
  | cons name names ih =>
    obtain ⟨q, hstep, hrest⟩ := bind_eq_ok h
    have hfolder := find?_of_step hstep
    rw [step, hfolder] at hstep
    dsimp only at hstep
    rw [List.foldl_cons]
    split at hstep
    · rename_i hdots
      obtain rfl := Except.ok.inj hstep
      rw [if_pos hdots]
      exact ih hrest
    · rename_i hdots
      split at hstep
      · cases hstep
      · obtain rfl := Except.ok.inj hstep
        rw [if_neg hdots]
        exact ih hrest

theorem place_of_locate (h : disk.locate folder path = .ok place) : place = placeOf folder path :=
  place_of_foldlM (locate_of_ok h).1

theorem step_ne_zeroInName {start : Place} {name : Text} :
    disk.step start name ≠ .error .zeroInName := by
  rw [step]
  split
  · simp
  · simp
  · split
    · simp
    · split <;> simp

theorem locate_eq_zeroInName :
    disk.locate folder path = .error .zeroInName ↔ path.hasZero = true := by
  have hnames (names : List Text) (start : Place) :
      names.foldlM disk.step start ≠ .error .zeroInName := by
    induction names generalizing start with
    | nil => exact nofun
    | cons name names ih =>
      rw [List.foldlM_cons]
      cases hstep : disk.step start name with
      | error fault =>
        intro h
        obtain rfl := Except.error.inj h
        exact step_ne_zeroInName hstep
      | ok q => exact ih q
  rw [locate]
  split
  case isTrue hzero => simp [hzero]
  case isFalse hzero =>
    refine ⟨fun h => ?_, fun h => absurd h hzero⟩
    split at h
    · cases h
    · exact absurd h (hnames _ _)

theorem hasZero_of_read (h : disk.read folder path ≠ .error .zeroInName) : path.hasZero = false :=
  Bool.eq_false_iff.mpr fun hzero => h (read_of_locate_error (locate_eq_zeroInName.mpr hzero))

/-- What leads to a place has a parent that leads to a folder. -/
theorem isFolder_parent (h : disk.locate folder path = .ok place) (hnames : path.names ≠ []) :
    disk.isFolder folder path.parent = true := by
  obtain ⟨hfold, -⟩ := locate_of_ok h
  have hlocate : disk.locate folder path.parent =
      path.names.dropLast.foldlM disk.step (startOf folder path) := by
    rw [locate] at h
    split at h
    case isTrue => cases h
    case isFalse hzero =>
      split at h
      case isTrue => cases h
      case isFalse hlong =>
        have hparent := Path.hasZero_parent (Bool.eq_false_iff.mpr hzero)
        have hshort : ¬maxPathBytes < (Utf8.encode path.parent.text).length := by
          have := Path.length_encode_parent_le path
          rw [maxPathBytes] at hlong ⊢
          omega
        rw [locate, hparent, if_neg Bool.false_ne_true, if_neg hshort]
        rfl
  obtain ⟨names, last, hconcat⟩ : ∃ names last, path.names = names ++ [last] :=
    ⟨_, _, (List.dropLast_concat_getLast hnames).symm⟩
  rw [hconcat, List.foldlM_append] at hfold
  obtain ⟨q, hq, hlast⟩ := bind_eq_ok hfold
  rw [List.foldlM_cons] at hlast
  obtain ⟨r, hstep, -⟩ := bind_eq_ok hlast
  rw [isFolder, hlocate, hconcat, List.dropLast_concat, hq]
  exact decide_eq_true (find?_of_step hstep)

/-! ### What cannot be written -/

theorem isFolder_of_makeFolder_error (h : disk.makeFolder folder path = .error fault)
    (hfault : fault ≠ .alreadyThere) : disk.isFolder folder path = false := by
  rw [makeFolder] at h
  rw [isFolder]
  cases hlocate : disk.locate folder path with
  | error => rfl
  | ok place =>
    simp only [hlocate, bind, Except.bind] at h
    cases hnode : disk.find? place with
    | some node =>
      rw [hnode] at h
      exact absurd (Except.error.inj h).symm hfault
    | none =>
      rw [hnode] at h
      cases h

theorem isFolder_of_not_parent (hnames : path.names ≠ [])
    (h : disk.isFolder folder path.parent = false) : disk.isFolder folder path = false := by
  rw [isFolder]
  cases hlocate : disk.locate folder path with
  | error => rfl
  | ok place =>
    rw [isFolder_parent hlocate hnames] at h
    cases h

/-- Where folders cannot be made there is no folder. -/
theorem isFolder_of_makeFolders_error
    (h : disk.makeFolders folder path = (.error fault, disk')) :
    disk'.isFolder folder path = false := by
  fun_induction makeFolders disk folder path generalizing fault disk' with
  | case1 => cases h
  | case2 path hmake hnames =>
    obtain ⟨-, rfl⟩ := Prod.mk.inj h
    exact isFolder_of_makeFolder_error hmake DiskFault.noConfusion
  | case3 path hmake hnames fault' disk'' hparent ih =>
    obtain ⟨-, rfl⟩ := Prod.mk.inj h
    exact isFolder_of_not_parent hnames (ih hparent)
  | case4 => cases h
  | case5 path hmake hnames disk'' hparent fault' hmake' ih =>
    obtain ⟨hresult, rfl⟩ := Prod.mk.inj h
    refine Bool.eq_false_iff.mpr fun hfolder => ?_
    rw [if_pos hfolder] at hresult
    cases hresult
  | case6 path fault' hmissing hmake =>
    obtain ⟨hresult, rfl⟩ := Prod.mk.inj h
    refine Bool.eq_false_iff.mpr fun hfolder => ?_
    rw [if_pos hfolder] at hresult
    cases hresult

theorem disk_of_makeFolders_error (hnames : path.names = [])
    (h : disk.makeFolders folder path = (.error fault, disk')) : disk' = disk := by
  revert h
  fun_cases makeFolders disk folder path with
  | case1 => exact nofun
  | case2 => exact fun h => (Prod.mk.inj h).2.symm
  | case3 _ hne => exact absurd hnames hne
  | case4 => exact nofun
  | case5 _ hne => exact absurd hnames hne
  | case6 => exact fun h => (Prod.mk.inj h).2.symm

/-- Where the folders around a file cannot be made, the file is as it was, or there is none. -/
theorem read_of_makeFolders_error
    (h : disk.makeFolders folder path.parent = (.error fault, disk')) :
    disk'.read folder path = disk.read folder path ∨
      ∃ fault, disk'.locate folder path = .error fault ∧ disk'.read folder path = .error fault := by
  by_cases hnames : path.names = []
  · have hparent : path.parent.names = [] := by rw [Path.parent, hnames]; rfl
    exact .inl (by rw [disk_of_makeFolders_error hparent h])
  · cases hlocate : disk'.locate folder path with
    | error fault' => exact .inr ⟨fault', rfl, read_of_locate_error hlocate⟩
    | ok place =>
      have hfolder := isFolder_parent hlocate hnames
      rw [isFolder_of_makeFolders_error h] at hfolder
      cases hfolder

/-- Where a file cannot be written there is none that can be read. -/
theorem read_of_write_error (h : disk.write folder path bytes = .error fault) :
    disk.read folder path = .error fault := by
  cases hlocate : disk.locate folder path with
  | error fault' =>
    rw [write, hlocate] at h
    obtain rfl := Except.error.inj h
    exact read_of_locate_error hlocate
  | ok place =>
    rw [read_of_locate hlocate, fileAt]
    simp only [write, hlocate, bind, Except.bind] at h
    split at h
    · rename_i hfolder
      obtain rfl := Except.error.inj h
      rw [hfolder]
    · cases h

/-! ### Names that no system call accepts -/

theorem read_ne_zeroInName (hzero : path.hasZero = false) :
    disk.read folder path ≠ .error .zeroInName := by
  cases hlocate : disk.locate folder path with
  | error fault =>
    rw [read_of_locate_error hlocate]
    intro hfault
    rw [Except.error.inj hfault, locate_eq_zeroInName, hzero] at hlocate
    cases hlocate
  | ok place =>
    rw [read_of_locate hlocate, fileAt]
    split <;> simp

theorem write_ne_zeroInName (hzero : path.hasZero = false) :
    disk.write folder path bytes ≠ .error .zeroInName :=
  fun h => read_ne_zeroInName hzero (read_of_write_error h)

theorem remove_ne_zeroInName (hzero : path.hasZero = false) :
    disk.remove folder path ≠ .error .zeroInName := by
  intro hremove
  rw [remove] at hremove
  split at hremove
  case h_1 => cases hremove
  case h_2 fault _ hlocate =>
    rw [Except.error.inj hremove, locate_eq_zeroInName, hzero] at hlocate
    cases hlocate
  case h_3 => split at hremove <;> cases hremove

theorem makeFolder_ne_zeroInName (hzero : path.hasZero = false) :
    disk.makeFolder folder path ≠ .error .zeroInName := by
  rw [makeFolder]
  cases hlocate : disk.locate folder path with
  | error fault =>
    intro hfault
    rw [Except.error.inj hfault, locate_eq_zeroInName, hzero] at hlocate
    cases hlocate
  | ok place =>
    simp only [bind, Except.bind]
    split <;> intro h <;> cases h

theorem makeFolders_ne_zeroInName (hzero : path.hasZero = false) :
    (disk.makeFolders folder path).1 ≠ .error .zeroInName := by
  have hresult {disk : Disk} {path : Path} {fault : DiskFault} (hzero : path.hasZero = false)
      (hmake : disk.makeFolder folder path = .error fault) :
      (if disk.isFolder folder path then .ok () else .error fault : Except DiskFault Unit) ≠
        .error .zeroInName := by
    split
    · simp
    · intro hfault
      rw [Except.error.inj hfault] at hmake
      exact makeFolder_ne_zeroInName hzero hmake
  fun_induction makeFolders disk folder path with
  | case1 => simp
  | case2 => simp
  | case3 path hmake hnames fault disk' hparent ih =>
    rw [hparent] at ih
    exact ih (Path.hasZero_parent hzero)
  | case4 => simp
  | case5 path hmake hnames disk' hparent fault hmake' ih => exact hresult hzero hmake'
  | case6 path fault hmissing hmake => exact hresult hzero hmake

/-! ### What has been written -/

/-- A disk on which nothing is different but that a file may have been written at a place, and that
folders have been made where nothing was. -/
def Amended (place : Place) (disk disk' : Disk) : Prop :=
  ∀ q, disk.KeptAt disk' q ∨
    q = place ∧ disk.find? q ≠ some .folder ∧ ∃ bytes, disk'.find? q = some (.file bytes)

theorem Amended.refl (place : Place) (disk : Disk) : Amended place disk disk :=
  fun q => .inl (.refl disk q)

theorem Amended.trans (h : Amended place disk disk') (h' : Amended place disk' disk'') :
    Amended place disk disk'' := by
  intro q
  rcases h' q with hkept' | ⟨hq, hnode', hfile'⟩
  · rcases h q with hkept | ⟨hq, hnode, bytes, hfile⟩
    · exact .inl (hkept.trans hkept')
    · refine .inr ⟨hq, hnode, bytes, ?_⟩
      rcases hkept' with heq | ⟨hnone, -⟩
      · exact heq.trans hfile
      · rw [hnone] at hfile
        cases hfile
  · refine .inr ⟨hq, fun hfolder => ?_, hfile'⟩
    rcases h q with heq | ⟨-, hnode, -⟩
    · rcases heq with heq | ⟨hnone, -⟩
      · exact hnode' (heq.trans hfolder)
      · rw [hnone] at hfolder
        cases hfolder
    · exact hnode hfolder

theorem Amended.beside (h : Amended place disk disk') : Beside place disk disk' := by
  intro q hq
  rcases h q with hkept | ⟨rfl, -⟩
  · exact hkept
  · exact absurd (List.prefix_refl q) hq

theorem amended_makeFolders (place : Place) (disk : Disk) (folder : Place) (path : Path) :
    Amended place disk (disk.makeFolders folder path).2 :=
  fun q => .inl (keptAt_makeFolders disk folder path q)

theorem amended_write (h : disk.write folder path bytes = .ok disk') :
    Amended (placeOf folder path) disk disk' := by
  obtain ⟨place, hlocate, hnode, rfl⟩ := write_eq_ok.mp h
  rw [← place_of_locate hlocate]
  intro q
  have hfind := @find?_put disk place (.file bytes) (ne_nil_of_find? hnode) q
  by_cases hq : q = place
  · rw [if_pos hq] at hfind
    exact .inr ⟨hq, hq ▸ hnode, bytes, hfind⟩
  · rw [if_neg hq] at hfind
    exact .inl (.inl hfind)

end Amended

end Disk

end Reckoner
