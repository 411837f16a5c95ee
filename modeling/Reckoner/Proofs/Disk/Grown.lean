import Reckoner.Proofs.Disk.Amended

/-! Disks on which folders have been made on the way to a path, and a file written at its end. -/

namespace Reckoner.Disk

open Utf8 (Bytes)

section Grown

variable {disk disk' disk'' : Disk} {folder q : Place} {path : Path} {bytes : Bytes}

/-- A place on the way to where a path leads, or its end. -/
def OnWay (folder : Place) (path : Path) (q : Place) : Prop :=
  ∃ names, names <+: path.names ∧ q = placeOf folder { path with names }

theorem onWay_placeOf (folder : Place) (path : Path) : OnWay folder path (placeOf folder path) :=
  ⟨path.names, List.prefix_refl _, rfl⟩

theorem OnWay.of_parent (h : OnWay folder path.parent q) : OnWay folder path q := by
  obtain ⟨names, hnames, hq⟩ := h
  exact ⟨names, hnames.trans (List.dropLast_prefix _), hq⟩

/-- A disk on which nothing is different but that folders have been made, where nothing was, on the
way to where a path leads. -/
structure Grown (folder : Place) (path : Path) (disk disk' : Disk) : Prop where
  kept (q : Place) : disk.KeptAt disk' q
  onWay (q : Place) : disk'.find? q ≠ disk.find? q → OnWay folder path q

theorem Grown.refl (folder : Place) (path : Path) (disk : Disk) : Grown folder path disk disk :=
  ⟨KeptAt.refl disk, fun _ h => absurd rfl h⟩

theorem Grown.trans (h : Grown folder path disk disk') (h' : Grown folder path disk' disk'') :
    Grown folder path disk disk'' := by
  refine ⟨fun q => (h.kept q).trans (h'.kept q), fun q hq => ?_⟩
  by_cases hsame : disk'.find? q = disk.find? q
  · exact h'.onWay q (by rwa [hsame])
  · exact h.onWay q hsame

theorem Grown.of_parent (h : Grown folder path.parent disk disk') : Grown folder path disk disk' :=
  ⟨h.kept, fun q hq => (h.onWay q hq).of_parent⟩

theorem grown_makeFolder (h : disk.makeFolder folder path = .ok disk') :
    Grown folder path disk disk' := by
  obtain ⟨place, hlocate, -, hfind⟩ := find?_of_makeFolder h
  refine ⟨keptAt_makeFolder h, fun q hq => ?_⟩
  rw [hfind] at hq
  by_cases heq : q = place
  · rw [heq, place_of_locate hlocate]
    exact onWay_placeOf folder path
  · exact absurd (if_neg heq) hq

/-- The folders that are made are on the way, also where not all of them can be made. -/
theorem grown_makeFolders (disk : Disk) (folder : Place) (path : Path) :
    Grown folder path disk (disk.makeFolders folder path).2 := by
  fun_induction makeFolders disk folder path with
  | case1 path disk' hmake => exact grown_makeFolder hmake
  | case2 path hmake hnames => exact .refl folder path disk
  | case3 path hmake hnames fault disk' hparent ih =>
    rw [hparent] at ih
    exact ih.of_parent
  | case4 path hmake hnames disk' hparent disk'' hmake' ih =>
    rw [hparent] at ih
    exact ih.of_parent.trans (grown_makeFolder hmake')
  | case5 path hmake hnames disk' hparent fault hmake' ih =>
    rw [hparent] at ih
    exact ih.of_parent
  | case6 path fault hmake hmissing => exact .refl folder path disk

/-- On the way to a folder that is there are folders alone. -/
theorem find?_of_onWay (h : disk.isFolder folder path = true) (hq : OnWay folder path q) :
    disk.find? q = some .folder := by
  obtain ⟨names, ⟨rest, hrest⟩, rfl⟩ := hq
  rw [isFolder] at h
  split at h
  case h_2 => cases h
  case h_1 place hlocate =>
    obtain ⟨hfold, -⟩ := locate_of_ok hlocate
    rw [← hrest, List.foldlM_append] at hfold
    obtain ⟨between, hnames, hfold⟩ := bind_eq_ok hfold
    obtain rfl : between = placeOf folder { path with names } := place_of_foldlM hnames
    cases rest with
    | nil =>
      rw [Except.ok.inj hfold]
      exact of_decide_eq_true h
    | cons name rest =>
      obtain ⟨next, hstep, -⟩ := bind_eq_ok hfold
      exact find?_of_step hstep

/-- Nothing is made on the way to a folder that is there. -/
theorem Grown.find?_of_isFolder (h : Grown folder path disk disk')
    (hfolder : disk.isFolder folder path = true) (q : Place) : disk'.find? q = disk.find? q := by
  rcases h.kept q with hsame | ⟨hnone, hmade⟩
  · exact hsame
  · have hthere := find?_of_onWay hfolder (h.onWay q (by rw [hnone, hmade]; exact nofun))
    rw [hnone] at hthere
    cases hthere

/-- Where the disk is another one after folders were to be made, one has been made. -/
theorem eq_or_made (disk : Disk) (folder : Place) (path : Path) :
    (disk.makeFolders folder path).2 = disk ∨
      ∃ q, disk.find? q = none ∧ (disk.makeFolders folder path).2.find? q = some .folder := by
  have hmakes {disk disk' : Disk} {path : Path} (h : disk.makeFolder folder path = .ok disk') :
      ∃ q, disk.find? q = none ∧ disk'.find? q = some .folder := by
    obtain ⟨place, -, hnone, hfind⟩ := find?_of_makeFolder h
    exact ⟨place, hnone, by rw [hfind, if_pos rfl]⟩
  fun_induction makeFolders disk folder path with
  | case1 path disk' hmake => exact .inr (hmakes hmake)
  | case2 path hmake hnames => exact .inl rfl
  | case3 path hmake hnames fault disk' hparent ih =>
    rw [hparent] at ih
    exact ih
  | case4 path hmake hnames disk' hparent disk'' hmake' ih =>
    obtain ⟨q, hnone, hmade⟩ := hmakes hmake'
    have hkept := keptAt_makeFolders disk folder path.parent q
    rw [hparent] at hkept
    refine .inr ⟨q, ?_, hmade⟩
    rcases hkept with hsame | ⟨hnone', -⟩
    · exact hsame ▸ hnone
    · exact hnone'
  | case5 path hmake hnames disk' hparent fault hmake' ih =>
    rw [hparent] at ih
    exact ih
  | case6 path fault hmake hmissing => exact .inl rfl

/-- A file that could be read holds the same where folders have been made. -/
theorem Grown.read {start : Place} {way : Path} (h : Grown start way disk disk') (hread : disk.read folder path = .ok bytes) :
    disk'.read folder path = .ok bytes := by
  have hkept (q : Place) {node : Node} (hq : disk.find? q = some node) : disk'.find? q = some node := by
    rcases h.kept q with hsame | ⟨hnone, -⟩
    · rw [hsame, hq]
    · rw [hq] at hnone
      cases hnone
  cases hlocate : disk.locate folder path with
  | error fault =>
    rw [read_of_locate_error hlocate] at hread
    cases hread
  | ok place =>
    rw [read_of_locate (locate_of_forall (fun q => hkept q) hlocate), fileAt]
    rw [read_of_locate hlocate, fileAt] at hread
    split at hread
    case h_1 hfile => rw [hkept place hfile, Except.ok.inj hread]
    case h_2 => cases hread
    case h_3 => cases hread

/-! ### A file and the folders on the way to it -/

/-- A disk on which nothing is different but that a file may have been written where a path leads, and
that folders have been made, where nothing was, on the way to it. -/
structure Written (folder : Place) (path : Path) (disk disk' : Disk) : Prop where
  amended : Amended (placeOf folder path) disk disk'
  onWay (q : Place) : disk.find? q = none → disk'.find? q = some .folder →
    OnWay folder path.parent q

theorem Written.refl (folder : Place) (path : Path) (disk : Disk) : Written folder path disk disk := by
  refine ⟨.refl _ disk, fun q hnone hfolder => ?_⟩
  rw [hnone] at hfolder
  cases hfolder

theorem Written.trans (h : Written folder path disk disk') (h' : Written folder path disk' disk'') :
    Written folder path disk disk'' := by
  refine ⟨h.amended.trans h'.amended, fun q hnone hfolder => ?_⟩
  rcases h.amended q with (hsame | ⟨-, hmade⟩) | ⟨-, -, bytes, hfile⟩
  · exact h'.onWay q (hsame.trans hnone) hfolder
  · exact h.onWay q hnone hmade
  · -- A file stays a file.
    rcases h'.amended q with (hsame | ⟨hnone', -⟩) | ⟨-, -, bytes', hfile'⟩
    · rw [hsame, hfile] at hfolder
      cases hfolder
    · rw [hfile] at hnone'
      cases hnone'
    · rw [hfile'] at hfolder
      cases hfolder

theorem Grown.written (h : Grown folder path.parent disk disk') : Written folder path disk disk' := by
  refine ⟨fun q => .inl (h.kept q), fun q hnone hfolder => h.onWay q ?_⟩
  rw [hnone, hfolder]
  simp

/-- Where something is different after a file has been written, it is that file. -/
theorem eq_of_write (h : disk.write folder path bytes = .ok disk')
    (hq : disk'.find? q ≠ disk.find? q) : q = placeOf folder path ∧
      disk.find? q ≠ some .folder ∧ disk'.find? q = some (.file bytes) := by
  obtain ⟨place, hlocate, hnode, rfl⟩ := write_eq_ok.mp h
  rw [find?_put (ne_nil_of_find? hnode)] at hq ⊢
  by_cases heq : q = place
  · rw [if_pos heq, heq]
    exact ⟨place_of_locate hlocate, hnode, rfl⟩
  · exact absurd (if_neg heq) hq

theorem written_write (h : disk.write folder path bytes = .ok disk') :
    Written folder path disk disk' := by
  refine ⟨amended_write h, fun q hnone hfolder => ?_⟩
  have hchanged : disk'.find? q ≠ disk.find? q := by simp [hnone, hfolder]
  obtain ⟨-, -, hfile⟩ := eq_of_write h hchanged
  rw [hfile] at hfolder
  cases hfolder

/-! ### A file that is removed -/

/-- A disk on which whatever is above something is a folder. -/
def IsTree (disk : Disk) : Prop :=
  ∀ p q, p <+: q → p ≠ q → disk.find? q ≠ none → disk.find? p = some .folder

end Grown

end Reckoner.Disk
