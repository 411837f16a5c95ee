import Reckoner.Proofs.Disk

/-! Folders on the way to a file.  A path at which a file can be written once the folders around it
are made stays such a path whatever is written there or removed, and nothing else changes but that
these folders are made. -/

namespace Reckoner

namespace Path

variable {path : Path}

theorem hasZero_parent (h : path.hasZero = false) : path.parent.hasZero = false := by
  rw [hasZero, List.any_eq_false] at h ⊢
  intro name hname
  exact h name (List.dropLast_subset _ hname)

theorem joined_dropLast_prefix (separator : Text) (texts : List Text) :
    Text.joined separator texts.dropLast <+: Text.joined separator texts := by
  rw [Text.joined, Text.joined]
  induction texts with
  | nil => exact List.prefix_refl _
  | cons text texts ih =>
    cases texts with
    | nil => exact List.nil_prefix
    | cons more texts =>
      cases texts with
      | nil =>
        rw [List.intercalate_cons_cons]
        simp [List.dropLast]
      | cons last texts =>
        rw [List.dropLast_cons_cons, List.dropLast_cons_cons, List.intercalate_cons_cons,
          List.intercalate_cons_cons, ← List.dropLast_cons_cons]
        exact (List.prefix_append_right_inj _).mpr ih

theorem length_encode_parent (h : path.isAbsolute = true) :
    (Utf8.encode path.parent.text).length ≤ (Utf8.encode path.text).length := by
  have hslashes : path.slashes ≠ 0 := by simpa [isAbsolute] using h
  have htext (names : List Text) : text { path with names } =
      List.replicate path.slashes '/' ++ Text.joined "/" names := by
    simp [text, hslashes]
  obtain ⟨rest, hrest⟩ := joined_dropLast_prefix "/" path.names
  rw [parent, htext, show path.text = text { path with names := path.names } from rfl, htext,
    ← hrest, ← List.append_assoc]
  generalize List.replicate path.slashes '/' ++ Text.joined "/" path.names.dropLast = shorter
  rw [Utf8.encode, Utf8.encode, List.flatMap_append, List.length_append]
  exact Nat.le_add_right _ _

end Path

namespace Disk

open Utf8 (Bytes)

section Folders

variable {disk disk' : Disk} {folder place start : Place} {path : Path} {bytes : Bytes}

/-! ### Absolute paths -/

theorem locate_of_isAbsolute (h : path.isAbsolute = true) (folder : Place) :
    disk.locate folder path = disk.locate [] path := by
  rw [locate, locate, if_pos h, if_pos h]

theorem read_of_isAbsolute (h : path.isAbsolute = true) (folder : Place) :
    disk.read folder path = disk.read [] path := by
  rw [read, read, locate_of_isAbsolute h]

theorem write_of_isAbsolute (h : path.isAbsolute = true) (folder : Place) :
    disk.write folder path bytes = disk.write [] path bytes := by
  rw [write, write, locate_of_isAbsolute h]

theorem remove_of_isAbsolute (h : path.isAbsolute = true) (folder : Place) :
    disk.remove folder path = disk.remove [] path := by
  rw [remove, remove, locate_of_isAbsolute h]

theorem makeFolders_of_isAbsolute (h : path.isAbsolute = true) (folder : Place) :
    disk.makeFolders folder path = disk.makeFolders [] path := by
  have hmake (disk : Disk) {path : Path} (h : path.isAbsolute = true) :
      disk.makeFolder folder path = disk.makeFolder [] path ∧
        disk.isFolder folder path = disk.isFolder [] path := by
    rw [makeFolder, makeFolder, isFolder, isFolder, locate_of_isAbsolute h]
    exact ⟨rfl, rfl⟩
  induction hn : path.names.length generalizing path with
  | zero =>
    rw [List.length_eq_zero_iff] at hn
    rw [makeFolders.eq_def disk folder, makeFolders.eq_def disk [], (hmake disk h).1,
      (hmake disk h).2]
    simp only [dif_pos hn]
  | succ n ih =>
    have hnames : path.names ≠ [] := List.ne_nil_of_length_eq_add_one hn
    have hparent := @ih path.parent h (by rw [Path.parent, List.length_dropLast, hn]; rfl)
    rw [makeFolders.eq_def disk folder, makeFolders.eq_def disk [], hparent]
    simp only [(hmake _ h).1, (hmake _ h).2]

/-! ### Ways to a place -/

/-- All places on the way to a place are folders. -/
def Approached (disk : Disk) (place : Place) : Prop :=
  ∀ q, q <+: place → q ≠ place → disk.find? q = some .folder

theorem Approached.dropLast (h : disk.Approached place) : disk.find? place.dropLast = some .folder := by
  by_cases hplace : place = []
  · rw [hplace]
    rfl
  · refine h _ (List.dropLast_prefix _) fun heq => ?_
    have hlength := congrArg List.length heq
    rw [List.length_dropLast] at hlength
    have := List.length_pos_iff.mpr hplace
    omega

theorem Approached.step {name : Text} (h : disk.Approached start)
    (hstep : disk.step start name = .ok place) : disk.Approached place := by
  have hfolder := find?_of_step hstep
  rw [Disk.step, hfolder] at hstep
  dsimp only at hstep
  split at hstep
  · -- Two dots lead back, and what was on the way to the old place is on the way to the new one.
    obtain rfl := Except.ok.inj hstep
    intro q hq hne
    refine h q (hq.trans (List.dropLast_prefix _)) fun heq => hne ?_
    exact List.IsPrefix.eq_of_length_le hq (heq ▸ (List.dropLast_prefix q).length_le)
  · split at hstep
    · cases hstep
    · obtain rfl := Except.ok.inj hstep
      intro q hq hne
      rcases List.prefix_concat_iff.mp hq with heq | hq
      · exact absurd heq hne
      · by_cases heq : q = start
        · rw [heq, hfolder]
        · exact h q hq heq

theorem Approached.foldlM {names : List Text} (h : disk.Approached start)
    (hfold : names.foldlM disk.step start = .ok place) : disk.Approached place := by
  induction names generalizing start with
  | nil => exact Except.ok.inj hfold ▸ h
  | cons name names ih =>
    obtain ⟨q, hstep, hrest⟩ := bind_eq_ok hfold
    exact ih (h.step hstep) hrest

theorem approached_nil (disk : Disk) : disk.Approached [] := fun _ hq hne =>
  absurd (List.prefix_nil.mp hq) hne

theorem approached_of_locate (h : disk.locate [] path = .ok place) : disk.Approached place := by
  obtain ⟨hfold, -⟩ := locate_of_ok h
  rw [startOf, ite_self] at hfold
  exact (approached_nil disk).foldlM hfold

/-- A path leads to the same place on a disk that has the folders on the way to it. -/
theorem locate_of_approached
    (h : ∀ q, disk.Approached q → disk.find? q = some .folder → disk'.find? q = some .folder)
    (hlocate : disk.locate [] path = .ok place) : disk'.locate [] path = .ok place := by
  have hnames (names : List Text) (start : Place) (hstart : disk.Approached start)
      (hfold : names.foldlM disk.step start = .ok place) :
      names.foldlM disk'.step start = .ok place := by
    induction names generalizing start with
    | nil => exact hfold
    | cons name names ih =>
      obtain ⟨q, hstep, hrest⟩ := bind_eq_ok hfold
      have hfolder := find?_of_step hstep
      rw [List.foldlM_cons, step_congr ((h start hstart hfolder).trans hfolder.symm), hstep]
      exact ih q (hstart.step hstep) hrest
  obtain ⟨hfold, hdisk⟩ := locate_of_ok hlocate
  rw [hdisk]
  rw [startOf, ite_self] at hfold ⊢
  exact hnames _ _ (approached_nil disk) hfold

/-- What is not a folder stands in a folder to which the parent of its path leads. -/
theorem locate_parent (habsolute : path.isAbsolute = true) (h : disk.locate [] path = .ok place)
    (hplace : disk.find? place ≠ some .folder) :
    disk.locate [] path.parent = .ok place.dropLast ∧ disk.find? place.dropLast = some .folder := by
  obtain ⟨hfold, -⟩ := locate_of_ok h
  have happroached := approached_of_locate h
  refine ⟨?_, happroached.dropLast⟩
  rw [startOf, if_pos habsolute] at hfold
  have hlocate : disk.locate [] path.parent = path.parent.names.foldlM disk.step [] := by
    rw [locate] at h
    split at h
    case isTrue => cases h
    case isFalse hzero =>
      split at h
      case isTrue => cases h
      case isFalse hlong =>
        have hparent := Path.hasZero_parent (Bool.eq_false_iff.mpr hzero)
        have hshort := Path.length_encode_parent habsolute
        rw [locate, hparent, if_neg Bool.false_ne_true, if_neg (by omega), ite_self]
  rw [hlocate, Path.parent]
  rcases List.eq_nil_or_concat path.names with hnames | ⟨names, last, hnames⟩
  · rw [hnames] at hfold
    obtain rfl := Except.ok.inj hfold
    exact absurd rfl hplace
  · rw [hnames, List.concat_eq_append, List.foldlM_append] at hfold
    obtain ⟨q, hq, hlast⟩ := bind_eq_ok hfold
    rw [List.foldlM_cons] at hlast
    obtain ⟨r, hstep, hr⟩ := bind_eq_ok hlast
    obtain rfl := Except.ok.inj hr
    dsimp only
    rw [hnames, List.concat_eq_append, List.dropLast_concat, hq]
    have hfolder := find?_of_step hstep
    rw [step, hfolder] at hstep
    dsimp only at hstep
    split at hstep
    · obtain rfl := Except.ok.inj hstep
      exact absurd ((approached_nil disk).foldlM hq).dropLast hplace
    · split at hstep
      · cases hstep
      · obtain rfl := Except.ok.inj hstep
        rw [List.dropLast_concat]

/-! ### Making folders -/

/-- What is at a place is still there, or a folder has been made where nothing was. -/
def KeptAt (disk disk' : Disk) (q : Place) : Prop :=
  disk'.find? q = disk.find? q ∨ disk.find? q = none ∧ disk'.find? q = some .folder

theorem KeptAt.refl (disk : Disk) (q : Place) : disk.KeptAt disk q := .inl rfl

theorem KeptAt.trans {disk₁ disk₂ disk₃ : Disk} {q : Place} (h : disk₁.KeptAt disk₂ q)
    (h' : disk₂.KeptAt disk₃ q) : disk₁.KeptAt disk₃ q := by
  rcases h with h | ⟨hnone, hfolder⟩
  · rcases h' with h' | ⟨hnone, hfolder⟩
    · exact .inl (h'.trans h)
    · exact .inr ⟨h.symm.trans hnone, hfolder⟩
  · rcases h' with h' | ⟨hnone', -⟩
    · exact .inr ⟨hnone, h'.trans hfolder⟩
    · rw [hnone'] at hfolder
      cases hfolder

/-- A folder that is made stands where nothing was, and everything else is as it was. -/
theorem find?_of_makeFolder (h : disk.makeFolder folder path = .ok disk') :
    ∃ place, disk.locate folder path = .ok place ∧ disk.find? place = none ∧
      ∀ q, disk'.find? q = if q = place then some .folder else disk.find? q := by
  obtain ⟨place, hlocate, h⟩ := bind_eq_ok h
  split at h
  case h_1 => cases h
  case h_2 hnone =>
    obtain rfl := Except.ok.inj h
    have hplace : place ≠ [] := ne_nil_of_find? (by rw [hnone]; exact nofun)
    exact ⟨place, hlocate, hnone, find?_put hplace⟩

theorem keptAt_makeFolder (h : disk.makeFolder folder path = .ok disk') (q : Place) :
    disk.KeptAt disk' q := by
  obtain ⟨place, -, hnone, hfind⟩ := find?_of_makeFolder h
  by_cases hq : q = place
  · exact .inr ⟨by rw [hq, hnone], by rw [hfind, if_pos hq]⟩
  · exact .inl (by rw [hfind, if_neg hq])

theorem keptAt_makeFolders (disk : Disk) (folder : Place) (path : Path) (q : Place) :
    disk.KeptAt (disk.makeFolders folder path).2 q := by
  fun_induction makeFolders disk folder path with
  | case1 path disk' hmake => exact keptAt_makeFolder hmake q
  | case2 path hmake hnames => exact .refl disk q
  | case3 path hmake hnames fault disk' hparent ih =>
    rw [hparent] at ih
    exact ih
  | case4 path hmake hnames disk' hparent disk'' hmake' ih =>
    rw [hparent] at ih
    exact ih.trans (keptAt_makeFolder hmake' q)
  | case5 path hmake hnames disk' hparent fault hmake' ih =>
    rw [hparent] at ih
    exact ih
  | case6 path fault hmake hmissing => exact .refl disk q

theorem makeFolders_of_locate (h : disk.locate folder path = .ok place)
    (hplace : disk.find? place = some .folder) : disk.makeFolders folder path = (.ok (), disk) := by
  have hmake : disk.makeFolder folder path = .error .alreadyThere := by
    rw [makeFolder, h]
    simp [hplace, bind, Except.bind, throw, throwThe, MonadExceptOf.throw]
  rw [makeFolders, hmake]
  dsimp only
  rw [isFolder, h]
  simp [hplace]

/-! ### Files that can be written -/

/-- A disk on which nothing is different but what is at a place and below it, and that folders have
been made where nothing was. -/
def Beside (place : Place) (disk disk' : Disk) : Prop := ∀ q, ¬place <+: q → disk.KeptAt disk' q

theorem Beside.refl (place : Place) (disk : Disk) : Beside place disk disk := fun q _ => .refl disk q

theorem beside_put {place : Place} (hplace : place ≠ []) (disk : Disk) (node : Node) :
    Beside place disk (disk.put place node) := by
  refine fun q hq => .inl ?_
  rw [find?_put hplace, if_neg]
  rintro rfl
  exact hq (List.prefix_refl q)

theorem Beside.trans {disk₁ disk₂ disk₃ : Disk} (h : Beside place disk₁ disk₂)
    (h' : Beside place disk₂ disk₃) : Beside place disk₁ disk₃ :=
  fun q hq => (h q hq).trans (h' q hq)

/-- A file can be written at an absolute path once the folders around it are made; the path leads to
this place then. -/
structure Writable (path : Path) (place : Place) (disk : Disk) : Prop where
  absolute : path.isAbsolute = true
  folders : ∃ disk', disk.makeFolders [] path.parent = (.ok (), disk') ∧
    disk'.locate [] path = .ok place ∧ disk'.find? place ≠ some .folder

theorem writable_of_locate (habsolute : path.isAbsolute = true)
    (h : disk.locate [] path = .ok place) (hplace : disk.find? place ≠ some .folder) :
    disk.Writable path place := by
  obtain ⟨hparent, hfolder⟩ := locate_parent habsolute h hplace
  exact ⟨habsolute, disk, makeFolders_of_locate hparent hfolder, h, hplace⟩

theorem Writable.write (h : disk.Writable path place) (bytes : Bytes) : ∃ made written,
    disk.makeFolders [] path.parent = (.ok (), made) ∧ made.write [] path bytes = .ok written ∧
      written.Writable path place ∧ Beside place disk written := by
  obtain ⟨made, hmake, hlocate, hnode⟩ := h.folders
  have hplace := ne_nil_of_find? hnode
  refine ⟨made, made.put place (.file bytes), hmake, write_eq_ok.mpr ⟨place, hlocate, hnode, rfl⟩,
    writable_of_locate h.absolute (locate_of_forall (fun q hq => ?_) hlocate) ?_, fun q hq => ?_⟩
  · rw [find?_put hplace, if_neg, hq]
    rintro rfl
    exact hnode hq
  · rw [find?_put hplace, if_pos rfl]
    exact nofun
  · have hmade := keptAt_makeFolders disk [] path.parent q
    rw [hmake] at hmade
    refine hmade.trans (.inl ?_)
    rw [find?_put hplace, if_neg]
    rintro rfl
    exact hq (List.prefix_refl q)

theorem Writable.remove (h : disk.Writable path place) : ∃ removed,
    disk.remove [] path = .ok removed ∧ removed.Writable path place ∧ Beside place disk removed := by
  obtain ⟨made, hmake, hlocate, hnode⟩ := h.folders
  have hplace := ne_nil_of_find? hnode
  have hkept (q : Place) : disk.KeptAt made q := by
    have hmade := keptAt_makeFolders disk [] path.parent q
    rwa [hmake] at hmade
  have hfolders (q : Place) (hq : made.find? q = some .folder) :
      disk.find? q = some .folder ∨ disk.find? q = none := by
    rcases hkept q with heq | ⟨hnone, -⟩
    · exact .inl (heq ▸ hq)
    · exact .inr hnone
  -- A folder on the way may be missing yet, and then there is no file to remove.
  rcases locate_or_missing hfolders hlocate with hlocate' | ⟨hmissing, -⟩
  · cases hfile : disk.find? place with
    | none => exact ⟨disk, by rw [Disk.remove, hlocate']; dsimp only; rw [hfile], h, .refl _ _⟩
    | some node =>
      cases node with
      | folder =>
        rcases hkept place with heq | ⟨hnone, -⟩
        · exact absurd (heq.trans hfile) hnode
        · rw [hnone] at hfile
          cases hfile
      | file bytes =>
        refine ⟨disk.without place, by rw [Disk.remove, hlocate']; dsimp only; rw [hfile],
          writable_of_locate h.absolute (locate_of_approached (fun q hq hfolder => ?_) hlocate') ?_,
          fun q hq => .inl ?_⟩
        · rw [find?_without hplace, if_neg, hfolder]
          intro hprefix
          have hprefix := List.isPrefixOf_iff_prefix.mp hprefix
          have hfound : disk.find? place = some .folder := by
            by_cases heq : place = q
            · rw [heq, hfolder]
            · exact hq place hprefix heq
          rw [hfound] at hfile
          cases hfile
        · rw [find?_without hplace, if_pos (List.isPrefixOf_iff_prefix.mpr (List.prefix_refl _))]
          simp
        · rw [find?_without hplace, if_neg fun hprefix => hq (List.isPrefixOf_iff_prefix.mp hprefix)]
  · exact ⟨disk, by rw [Disk.remove, hmissing], h, .refl _ _⟩

end Folders

end Disk

end Reckoner
