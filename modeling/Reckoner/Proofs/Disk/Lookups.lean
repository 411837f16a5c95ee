import Mathlib.Data.List.Induction
import Reckoner.Proofs.Disk.Grown

/-! Looking for files.  In a tree, an absolute path without two dots that is not too long leads to a
file just if there is one at the place of its names. -/

namespace Reckoner

namespace Path

variable {path : Path} {names names' : List Text} {name : Text}

/-! ### Paths that are not too long -/

/-- A path that every system call takes: neither the path nor one of its names is too long, and no
name has the character that ends a name. -/
structure Fits (path : Path) : Prop where
  hasZero : path.hasZero = false
  length : (Utf8.encode path.text).length ≤ maxPathBytes
  names : ∀ name ∈ path.names, (Utf8.encode name).length ≤ maxNameBytes

instance (path : Path) : Decidable path.Fits :=
  decidable_of_iff (path.hasZero = false ∧ (Utf8.encode path.text).length ≤ maxPathBytes ∧
      ∀ name ∈ path.names, (Utf8.encode name).length ≤ maxNameBytes)
    ⟨fun ⟨hzero, hlength, hnames⟩ => ⟨hzero, hlength, hnames⟩,
      fun h => ⟨h.hasZero, h.length, h.names⟩⟩

/-- How many bytes names have with a slash before each. -/
def bytesOf : List Text → Nat
  | [] => 0
  | name :: names => (Utf8.encode name).length + 1 + bytesOf names

theorem length_encode_slash (s : Text) :
    (Utf8.encode ('/' :: s)).length = (Utf8.encode s).length + 1 := by
  rw [Utf8.encode, List.flatMap_cons, List.length_append, Nat.add_comm]
  rfl

theorem length_encode_joined (name : Text) (names : List Text) :
    (Utf8.encode (Text.joined "/" (name :: names))).length + 1 = bytesOf (name :: names) := by
  induction names generalizing name with
  | nil => simp [Text.joined, bytesOf]
  | cons next names ih =>
    have hjoined : Text.joined "/" (name :: next :: names) =
        name ++ '/' :: Text.joined "/" (next :: names) := by
      rw [Text.joined, List.intercalate_cons_cons, List.append_assoc]
      rfl
    have happend (s t : Text) :
        (Utf8.encode (s ++ t)).length = (Utf8.encode s).length + (Utf8.encode t).length := by
      rw [Utf8.encode, List.flatMap_append, List.length_append]
      rfl
    rw [hjoined, bytesOf, ← ih next, happend, length_encode_slash]
    omega

theorem length_encode_ofNames (names : List Text) :
    (Utf8.encode (ofNames names).text).length = max 1 (bytesOf names) := by
  rw [show (ofNames names).text = '/' :: Text.joined "/" names from rfl, length_encode_slash]
  cases names with
  | nil => rfl
  | cons name names =>
    have := length_encode_joined name names
    omega

theorem bytesOf_le (h : names'.Sublist names) : bytesOf names' ≤ bytesOf names := by
  induction h with
  | slnil => exact Nat.le_refl _
  | cons name _ ih => exact Nat.le_trans ih (Nat.le_add_left _ _)
  | cons_cons name _ ih => exact Nat.add_le_add_left ih _

/-- An absolute path with fewer names is not too long either. -/
theorem Fits.sublist (h : (ofNames names).Fits) (hsub : names'.Sublist names) :
    (ofNames names').Fits where
  hasZero := by
    have hzero := h.hasZero
    rw [Path.hasZero, List.any_eq_false] at hzero ⊢
    exact fun name hname => hzero name (hsub.subset hname)
  length := by
    have hlength := h.length
    have hbytes := bytesOf_le hsub
    rw [length_encode_ofNames] at hlength ⊢
    omega
  names := fun name hname => h.names name (hsub.subset hname)

/-! ### Two dots -/

theorem collapsed_concat (names : List Text) (name : Text) : collapsed (names ++ [name]) =
    if name = "..".toList then (collapsed names).dropLast else collapsed names ++ [name] := by
  rw [collapsed, List.foldl_append]
  rfl

theorem dots_not_mem_collapsed (names : List Text) : "..".toList ∉ collapsed names := by
  induction names using List.reverseRecOn with
  | nil => exact List.not_mem_nil
  | append_singleton names name ih =>
    rw [collapsed_concat]
    split
    case isTrue => exact fun hmem => ih (List.dropLast_subset _ hmem)
    case isFalse hname =>
      rw [List.mem_append, List.mem_singleton, not_or]
      exact ⟨ih, Ne.symm hname⟩

theorem collapsed_eq_self (h : "..".toList ∉ names) : collapsed names = names := by
  induction names using List.reverseRecOn with
  | nil => rfl
  | append_singleton names name ih =>
    rw [List.mem_append, List.mem_singleton, not_or] at h
    rw [collapsed_concat, if_neg (Ne.symm h.2), ih h.1]

theorem length_collapsed_le (names : List Text) : (collapsed names).length ≤ names.length := by
  induction names using List.reverseRecOn with
  | nil => exact Nat.le_refl _
  | append_singleton names name ih =>
    rw [collapsed_concat, List.length_append, List.length_singleton]
    split
    case isTrue =>
      rw [List.length_dropLast]
      omega
    case isFalse =>
      rw [List.length_append, List.length_singleton]
      omega

/-- The parent of a path that does not end with two dots leads to the folder around its place. -/
theorem resolved_parent (folder : List Text) (hpath : path.names = names ++ [name])
    (hname : name ≠ "..".toList) :
    (path.parent.resolved folder).names = (path.resolved folder).names.dropLast := by
  have hparent : path.parent = { path with names } := by
    rw [parent, hpath, List.dropLast_concat]
  rw [hparent, resolved, resolved, hpath]
  change collapsed (if path.isAbsolute then names else folder ++ names) = (collapsed
    (if path.isAbsolute then names ++ [name] else folder ++ (names ++ [name]))).dropLast
  split
  · rw [collapsed_concat, if_neg hname, List.dropLast_concat]
  · rw [← List.append_assoc, collapsed_concat, if_neg hname, List.dropLast_concat]

end Path

namespace Disk

section Lookups

variable {disk : Disk} {folder place start : Place} {path : Path} {names : List Text}

/-! ### What a path leads to -/

/-- There is a file at a place. -/
def HasFile (disk : Disk) (place : Place) : Prop := ∃ bytes, disk.find? place = some (.file bytes)

theorem isFile_eq_true : disk.isFile folder path = .ok true ↔
    ∃ place, disk.locate folder path = .ok place ∧ disk.HasFile place := by
  rw [isFile]
  cases hlocate : disk.locate folder path with
  | error fault => cases fault <;> simp
  | ok place =>
    have hplace : (∃ q, Except.ok (ε := DiskFault) place = .ok q ∧ disk.HasFile q) ↔
        disk.HasFile place :=
      ⟨fun ⟨q, hq, hfile⟩ => Except.ok.inj hq ▸ hfile, fun hfile => ⟨place, rfl, hfile⟩⟩
    rw [hplace, HasFile]
    dsimp only
    cases hnode : disk.find? place with
    | none => simp
    | some node => cases node <;> simp

theorem isFile_of_isAbsolute (h : path.isAbsolute = true) (folder folder' : Place) :
    disk.isFile folder path = disk.isFile folder' path := by
  rw [isFile, isFile, locate_of_isAbsolute h, locate_of_isAbsolute h folder']

theorem locate_of_fits (h : path.Fits) (folder : Place) :
    disk.locate folder path = path.names.foldlM disk.step (startOf folder path) := by
  rw [locate, h.hasZero, if_neg Bool.false_ne_true, if_neg (Nat.not_lt.mpr h.length)]
  rfl

/-- Nothing is too long for a system call on the way of a path that fits. -/
theorem isFile_of_fits (h : path.Fits) (folder : Place) :
    ∃ found, disk.isFile folder path = .ok found := by
  have hlong : disk.locate folder path ≠ .error .nameTooLong := by
    rw [locate_of_fits h]
    intro hfold
    obtain ⟨before, name, after, between, hnames, -, hstep⟩ := foldlM_eq_error.mp hfold
    have hname := h.names name (by rw [hnames]; simp)
    rw [step] at hstep
    split at hstep
    · cases hstep
    · cases hstep
    · split at hstep
      · cases hstep
      · rw [if_neg (Nat.not_lt.mpr hname)] at hstep
        cases hstep
  rw [isFile]
  split
  · split
    · exact ⟨true, rfl⟩
    · exact ⟨false, rfl⟩
  · exact absurd ‹_› hlong
  · exact ⟨false, rfl⟩

/-! ### Trees -/

/-- A disk on which whatever is listed is in a folder is a tree. -/
theorem isTree_of_entries
    (h : ∀ entry ∈ disk.entries, disk.find? entry.1.dropLast = some .folder) : disk.IsTree := by
  intro p q
  induction q using List.reverseRecOn with
  | nil => exact fun hprefix hne => absurd (List.prefix_nil.mp hprefix) hne
  | append_singleton q name ih =>
    intro hprefix hne hplace
    have hq : disk.find? q = some .folder := by
      rw [find?, if_neg (by simp)] at hplace
      obtain ⟨node, hnode⟩ := Option.ne_none_iff_exists'.mp hplace
      obtain ⟨before, after, hentries, -⟩ := List.lookup_eq_some_iff.mp hnode
      simpa using h (q ++ [name], node) (by rw [hentries]; simp)
    rcases List.prefix_concat_iff.mp hprefix with heq | hprefix
    · exact absurd heq hne
    · by_cases heq : p = q
      · rw [heq, hq]
      · exact ih hprefix heq (by simp [hq])

theorem IsTree.approached (h : disk.IsTree) (hplace : disk.find? place ≠ none) :
    disk.Approached place :=
  fun q hq hne => h q place hq hne hplace

/-- Names lead down through folders to the place that they make. -/
theorem Approached.foldlM_step (h : disk.Approached (start ++ names))
    (hdots : "..".toList ∉ names)
    (hlong : ∀ name ∈ names, (Utf8.encode name).length ≤ maxNameBytes) :
    names.foldlM disk.step start = .ok (start ++ names) := by
  induction names generalizing start with
  | nil => rw [List.append_nil]; rfl
  | cons name names ih =>
    obtain ⟨hname, hnames⟩ := not_or.mp (mt List.mem_cons.mpr hdots)
    obtain ⟨hshort, hlong⟩ := List.forall_mem_cons.mp hlong
    have hfolder : disk.find? start = some .folder :=
      h start (List.prefix_append _ _) (by simp)
    have hstep : disk.step start name = .ok (start ++ [name]) := by
      rw [Disk.step, hfolder]
      dsimp only
      rw [if_neg (Ne.symm hname), if_neg (Nat.not_lt.mpr hshort)]
    rw [List.append_cons] at h ⊢
    rw [List.foldlM_cons, hstep]
    exact ih h hnames hlong

/-- An absolute path without two dots leads to a file just if there is one at the place of its
names. -/
theorem IsTree.isFile_ofNames (h : disk.IsTree) (hfits : (Path.ofNames names).Fits)
    (hdots : "..".toList ∉ names) (folder : Place) :
    ∃ found, disk.isFile folder (.ofNames names) = .ok found ∧
      (found = true ↔ disk.HasFile names) := by
  obtain ⟨found, hfound⟩ := @isFile_of_fits disk _ hfits folder
  refine ⟨found, hfound, ?_⟩
  have hplace : disk.isFile folder (.ofNames names) = .ok true ↔ disk.HasFile names := by
    rw [isFile_eq_true, locate_of_fits hfits]
    constructor
    · rintro ⟨place, hfold, hfile⟩
      have hplace := place_of_foldlM hfold
      obtain rfl : place = names := hplace.trans (Path.collapsed_eq_self hdots)
      exact hfile
    · rintro ⟨bytes, hfile⟩
      have happroached : disk.Approached ([] ++ names) := h.approached (by simp [hfile])
      exact ⟨names, happroached.foldlM_step hdots hfits.names, bytes, hfile⟩
  rw [← hplace, hfound]
  exact ⟨fun htrue => htrue ▸ rfl, Except.ok.inj⟩

/-- A path that leads to a file ends with the name of the file. -/
theorem IsTree.last_of_isFile (h : disk.IsTree) (hfolder : disk.find? folder = some .folder)
    (hfile : disk.isFile folder path = .ok true) :
    ∃ names name, path.names = names ++ [name] ∧ name ≠ "..".toList := by
  obtain ⟨place, hlocate, bytes, hbytes⟩ := isFile_eq_true.mp hfile
  obtain ⟨hfold, -⟩ := locate_of_ok hlocate
  have hstart : disk.find? (startOf folder path) = some .folder := by
    rw [startOf]
    split
    · rfl
    · exact hfolder
  rcases List.eq_nil_or_concat path.names with hnil | ⟨names, name, hnames⟩
  · rw [hnil] at hfold
    rw [← Except.ok.inj hfold, hstart] at hbytes
    cases hbytes
  · rw [List.concat_eq_append] at hnames
    refine ⟨names, name, hnames, ?_⟩
    rintro rfl
    rw [hnames, List.foldlM_append] at hfold
    obtain ⟨between, hbetween, hlast⟩ := bind_eq_ok hfold
    rw [List.foldlM_cons] at hlast
    obtain ⟨q, hstep, hq⟩ := bind_eq_ok hlast
    obtain rfl := Except.ok.inj hq
    have happroached := (h.approached (by simp [hstart])).foldlM hbetween
    rw [step, find?_of_step hstep] at hstep
    obtain rfl := Except.ok.inj hstep
    -- Two dots lead back to a folder.
    rw [happroached.dropLast] at hbytes
    cases hbytes

end Lookups

end Disk

end Reckoner
