import Reckoner.Disk
import Reckoner.Proofs.Results

/-! What a file holds after it was written or removed.  A path leads to the same place as long as
the folders on the way to it are there, and a file is never one of them. -/

namespace Reckoner.Disk

open Utf8 (Bytes)

section Disk

variable {disk disk' : Disk} {folder place : Place} {path : Path} {node : Node} {bytes : Bytes}

/-! ### Places -/

theorem lookup_filter (p : Place → Bool) (entries : List (Place × Node)) (q : Place) :
    (entries.filter fun entry => p entry.1).lookup q = if p q then entries.lookup q else none := by
  induction entries with
  | nil => simp
  | cons entry entries ih =>
    obtain ⟨r, node⟩ := entry
    by_cases hq : q = r
    · subst hq
      cases hp : p q with
      | true => simp [hp]
      | false => simpa [hp] using ih
    · cases hr : p r with
      | true => simpa [hr, List.lookup_cons, beq_eq_false_iff_ne.mpr hq] using ih
      | false => simpa [hr, List.lookup_cons, beq_eq_false_iff_ne.mpr hq] using ih

theorem find?_put (hplace : place ≠ []) (q : Place) : (disk.put place node).find? q =
    if q = place then some node else disk.find? q := by
  rw [find?, find?, put]
  dsimp only
  rw [List.lookup_cons, lookup_filter (· != place)]
  by_cases hq : q = place
  · subst hq
    simp [hplace]
  · simp [hq, beq_eq_false_iff_ne.mpr hq]

theorem find?_without (hplace : place ≠ []) (q : Place) : (disk.without place).find? q =
    if place.isPrefixOf q then none else disk.find? q := by
  rw [find?, find?, without]
  dsimp only
  rw [lookup_filter (fun r => !place.isPrefixOf r)]
  by_cases hq : q = []
  · subst hq
    cases place with
    | nil => exact absurd rfl hplace
    | cons => simp [List.isPrefixOf]
  · cases place.isPrefixOf q <;> simp [hq]

/-! ### Paths -/

theorem find?_of_step {q r : Place} {name : Text} (h : disk.step q name = .ok r) :
    disk.find? q = some .folder := by
  rw [step] at h
  split at h
  · cases h
  · cases h
  · assumption

theorem step_congr {q : Place} (h : disk'.find? q = disk.find? q) (name : Text) :
    disk'.step q name = disk.step q name := by
  rw [step, step, h]

/-- Where a path starts. -/
def startOf (folder : Place) (path : Path) : Place := if path.isAbsolute then [] else folder

theorem locate_of_ok (h : disk.locate folder path = .ok place) :
    path.names.foldlM disk.step (startOf folder path) = .ok place ∧
      ∀ disk' : Disk, disk'.locate folder path =
        path.names.foldlM disk'.step (startOf folder path) := by
  rw [locate] at h
  split at h
  case isTrue => cases h
  case isFalse hzero =>
    split at h
    case isTrue => cases h
    case isFalse hlong =>
      refine ⟨h, fun disk' => ?_⟩
      rw [locate, if_neg hzero, if_neg hlong]
      rfl

/-- On a disk from which folders are gone, a path leads to the same place, or nowhere as one of them
was on the way. -/
theorem locate_or_missing (h : ∀ q, disk.find? q = some .folder →
      disk'.find? q = some .folder ∨ disk'.find? q = none)
    (hlocate : disk.locate folder path = .ok place) : disk'.locate folder path = .ok place ∨
      disk'.locate folder path = .error .missing ∧
        ∃ q, disk.find? q = some .folder ∧ disk'.find? q = none := by
  have hnames (names : List Text) (start : Place) (hfold : names.foldlM disk.step start = .ok place) :
      names.foldlM disk'.step start = .ok place ∨
        names.foldlM disk'.step start = .error .missing ∧
          ∃ q, disk.find? q = some .folder ∧ disk'.find? q = none := by
    induction names generalizing start with
    | nil => exact .inl hfold
    | cons name names ih =>
      obtain ⟨q, hstep, hrest⟩ := bind_eq_ok hfold
      have hstart := find?_of_step hstep
      rw [List.foldlM_cons]
      rcases h start hstart with hfolder | hnone
      · rw [step_congr (hfolder.trans hstart.symm), hstep]
        exact ih q hrest
      · rw [step, hnone]
        exact .inr ⟨rfl, start, hstart, hnone⟩
  obtain ⟨hfold, hdisk⟩ := locate_of_ok hlocate
  rw [hdisk]
  exact hnames _ _ hfold

/-- A path leads to the same place on a disk that has the same folders. -/
theorem locate_of_forall (h : ∀ q, disk.find? q = some .folder → disk'.find? q = some .folder)
    (hlocate : disk.locate folder path = .ok place) : disk'.locate folder path = .ok place := by
  rcases locate_or_missing (fun q hq => .inl (h q hq)) hlocate with hok | ⟨-, q, hq, hnone⟩
  · exact hok
  · rw [h q hq] at hnone
    cases hnone

/-! ### Files -/

theorem ne_nil_of_find? (h : disk.find? place ≠ some .folder) : place ≠ [] := by
  rintro rfl
  exact h rfl

theorem write_eq_ok : disk.write folder path bytes = .ok disk' ↔
    ∃ place, disk.locate folder path = .ok place ∧ disk.find? place ≠ some .folder ∧
      disk' = disk.put place (.file bytes) := by
  cases hlocate : disk.locate folder path with
  | error fault => simp [write, hlocate, bind, Except.bind]
  | ok place =>
    cases hnode : disk.find? place with
    | none => simp [write, hlocate, hnode, bind, Except.bind, pure, Except.pure, eq_comm]
    | some node =>
      cases node <;>
        simp [write, hlocate, hnode, bind, Except.bind, pure, Except.pure, throw, throwThe,
          MonadExceptOf.throw, eq_comm]

/-- What a read gives at a place. -/
def fileAt (disk : Disk) (place : Place) : Except DiskFault Bytes :=
  match disk.find? place with
  | some (.file bytes) => .ok bytes
  | some .folder => .error .isFolder
  | none => .error .missing

theorem read_of_locate (h : disk.locate folder path = .ok place) :
    disk.read folder path = disk.fileAt place := by
  rw [read, h, fileAt]
  cases hnode : disk.find? place with
  | none => simp [hnode, bind, Except.bind, throw, throwThe, MonadExceptOf.throw]
  | some node =>
    cases node <;>
      simp [hnode, bind, Except.bind, pure, Except.pure, throw, throwThe, MonadExceptOf.throw]

theorem read_of_locate_error {fault : DiskFault} (h : disk.locate folder path = .error fault) :
    disk.read folder path = .error fault := by
  rw [read, h]
  rfl

/-- A file holds what was written to it. -/
theorem read_of_write (h : disk.write folder path bytes = .ok disk') :
    disk'.read folder path = .ok bytes := by
  obtain ⟨place, hlocate, hnode, rfl⟩ := write_eq_ok.mp h
  have hplace := ne_nil_of_find? hnode
  have hfolders (q : Place) (hq : disk.find? q = some .folder) :
      (disk.put place (.file bytes)).find? q = some .folder := by
    rw [find?_put hplace, if_neg, hq]
    rintro rfl
    exact hnode hq
  rw [read_of_locate (locate_of_forall hfolders hlocate), fileAt, find?_put hplace, if_pos rfl]

/-- A file that was removed is missing. -/
theorem read_of_remove (h : disk.remove folder path = .ok disk') :
    disk'.read folder path = .error .missing := by
  rw [remove] at h
  split at h
  case h_1 hlocate =>
    obtain rfl := Except.ok.inj h
    exact read_of_locate_error hlocate
  case h_2 => cases h
  case h_3 place hlocate =>
    split at h
    case h_1 hnode =>
      obtain rfl := Except.ok.inj h
      rw [read_of_locate hlocate, fileAt, hnode]
    case h_2 => cases h
    case h_3 hnode =>
      obtain rfl := Except.ok.inj h
      have hplace : place ≠ [] := ne_nil_of_find? (by rw [hnode]; simp)
      have hfolders (q : Place) (hq : disk.find? q = some .folder) :
          (disk.without place).find? q = some .folder ∨ (disk.without place).find? q = none := by
        rw [find?_without hplace, hq]
        split
        · exact .inr rfl
        · exact .inl rfl
      rcases locate_or_missing hfolders hlocate with h | ⟨h, -⟩
      · rw [read_of_locate h, fileAt, find?_without hplace,
          if_pos (List.isPrefixOf_iff_prefix.mpr (List.prefix_refl _))]
      · exact read_of_locate_error h

end Disk

end Reckoner.Disk
