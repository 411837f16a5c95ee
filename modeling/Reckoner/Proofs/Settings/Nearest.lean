import Mathlib.Control.Monad.Basic
import Reckoner.Proofs.Disk.Lookups
import Reckoner.Proofs.Program.Asking
import Reckoner.Proofs.Program.Requests

/-! The nearest folder with settings.  Going up from a folder, the search asks once for each folder,
and stops at the first one that has a file with settings.  Settings that are found in this way are
those that are loaded when the folder is named. -/

namespace Reckoner

open Program

variable {α : Type}

/-! ### Folders with settings -/

namespace Disk

variable {disk : Disk} {place start : Place} {found found' : Option Place} {name : Text}

/-- There is a file with settings right below a place. -/
def HoldsSettings (disk : Disk) (place : Place) : Prop := disk.HasFile (place ++ [settingsName])

/-- The nearest place at or above another one with settings right below it, if there is one. -/
def IsNearest (disk : Disk) (start : Place) : Option Place → Prop
  | some place => (place <+: start ∧ disk.HoldsSettings place) ∧
      ∀ q, q <+: start → disk.HoldsSettings q → q <+: place
  | none => ∀ q, q <+: start → ¬disk.HoldsSettings q

/-- The place at which a search starts: that to which its path leads, or that around a file. -/
def searchedPlace (disk : Disk) (folder : Place) (start : Path) : Place :=
  match disk.isFile folder start with
  | .ok true => (start.resolved folder).names.dropLast
  | _ => (start.resolved folder).names

theorem dots_not_mem_searchedPlace (disk : Disk) (folder : Place) (start : Path) :
    "..".toList ∉ disk.searchedPlace folder start := by
  have hresolved : "..".toList ∉ (start.resolved folder).names := Path.dots_not_mem_collapsed _
  rw [searchedPlace]
  split
  · exact mt (List.dropLast_subset _ ·) hresolved
  · exact hresolved

theorem isNearest_self (h : disk.HoldsSettings start) : disk.IsNearest start (some start) :=
  ⟨⟨List.prefix_refl start, h⟩, fun _ hq _ => hq⟩

theorem isNearest_nil (h : ¬disk.HoldsSettings []) : disk.IsNearest [] none := by
  intro q hq
  rwa [List.prefix_nil.mp hq]

/-- Above a place without settings the search goes on. -/
theorem IsNearest.concat (h : disk.IsNearest start found)
    (hname : ¬disk.HoldsSettings (start ++ [name])) : disk.IsNearest (start ++ [name]) found := by
  have habove (q : Place) (hq : q <+: start ++ [name]) (hholds : disk.HoldsSettings q) :
      q <+: start := by
    rcases List.prefix_concat_iff.mp hq with rfl | hq
    · exact absurd hholds hname
    · exact hq
  cases found with
  | none => exact fun q hq hholds => h q (habove q hq hholds) hholds
  | some place =>
    exact ⟨⟨h.1.1.trans (List.prefix_append _ _), h.1.2⟩,
      fun q hq hholds => h.2 q (habove q hq hholds) hholds⟩

theorem IsNearest.unique (h : disk.IsNearest start found) (h' : disk.IsNearest start found') :
    found = found' := by
  cases found with
  | none =>
    cases found' with
    | none => rfl
    | some place' => exact absurd h'.1.2 (h place' h'.1.1)
  | some place =>
    cases found' with
    | none => exact absurd h.1.2 (h' place h.1.1)
    | some place' =>
      have hle := (h.2 place' h'.1.1 h'.1.2).length_le
      exact congrArg some ((h'.2 place h.1.1 h.1.2).eq_of_length_le hle)

end Disk

/-! ### The search -/

section Search

variable {world world' : World} {place : Place} {start path : Path}

theorem settingsFile_ofNames (place : Place) :
    settingsFile (.ofNames place) = .ofNames (place ++ [settingsName]) := rfl

theorem run_hasSettings (folder : Path) (world : World) : (hasSettings folder).run world =
    (match world.disk.isFile world.folder (settingsFile folder) with
      | .ok holds => .ok holds
      | .error fault => .error (.crash (.disk fault)), world) := by
  change Program.run (match world.disk.isFile world.folder (settingsFile folder) with
    | .ok holds => pure holds
    | .error fault => .raise (.crash (.disk fault))) world = _
  cases world.disk.isFile world.folder (settingsFile folder) <;> rfl

theorem run_hasSettings_of_fits (htree : world.disk.IsTree)
    (hfits : (settingsFile (.ofNames place)).Fits) (hdots : "..".toList ∉ place) : ∃ holds,
      (hasSettings (.ofNames place)).run world = (.ok holds, world) ∧
        (holds = true ↔ world.disk.HoldsSettings place) := by
  have hname : "..".toList ∉ place ++ [settingsName] := by
    rw [List.mem_append, List.mem_singleton, not_or]
    exact ⟨hdots, by decide⟩
  rw [settingsFile_ofNames] at hfits
  obtain ⟨holds, hfile, hholds⟩ := htree.isFile_ofNames hfits hname world.folder
  refine ⟨holds, ?_, hholds⟩
  rw [run_hasSettings, settingsFile_ofNames, hfile]

/-- The search stops at the nearest folder with settings, or at the root. -/
theorem run_nearestSettings (htree : world.disk.IsTree) (reversed : List Text)
    (hfits : (settingsFile (.ofNames reversed.reverse)).Fits) (hdots : "..".toList ∉ reversed) :
    ∃ found, (nearestSettings reversed).run world = (.ok (found.map .ofNames), world) ∧
      world.disk.IsNearest reversed.reverse found := by
  induction reversed with
  | nil =>
    obtain ⟨holds, hrun, hholds⟩ := @run_hasSettings_of_fits world [] htree hfits hdots
    rw [nearestSettings, run_bind_of_ok hrun]
    cases holds with
    | true => exact ⟨some [], rfl, Disk.isNearest_self (hholds.mp rfl)⟩
    | false => exact ⟨none, rfl, Disk.isNearest_nil (mt hholds.mpr Bool.false_ne_true)⟩
  | cons name above ih =>
    obtain ⟨holds, hrun, hholds⟩ :=
      run_hasSettings_of_fits htree hfits (mt List.mem_reverse.mp hdots)
    rw [nearestSettings, run_bind_of_ok hrun]
    cases holds with
    | true => exact ⟨some _, rfl, Disk.isNearest_self (hholds.mp rfl)⟩
    | false =>
      rw [List.reverse_cons] at hfits hholds ⊢
      have habove : (settingsFile (.ofNames above.reverse)).Fits :=
        hfits.sublist ((List.sublist_append_left _ [name]).append_right [settingsName])
      obtain ⟨found, hfound, hnearest⟩ := ih habove (mt (List.mem_cons_of_mem name) hdots)
      exact ⟨found, hfound, hnearest.concat (mt hholds.mpr Bool.false_ne_true)⟩

theorem run_nearestSettings_of_error {reversed : List Text} {fault : Fault}
    (h : (hasSettings (.ofNames reversed.reverse)).run world = (.error fault, world')) :
    (nearestSettings reversed).run world = (.error fault, world') := by
  cases reversed with
  | nil => exact run_bind_of_error h
  | cons name above => exact run_bind_of_error h

theorem run_resolve (h : path.hasZero = false) (world : World) :
    (resolve path).run world = (.ok (path.resolved world.folder), world) := by
  rw [resolve, h]
  rfl

theorem resolve_eq_ok {folder : Path} (h : (resolve path).run world = (.ok folder, world')) :
    folder = path.resolved world.folder := by
  by_cases hzero : path.hasZero = true
  · rw [resolve, if_pos hzero] at h
    cases (Prod.mk.inj h).1
  · rw [run_resolve (Bool.eq_false_iff.mpr hzero)] at h
    exact (Except.ok.inj (Prod.mk.inj h).1).symm

theorem run_searchFolder (start : Path) (world : World) : (searchFolder start).run world =
    (.ok (match world.disk.isFile world.folder start with
      | .ok false => start
      | .ok true | .error _ => start.parent), world) := by
  change Program.run (match world.disk.isFile world.folder start with
    | .ok false => pure start
    | .ok true | .error _ => pure start.parent) world = _
  rcases world.disk.isFile world.folder start with fault | found
  · rfl
  · cases found <;> rfl

/-- The search starts in the folder around a file, and otherwise where its path leads. -/
theorem run_searchFolder_of_fits (htree : world.disk.IsTree)
    (hfolder : world.disk.find? world.folder = some .folder) (hstart : start.Fits) :
    ∃ path, (searchFolder start).run world = (.ok path, world) ∧ path.hasZero = false ∧
      (path.resolved world.folder).names = world.disk.searchedPlace world.folder start := by
  obtain ⟨found, hfound⟩ := @Disk.isFile_of_fits world.disk _ hstart world.folder
  rw [run_searchFolder, Disk.searchedPlace, hfound]
  cases found with
  | false => exact ⟨start, rfl, hstart.hasZero, rfl⟩
  | true =>
    obtain ⟨names, name, hnames, hname⟩ := htree.last_of_isFile hfolder hfound
    exact ⟨start.parent, rfl, Path.hasZero_parent hstart.hasZero,
      Path.resolved_parent world.folder hnames hname⟩

theorem run_findSettings (htree : world.disk.IsTree)
    (hfolder : world.disk.find? world.folder = some .folder) (hstart : start.Fits)
    (hfits : (settingsFile (.ofNames (world.disk.searchedPlace world.folder start))).Fits) :
    ∃ found, (findSettings start).run world = (.ok (found.map .ofNames), world) ∧
      world.disk.IsNearest (world.disk.searchedPlace world.folder start) found := by
  obtain ⟨path, hpath, hzero, hplace⟩ := run_searchFolder_of_fits htree hfolder hstart
  rw [← hplace] at hfits ⊢
  have hdots : "..".toList ∉ (path.resolved world.folder).names := Path.dots_not_mem_collapsed _
  rw [← (path.resolved world.folder).names.reverse_reverse] at hfits
  obtain ⟨found, hfound, hnearest⟩ :=
    run_nearestSettings htree _ hfits (mt List.mem_reverse.mp hdots)
  rw [List.reverse_reverse] at hnearest
  refine ⟨found, ?_, hnearest⟩
  rw [findSettings, run_bind_of_ok hpath, run_bind_of_ok (run_resolve hzero world)]
  exact hfound

/-- The search fails where the path of a file with settings in the folder where it starts would be too
long. -/
theorem run_findSettings_of_long (htree : world.disk.IsTree)
    (hfolder : world.disk.find? world.folder = some .folder) (hstart : start.Fits)
    (hzero : (settingsFile (.ofNames
      (world.disk.searchedPlace world.folder start))).hasZero = false)
    (hlong : maxPathBytes < (Utf8.encode (settingsFile (.ofNames
      (world.disk.searchedPlace world.folder start))).text).length) :
    (findSettings start).run world = (.error (.crash (.disk .nameTooLong)), world) := by
  obtain ⟨path, hpath, hpathZero, hplace⟩ := run_searchFolder_of_fits htree hfolder hstart
  rw [← hplace] at hzero hlong
  rw [findSettings, run_bind_of_ok hpath, run_bind_of_ok (run_resolve hpathZero world)]
  generalize (path.resolved world.folder).names = place at hzero hlong
  have hcrash : (hasSettings (.ofNames place)).run world =
      (.error (.crash (.disk .nameTooLong)), world) := by
    have hfile : world.disk.isFile world.folder (settingsFile (.ofNames place)) =
        .error .nameTooLong := by
      rw [Disk.isFile, Disk.locate, hzero, if_neg Bool.false_ne_true, if_pos hlong]
    rw [run_hasSettings, hfile]
  exact run_nearestSettings_of_error (by rwa [List.reverse_reverse])

/-! ### How long it takes -/

theorem length_requests_hasSettings (folder : Path) (world : World) :
    ((hasSettings folder).requests world).length ≤ 1 := by
  refine @length_requests_bind_le _ _ (isFile (settingsFile folder)) _ world 1 0 (Nat.le_refl 1)
    fun reply _ _ => ?_
  cases reply <;> exact Nat.le_refl 0

theorem length_requests_nearestSettings (reversed : List Text) (world : World) :
    ((nearestSettings reversed).requests world).length ≤ reversed.length + 1 := by
  induction reversed generalizing world with
  | nil =>
    rw [List.length_nil, Nat.add_comm]
    refine length_requests_bind_le (length_requests_hasSettings _ world) fun holds _ _ => ?_
    cases holds <;> exact Nat.le_refl 0
  | cons name above ih =>
    rw [List.length_cons, Nat.add_comm]
    refine length_requests_bind_le (length_requests_hasSettings _ world) fun holds _ _ => ?_
    cases holds with
    | true => exact Nat.zero_le _
    | false => exact ih _

theorem length_requests_searchFolder (start : Path) (world : World) :
    ((searchFolder start).requests world).length ≤ 1 := by
  refine @length_requests_bind_le _ _ (isFile start) _ world 1 0 (Nat.le_refl 1) fun reply _ _ => ?_
  rcases reply with fault | found
  · exact Nat.le_refl 0
  · cases found <;> exact Nat.le_refl 0

theorem length_requests_resolve (path : Path) (world : World) :
    ((resolve path).requests world).length ≤ 1 := by
  rw [resolve]
  split
  · exact Nat.zero_le 1
  · exact Nat.le_refl 1

theorem length_resolved_le (path : Path) (folder : Place) :
    (path.resolved folder).names.length ≤ folder.length + path.names.length := by
  refine Nat.le_trans (Path.length_collapsed_le _) ?_
  split
  · exact Nat.le_add_left _ _
  · exact Nat.le_of_eq List.length_append

/-- The search ends after at most one request for each folder on its way and two more. -/
theorem length_requests_findSettings (start : Path) (world : World) :
    ((findSettings start).requests world).length ≤
      world.folder.length + start.names.length + 3 := by
  rw [show world.folder.length + start.names.length + 3 =
    1 + (1 + (world.folder.length + start.names.length + 1)) by omega]
  refine length_requests_bind_le (length_requests_searchFolder start world) fun path world' hpath =>
    length_requests_bind_le (length_requests_resolve path world') fun folder _ hfolder => ?_
  obtain rfl := resolve_eq_ok hfolder
  refine Nat.le_trans (length_requests_nearestSettings _ _) (Nat.succ_le_succ ?_)
  rw [List.length_reverse]
  rw [run_searchFolder] at hpath
  obtain ⟨hstart, rfl⟩ := Prod.mk.inj hpath
  have hnames : path.names.length ≤ start.names.length := by
    rw [← Except.ok.inj hstart]
    split
    · exact Nat.le_refl _
    all_goals exact (List.dropLast_prefix _).length_le
  exact Nat.le_trans (length_resolved_le path _) (Nat.add_le_add_left hnames _)

end Search

/-! ### Loading what is found -/

/-- A request with the same reply whichever folder relative paths start in. -/
def Request.IsPlaced : Request → Prop
  | .isFile path | .read path => path.isAbsolute = true
  | .variable _ | .accounts => True
  | _ => False

/-- A program that asks for nothing by a relative path ends in the same way in every folder. -/
theorem run_fst_of_folder {program : Program α} (h : program.Only Request.IsPlaced) (world : World)
    (folder : Place) : (program.run { world with folder }).1 = (program.run world).1 := by
  have hsame : program.SameIn (fun world world' => ∃ folder, world' = { world with folder }) world
      { world with folder } := by
    refine Only.sameIn h (fun request hrequest world world' hworld => ?_) ⟨folder, rfl⟩
    obtain ⟨folder, rfl⟩ := hworld
    cases request with
    | isFile path => exact ⟨Disk.isFile_of_isAbsolute hrequest _ _, folder, rfl⟩
    | read path =>
      refine ⟨?_, folder, rfl⟩
      change world.disk.read folder path = world.disk.read world.folder path
      rw [Disk.read_of_isAbsolute hrequest, Disk.read_of_isAbsolute hrequest world.folder]
    | «variable» name => exact ⟨rfl, folder, rfl⟩
    | accounts => exact ⟨rfl, folder, rfl⟩
    | _ => exact absurd hrequest id
  exact hsame.result

section Load

variable {world : World} {root : Path} {place : Place} {found : Option Place} {holds : Bool}

theorem load_root_eq (root : Path) : (SettingsSource.mk (some root) none).load =
    hasSettings root >>= fun holds =>
      documentIn (if holds then some (settingsFile root) else none) >>= settingsIn root := by
  rw [load_eq]
  change hasSettings root >>= (fun holds => pure (root, if holds then some _ else none)) >>= _ = _
  rw [bind_bind]
  rfl

/-- Settings of a folder that is named by an absolute path can be loaded from anywhere. -/
theorem placed_load (h : root.isAbsolute = true) :
    (SettingsSource.mk (some root) none).load.Only Request.IsPlaced := by
  rw [load_root_eq]
  refine only_bind (only_hasSettings h) fun holds =>
    only_bind ?_ fun document => only_settingsIn trivial trivial root document
  cases holds with
  | true => exact only_readSettings h
  | false => trivial

theorem run_load_found
    (h : (findSettings (.ofNames world.folder)).run world = (.ok (found.map .ofNames), world)) :
    (SettingsSource.mk none none).load.run world =
      (documentIn (found.map fun place => settingsFile (.ofNames place)) >>=
        settingsIn (.ofNames (found.getD world.folder))).run world := by
  have hlocate : (SettingsSource.mk none none).locate.run world = (.ok
      (.ofNames (found.getD world.folder), found.map fun place => settingsFile (.ofNames place)),
      world) := by
    change (findSettings (.ofNames world.folder) >>= _).run world = _
    rw [run_bind_of_ok h]
    cases found <;> rfl
  rw [load_eq, run_bind_of_ok hlocate]

/-- Settings that are found from the folder where a program runs are those that are loaded when the
folder with them is named, or when the folder where it runs is named if there are none. -/
theorem run_load_nearest (htree : world.disk.IsTree)
    (hfolder : world.disk.find? world.folder = some .folder)
    (hfits : (settingsFile (.ofNames world.folder)).Fits) (hdots : "..".toList ∉ world.folder)
    (hnearest : world.disk.IsNearest world.folder found) :
    (SettingsSource.mk none none).load.run world =
      (SettingsSource.mk (some (.ofNames (found.getD world.folder))) none).load.run world := by
  have hstart : (Path.ofNames world.folder).Fits :=
    hfits.sublist (List.sublist_append_left _ [settingsName])
  have hsearched :
      world.disk.searchedPlace world.folder (.ofNames world.folder) = world.folder := by
    obtain ⟨isFile, hisFile, hiff⟩ := htree.isFile_ofNames hstart hdots world.folder
    have hnone : ¬world.disk.HasFile world.folder := by
      rintro ⟨bytes, hbytes⟩
      rw [hfolder] at hbytes
      cases hbytes
    obtain rfl : isFile = false := Bool.eq_false_iff.mpr (mt hiff.mp hnone)
    rw [Disk.searchedPlace, hisFile]
    exact Path.collapsed_eq_self hdots
  obtain ⟨found', hrun, hnearest'⟩ :=
    run_findSettings htree hfolder hstart (by rwa [hsearched])
  rw [hsearched] at hnearest'
  obtain rfl := hnearest.unique hnearest'
  have hroot : (settingsFile (.ofNames (found.getD world.folder))).Fits ∧
      "..".toList ∉ found.getD world.folder := by
    cases found with
    | none => exact ⟨hfits, hdots⟩
    | some place =>
      have habove : place <+: world.folder := hnearest.1.1
      exact ⟨hfits.sublist (habove.sublist.append_right [settingsName]),
        fun hmem => hdots (habove.subset hmem)⟩
  obtain ⟨holds, hholds, hiff⟩ := run_hasSettings_of_fits htree hroot.1 hroot.2
  rw [run_load_found hrun, load_root_eq, run_bind_of_ok hholds]
  cases found with
  | none =>
    obtain rfl : holds = false :=
      Bool.eq_false_iff.mpr (mt hiff.mp (hnearest _ (List.prefix_refl _)))
    rfl
  | some place =>
    obtain rfl : holds = true := hiff.mpr hnearest.1.2
    rfl

end Load

/-- In a tree, where neither the path at which a search starts nor that of a file with settings in the
folder that it leads to is too long, the search finds the nearest folder with settings, after at most
one request for each folder on the way and two more.  A program that runs in the folder where the
search starts loads the settings that are loaded from anywhere when the folder that is found is named,
or when its own folder is named if none is found. -/
theorem findSettings_nearest {world : World} {start : Path} (htree : world.disk.IsTree)
    (hfolder : world.disk.find? world.folder = some .folder) (hstart : start.Fits)
    (hfits : (settingsFile (.ofNames (world.disk.searchedPlace world.folder start))).Fits) :
    ∃ found, (findSettings start).run world = (.ok (found.map .ofNames), world) ∧
      world.disk.IsNearest (world.disk.searchedPlace world.folder start) found ∧
      ((findSettings start).requests world).length ≤
        world.folder.length + start.names.length + 3 ∧
      (world.disk.find? (world.disk.searchedPlace world.folder start) = some .folder → ∀ folder,
        ((SettingsSource.mk none none).load.run
            { world with folder := world.disk.searchedPlace world.folder start }).1 =
          ((SettingsSource.mk (some (.ofNames
              (found.getD (world.disk.searchedPlace world.folder start)))) none).load.run
            { world with folder }).1) := by
  obtain ⟨found, hrun, hnearest⟩ := run_findSettings htree hfolder hstart hfits
  refine ⟨found, hrun, hnearest, length_requests_findSettings start world, fun hthere folder => ?_⟩
  have hload := @run_load_nearest
    { world with folder := world.disk.searchedPlace world.folder start } _ htree hthere hfits
    (Disk.dots_not_mem_searchedPlace world.disk world.folder start) hnearest
  rw [hload, run_fst_of_folder (placed_load rfl) world folder]
  exact run_fst_of_folder (placed_load rfl) world _

/-! A search from a file, by a path with two dots, past a folder that has the name of the file with
settings. -/

def nestedWorld : World where
  disk := ⟨[([['a']], .folder), ([['a'], settingsName], .file (Utf8.encode "[calc]")),
    ([['a'], ['b']], .folder), ([['a'], ['b'], settingsName], .folder),
    ([['a'], ['b'], ['f']], .file [])]⟩
  folder := [['a']]

def nestedFile : Path := .ofText "../a/b/f"

theorem findSettings_nearest_above : nestedWorld.disk.IsTree ∧
    nestedWorld.disk.find? nestedWorld.folder = some .folder ∧ nestedFile.Fits ∧
    (settingsFile (.ofNames (nestedWorld.disk.searchedPlace nestedWorld.folder nestedFile))).Fits ∧
    nestedWorld.disk.searchedPlace nestedWorld.folder nestedFile = [['a'], ['b']] ∧
    nestedWorld.disk.IsNearest [['a'], ['b']] (some [['a']]) := by
  have htree : nestedWorld.disk.IsTree := Disk.isTree_of_entries (by decide +kernel)
  have hstart : nestedFile.Fits := by decide +kernel
  have hplace : nestedWorld.disk.searchedPlace nestedWorld.folder nestedFile = [['a'], ['b']] := by
    decide +kernel
  have hfits : (settingsFile (.ofNames
      (nestedWorld.disk.searchedPlace nestedWorld.folder nestedFile))).Fits := by
    decide +kernel
  obtain ⟨found, hrun, hnearest, -⟩ := findSettings_nearest htree rfl hstart hfits
  have hfound : ((findSettings nestedFile).run nestedWorld).1 = .ok (some (.ofNames [['a']])) := by
    decide +kernel
  rw [hrun] at hfound
  obtain ⟨place, rfl, hofNames⟩ := Option.map_eq_some_iff.mp (Except.ok.inj hfound)
  obtain rfl : place = [['a']] := congrArg Path.names hofNames
  exact ⟨htree, rfl, hstart, hfits, hplace, hplace ▸ hnearest⟩

/-! A search from a path that is too long, though none of its names is. -/

def shallowWorld : World where
  disk := ⟨[([settingsName], .file [])]⟩

def farPath : Path := ⟨0, List.replicate 20 (List.replicate 255 'a')⟩

theorem not_findSettings_nearest : shallowWorld.disk.IsTree ∧
    shallowWorld.disk.find? shallowWorld.folder = some .folder ∧
    (∀ name ∈ farPath.names, (Utf8.encode name).length ≤ maxNameBytes) ∧
    shallowWorld.disk.IsNearest (shallowWorld.disk.searchedPlace shallowWorld.folder farPath)
      (some []) ∧
    ((findSettings farPath).run shallowWorld).1 = .error (.crash (.disk .nameTooLong)) := by
  refine ⟨Disk.isTree_of_entries (by decide +kernel), rfl, by decide +kernel,
    ⟨⟨List.nil_prefix, [], by decide +kernel⟩, fun q _ ⟨bytes, hfile⟩ => ?_⟩, by decide +kernel⟩
  rw [Disk.find?, if_neg (by simp)] at hfile
  obtain ⟨before, after, hentries, -⟩ := List.lookup_eq_some_iff.mp hfile
  have hmem : (q ++ [settingsName], Node.file bytes) ∈ shallowWorld.disk.entries := by
    rw [hentries]
    simp
  have hplace := (Prod.mk.inj (List.mem_singleton.mp hmem)).1
  obtain rfl : q = [] := by simpa using hplace
  exact List.prefix_refl []

end Reckoner
