import Reckoner.Command.Reports
import Reckoner.Proofs.Disk.Grown
import Reckoner.Proofs.Program.Requests

/-! Programs on a system that may refuse what is asked of it.  A host performs the requests of a
program.  An honest one replies as the world has it, or says that it cannot reach a file or that its
output does not take a text; then nothing has changed, except that some of the folders that were to be
made may be there. -/

namespace Reckoner

/-- What performs requests: the reply to one, and the world after it. -/
abbrev Host := World → (request : Request) → request.Reply × World

/-- A fault with which a system may meet a path.  A name that no system call accepts is no matter of
the system. -/
structure Refuses (path : Path) (fault : DiskFault) : Prop where
  hasZero : path.hasZero = false
  fault : fault ≠ .zeroInName

/-- The replies to a request that an honest host may give in a world, and the worlds after them. -/
inductive World.Meets (world : World) : (request : Request) → request.Reply × World → Prop
  | usual (request : Request) : world.Meets request (world.reply request)
  | isFile {path : Path} {fault : DiskFault} (h : Refuses path fault) :
    world.Meets (.isFile path) (Except.error fault, world)
  | read {path : Path} {fault : DiskFault} (h : Refuses path fault) :
    world.Meets (.read path) (Except.error fault, world)
  | write {path : Path} {bytes : Utf8.Bytes} {fault : DiskFault} (h : Refuses path fault) :
    world.Meets (.write path bytes) (Except.error fault, world)
  | makeFolders {path : Path} {fault : DiskFault} {disk : Disk} (h : Refuses path fault)
    (hdisk : Disk.Grown world.folder path world.disk disk) :
    world.Meets (.makeFolders path) (Except.error fault, { world with disk })
  | remove {path : Path} {fault : DiskFault} (h : Refuses path fault) :
    world.Meets (.remove path) (Except.error fault, world)
  | enter {path : Path} {fault : DiskFault} (h : Refuses path fault) :
    world.Meets (.enter path) (Except.error fault, world)
  | print (text : LooseText) (fault : OutputFault) :
    world.Meets (.emit (.printed text)) (Except.error fault, world)

/-- A host that never makes things up. -/
def Host.Honest (host : Host) : Prop :=
  ∀ (world : World) (request : Request), world.Meets request (host world request)

theorem honest_reply : Host.Honest World.reply := fun _ request => .usual request

/-- Whether the output of a host may not take a text. -/
def Host.Declines (host : Host) (fault : OutputFault) : Prop :=
  ∃ world text, (host world (.emit (.printed text))).1 = Except.error fault

/-- A host that replies as the world has it, but for its output, which declines some texts. -/
def Host.printing (declined : LooseText → Option OutputFault) : Host
  | world, .emit (.printed text) =>
    match declined text with
    | some fault => (.error fault, world)
    | none => world.reply (.emit (.printed text))
  | world, request => world.reply request

/-! ### Replies -/

/-- A request that leaves files and folders as they are. -/
def Request.sparesDisk : Request → Bool
  | .write .. | .makeFolders _ | .remove _ => false
  | _ => true

theorem Request.sparesDisk_of_isQuestion {request : Request} (h : request.isQuestion = true) :
    request.sparesDisk = true := by
  cases request with
  | write => cases h
  | makeFolders => cases h
  | remove => cases h
  | _ => rfl

namespace World.Meets

variable {world : World} {request : Request} {met : request.Reply × World}

theorem events (h : world.Meets request met) :
    met.2.events = world.events ++ request.event?.toList ∨ met.2.events = world.events := by
  cases h with
  | usual => exact .inl (world.reply_events request)
  | _ => exact .inr rfl

theorem disk (h : world.Meets request met) (hrequest : request.sparesDisk = true) :
    met.2.disk = world.disk := by
  cases h with
  | usual =>
    cases request with
    | write => cases hrequest
    | makeFolders => cases hrequest
    | remove => cases hrequest
    | enter path =>
      dsimp only [World.reply]
      cases world.disk.enter world.folder path <;> rfl
    | _ => rfl
  | makeFolders => cases hrequest
  | _ => rfl

theorem alike (h : world.Meets request met) (hrequest : request.isQuestion = true) :
    world.Alike met.2 := by
  cases h with
  | usual => exact (Program.twin_reply hrequest world).alike
  | makeFolders => cases hrequest
  | _ => exact .refl world

theorem folder (h : world.Meets request met) (hrequest : ∀ path, request ≠ .enter path) :
    met.2.folder = world.folder := by
  have honDisk (action : Except DiskFault Disk) :
      (world.onDisk action).2.folder = world.folder := by
    cases action <;> rfl
  cases h with
  | usual =>
    cases request with
    | write => exact honDisk _
    | remove => exact honDisk _
    | enter path => exact absurd rfl (hrequest path)
    | _ => rfl
  | _ => rfl

theorem makeFolders_ne_zeroInName {path : Path} {met : Except DiskFault Unit × World}
    (h : world.Meets (.makeFolders path) met) (hzero : path.hasZero = false) :
    met.1 ≠ .error .zeroInName := by
  cases h with
  | usual => exact Disk.makeFolders_ne_zeroInName hzero
  | makeFolders hrefuses => exact fun h => hrefuses.fault (Except.error.inj h)

theorem write_ne_zeroInName {path : Path} {bytes : Utf8.Bytes} {met : Except DiskFault Unit × World}
    (h : world.Meets (.write path bytes) met) (hzero : path.hasZero = false) :
    met.1 ≠ .error .zeroInName := by
  cases h with
  | usual =>
    dsimp only [World.reply]
    cases hwrite : world.disk.write world.folder path bytes with
    | ok disk =>
      intro h
      cases h
    | error fault =>
      intro h
      rw [Except.error.inj h] at hwrite
      exact Disk.write_ne_zeroInName hzero hwrite
  | write hrefuses => exact fun h => hrefuses.fault (Except.error.inj h)

theorem remove_ne_zeroInName {path : Path} {met : Except DiskFault Unit × World}
    (h : world.Meets (.remove path) met) (hzero : path.hasZero = false) :
    met.1 ≠ .error .zeroInName := by
  cases h with
  | usual =>
    dsimp only [World.reply]
    cases hremove : world.disk.remove world.folder path with
    | ok disk => exact nofun
    | error fault =>
      intro h
      rw [Except.error.inj h] at hremove
      exact Disk.remove_ne_zeroInName hzero hremove
  | remove hrefuses => exact fun h => hrefuses.fault (Except.error.inj h)

/-- As folders are made, nothing changes but that folders are there on the way. -/
theorem made {path : Path} {met : Except DiskFault Unit × World}
    (h : world.Meets (.makeFolders path) met) : ∃ disk,
      met.2 = { world with disk } ∧ Disk.Grown world.folder path world.disk disk := by
  cases h with
  | usual => exact ⟨_, rfl, Disk.grown_makeFolders _ _ _⟩
  | makeFolders _ hgrown => exact ⟨_, rfl, hgrown⟩

/-- A file is written, or nothing changes. -/
theorem wrote {path : Path} {bytes : Utf8.Bytes} {met : Except DiskFault Unit × World}
    (h : world.Meets (.write path bytes) met) :
    (∃ disk, world.disk.write world.folder path bytes = .ok disk ∧
      met = (.ok (), { world with disk })) ∨ ∃ fault, met = (.error fault, world) := by
  cases h with
  | usual =>
    dsimp only [World.reply]
    cases world.disk.write world.folder path bytes with
    | ok disk => exact .inl ⟨disk, rfl, rfl⟩
    | error fault => exact .inr ⟨fault, rfl⟩
  | write _ => exact .inr ⟨_, rfl⟩

/-- A file is removed, or nothing changes. -/
theorem removed {path : Path} {met : Except DiskFault Unit × World}
    (h : world.Meets (.remove path) met) :
    (∃ disk, world.disk.remove world.folder path = .ok disk ∧
      met = (.ok (), { world with disk })) ∨ ∃ fault, met = (.error fault, world) := by
  cases h with
  | usual =>
    dsimp only [World.reply]
    cases world.disk.remove world.folder path with
    | ok disk => exact .inl ⟨disk, rfl, rfl⟩
    | error fault => exact .inr ⟨fault, rfl⟩
  | remove _ => exact .inr ⟨_, rfl⟩

theorem hasZero_of_read {path : Path} {met : Except DiskFault Utf8.Bytes × World}
    (h : world.Meets (.read path) met) (hreply : met.1 ≠ .error .zeroInName) :
    path.hasZero = false := by
  cases h with
  | usual => exact Disk.hasZero_of_read hreply
  | read hrefuses => exact hrefuses.hasZero

end World.Meets

/-- A host that leaves the disk alone where it makes no folder. -/
def Host.Tidy (host : Host) : Prop :=
  ∀ (world : World) (path : Path),
    (∀ q, (host world (.makeFolders path)).2.disk.find? q = world.disk.find? q) →
      (host world (.makeFolders path)).2.disk = world.disk

theorem tidy_reply : Host.Tidy World.reply := by
  intro world path hsame
  rcases Disk.eq_or_made world.disk world.folder path with heq | ⟨q, hnone, hmade⟩
  · exact heq
  · have hq : (world.disk.makeFolders world.folder path).2.find? q = world.disk.find? q := hsame q
    rw [hnone, hmade] at hq
    cases hq

/-- Nothing changes as folders are made that are there. -/
theorem Host.Honest.made_of_isFolder {host : Host} (h : host.Honest) (htidy : host.Tidy)
    {world : World} {path : Path} (hfolder : world.disk.isFolder world.folder path = true) :
    (host world (.makeFolders path)).2 = world := by
  obtain ⟨disk, hmet, hgrown⟩ := (h world (.makeFolders path)).made
  have hsame := htidy world path fun q => by
    rw [hmet]
    exact hgrown.find?_of_isFolder hfolder q
  rw [hmet] at hsame ⊢
  obtain rfl : disk = world.disk := hsame
  rfl

theorem Host.Honest.emit {host : Host} (h : host.Honest) (world : World) (event : Event) :
    host world (.emit event) = (.ok (), world.shows event) ∨
      ∃ text fault, event = .printed text ∧ host.Declines fault ∧
        host world (.emit event) = (.error fault, world) := by
  generalize hmet : host world (.emit event) = met
  cases hmet ▸ h world (.emit event) with
  | usual => exact .inl rfl
  | print text fault => exact .inr ⟨text, fault, rfl, ⟨world, text, congrArg Prod.fst hmet⟩, rfl⟩

theorem Host.Honest.clock {host : Host} (h : host.Honest) (world : World) :
    host world .clock = (world.clock, { world with clock := world.clock + 1 }) := by
  generalize hmet : host world .clock = met
  cases hmet ▸ h world .clock with
  | usual => rfl

namespace Program

variable {α β : Type}

/-! ### Runs on a host -/

/-- What a program ends with when a host performs its requests, and the world after it. -/
def runOn (host : Host) : Program α → World → Except Fault α × World
  | done value, world => (.ok value, world)
  | raise fault, world => (.error fault, world)
  | ask request next, world =>
    let (reply, world) := host world request
    (next reply).runOn host world

/-- A system that replies as a world does runs programs as the world does. -/
theorem runOn_reply (program : Program α) (world : World) :
    program.runOn World.reply world = program.run world := by
  induction program generalizing world with
  | done value => rfl
  | raise fault => rfl
  | ask request next ih => exact ih _ _

/-- A program that inquires does on such a host what it does in the world. -/
theorem Inquires.runOn_printing {program : Program α} (h : program.Inquires)
    (declined : LooseText → Option OutputFault) (world : World) :
    program.runOn (.printing declined) world = program.run world := by
  induction program generalizing world with
  | done value => rfl
  | raise fault => rfl
  | ask request next ih =>
    have hreply : Host.printing declined world request = world.reply request := by
      cases request with
      | emit event =>
        cases event with
        | printed text => cases h.1
        | _ => rfl
      | _ => rfl
    rw [runOn, run, hreply]
    exact ih _ (h.2 _) _

/-- What is to be printed on such a host is shown, unless the output declines it. -/
theorem runOn_print_printing (declined : LooseText → Option OutputFault) (line : LooseText)
    (world : World) :
    (print line).runOn (.printing declined) world =
        (.ok (), world.shows (.printed (line ++ "\n"))) ∨
      ∃ text fault, declined text = some fault ∧
        (print line).runOn (.printing declined) world = (.error (.crash (.output fault)), world) := by
  have hrun : (print line).runOn (.printing declined) world =
      (ofOutput (Host.printing declined world (.emit (.printed (line ++ "\n")))).1).runOn
        (.printing declined) (Host.printing declined world (.emit (.printed (line ++ "\n")))).2 := rfl
  rw [hrun, Host.printing]
  cases hdeclined : declined (line ++ "\n") with
  | none => exact .inl rfl
  | some fault => exact .inr ⟨_, fault, hdeclined, rfl⟩

section RunOn

variable {host : Host} {program : Program α} {next : α → Program β} {world between : World}

theorem runOn_bind (host : Host) (program : Program α) (next : α → Program β) (world : World) :
    (program >>= next).runOn host world =
      match program.runOn host world with
      | (.ok value, world) => (next value).runOn host world
      | (.error fault, world) => (.error fault, world) := by
  change (program.andThen next).runOn host world = _
  induction program generalizing world with
  | done value => rfl
  | raise fault => rfl
  | ask request more ih => exact ih _ _

theorem runOn_bind_of_ok {value : α} (h : program.runOn host world = (.ok value, between)) :
    (program >>= next).runOn host world = (next value).runOn host between := by
  rw [runOn_bind, h]

theorem runOn_bind_of_error {fault : Fault}
    (h : program.runOn host world = (.error fault, between)) :
    (program >>= next).runOn host world = (.error fault, between) := by
  rw [runOn_bind, h]

theorem runOn_bind_eq_ok {result : β} {after : World}
    (h : (program >>= next).runOn host world = (.ok result, after)) :
    ∃ value between, program.runOn host world = (.ok value, between) ∧
      (next value).runOn host between = (.ok result, after) := by
  rw [runOn_bind] at h
  split at h
  case h_1 value between hprogram => exact ⟨value, between, hprogram, h⟩
  case h_2 => cases (Prod.mk.inj h).1

theorem runOn_attempt (host : Host) (program : Program α) (world : World) :
    program.attempt.runOn host world =
      (.ok (program.runOn host world).1, (program.runOn host world).2) := by
  induction program generalizing world with
  | done value => rfl
  | raise fault => rfl
  | ask request next ih => exact ih _ _

theorem runOn_ofDisk {reply : Except DiskFault α} (h : reply ≠ .error .zeroInName) (world : World) :
    (ofDisk reply).runOn host world = (.ok reply, world) := by
  cases reply with
  | ok value => rfl
  | error fault =>
    cases fault with
    | zeroInName => exact absurd rfl h
    | _ => rfl

theorem runOn_makeFolders (hhost : host.Honest) {path : Path} (hzero : path.hasZero = false)
    (world : World) : (makeFolders path).runOn host world =
      (.ok (host world (.makeFolders path)).1, (host world (.makeFolders path)).2) :=
  runOn_ofDisk ((hhost world (.makeFolders path)).makeFolders_ne_zeroInName hzero) _

theorem runOn_write (hhost : host.Honest) {path : Path} (hzero : path.hasZero = false)
    (bytes : Utf8.Bytes) (world : World) : (write path bytes).runOn host world =
      (.ok (host world (.write path bytes)).1, (host world (.write path bytes)).2) :=
  runOn_ofDisk ((hhost world (.write path bytes)).write_ne_zeroInName hzero) _

theorem runOn_remove (hhost : host.Honest) {path : Path} (hzero : path.hasZero = false)
    (world : World) : (remove path).runOn host world =
      (.ok (host world (.remove path)).1, (host world (.remove path)).2) :=
  runOn_ofDisk ((hhost world (.remove path)).remove_ne_zeroInName hzero) _

theorem runOn_ofDisk_snd (reply : Except DiskFault α) (world : World) :
    ((ofDisk reply).runOn host world).2 = world := by
  cases reply with
  | ok value => rfl
  | error fault => cases fault <;> rfl

/-- Where something changes as a file is written, it has been written. -/
theorem runOn_write_cases (hhost : host.Honest) (path : Path) (bytes : Utf8.Bytes) (world : World) :
    ((write path bytes).runOn host world).2.disk = world.disk ∨
      ∃ between, (write path bytes).runOn host world = (.ok (.ok ()), between) ∧
        world.disk.write world.folder path bytes = .ok between.disk := by
  have hrun : (write path bytes).runOn host world = (ofDisk (host world (.write path bytes)).1).runOn
      host (host world (.write path bytes)).2 := rfl
  rw [hrun]
  rcases (hhost world (.write path bytes)).wrote with ⟨disk, hwrite, hmet⟩ | ⟨fault, hmet⟩
  · rw [hmet]
    exact .inr ⟨{ world with disk }, rfl, hwrite⟩
  · rw [hmet]
    exact .inl (congrArg World.disk (runOn_ofDisk_snd _ _))

/-- Where something changes as a file is removed, it has been removed. -/
theorem runOn_remove_cases (hhost : host.Honest) (path : Path) (world : World) :
    ((remove path).runOn host world).2.disk = world.disk ∨
      ∃ between, (remove path).runOn host world = (.ok (.ok ()), between) ∧
        world.disk.remove world.folder path = .ok between.disk := by
  have hrun : (remove path).runOn host world = (ofDisk (host world (.remove path)).1).runOn host
      (host world (.remove path)).2 := rfl
  rw [hrun]
  rcases (hhost world (.remove path)).removed with ⟨disk, hremove, hmet⟩ | ⟨fault, hmet⟩
  · rw [hmet]
    exact .inr ⟨{ world with disk }, rfl, hremove⟩
  · rw [hmet]
    exact .inl (congrArg World.disk (runOn_ofDisk_snd _ _))

/-- What is to be shown is shown, unless it is printed and the output does not take it. -/
theorem runOn_emit (hhost : host.Honest) (event : Event) (world : World) :
    (emit event).runOn host world = (.ok (), world.shows event) ∨
      ∃ text fault, event = .printed text ∧ host.Declines fault ∧
        (emit event).runOn host world = (.error (.crash (.output fault)), world) := by
  have hrun : (emit event).runOn host world =
      (ofOutput (host world (.emit event)).1).runOn host (host world (.emit event)).2 := rfl
  rw [hrun]
  rcases hhost.emit world event with hmet | ⟨text, fault, htext, hdeclines, hmet⟩
  · rw [hmet]
    exact .inl rfl
  · rw [hmet]
    exact .inr ⟨text, fault, htext, hdeclines, rfl⟩

theorem hasZero_of_runOn_read (hhost : host.Honest) {path : Path}
    {reply : Except DiskFault Utf8.Bytes}
    (h : (read path).runOn host world = (.ok reply, between)) : path.hasZero = false := by
  refine (hhost world (.read path)).hasZero_of_read fun hreply => ?_
  have hofDisk : (ofDisk (host world (.read path)).1).runOn host (host world (.read path)).2 =
      (.ok reply, between) := h
  rw [hreply] at hofDisk
  cases (Prod.mk.inj hofDisk).1

/-- What each reply of an honest host to the requests of a program keeps, a run of it keeps. -/
theorem Only.runOn (related : World → World → Prop) {allowed : Request → Prop}
    (h : program.Only allowed) (hhost : host.Honest) (hrefl : ∀ world, related world world)
    (htrans : ∀ {world₁ world₂ world₃ : World}, related world₁ world₂ → related world₂ world₃ →
      related world₁ world₃)
    (hstep : ∀ (world : World) (request : Request) (met : request.Reply × World), allowed request →
      world.Meets request met → related world met.2) (world : World) :
    related world (program.runOn host world).2 := by
  induction program generalizing world with
  | done value => exact hrefl world
  | raise fault => exact hrefl world
  | ask request next ih =>
    exact htrans (hstep world request _ h.1 (hhost world request)) (ih _ (h.2 _) _)

/-- What only asks leaves files, folders, the clock and the input alone. -/
theorem OnlyAsks.runOn_alike (h : program.OnlyAsks) (hhost : host.Honest) (world : World) :
    world.Alike (program.runOn host world).2 :=
  Only.runOn World.Alike h hhost World.Alike.refl World.Alike.trans
    (fun _ _ _ hrequest hmet => hmet.alike hrequest) world

/-- A program that leaves files and folders as they are. -/
abbrev SparesDisk (program : Program α) : Prop :=
  program.Only fun request => request.sparesDisk = true

theorem OnlyAsks.sparesDisk (h : program.OnlyAsks) : program.SparesDisk :=
  h.mono fun _ hrequest => Request.sparesDisk_of_isQuestion hrequest

/-- What a program that prints nothing shows. -/
theorem PrintsNone.runOn_events (h : program.PrintsNone) (hhost : host.Honest) (world : World) :
    ∃ events, (program.runOn host world).2.events = world.events ++ events ∧
      Event.output events = [] := by
  refine Only.runOn (fun world after => ∃ events, after.events = world.events ++ events ∧
    Event.output events = []) h hhost (fun world => ⟨[], (List.append_nil _).symm, rfl⟩) ?_ ?_ world
  · rintro world₁ world₂ world₃ ⟨events, h, hnone⟩ ⟨more, h', hnone'⟩
    refine ⟨events ++ more, by rw [h', h, List.append_assoc], ?_⟩
    rw [Event.output_append, hnone, hnone']
    rfl
  · intro world request met hrequest hmet
    rcases hmet.events with hevents | hevents
    · exact ⟨_, hevents, hrequest⟩
    · exact ⟨[], hevents.trans (List.append_nil _).symm, rfl⟩

theorem Yields.runOn {property : α → Prop} (h : program.Yields property) {value : α} {after : World}
    (hrun : program.runOn host world = (.ok value, after)) : property value := by
  induction program generalizing world with
  | done result =>
    obtain rfl := Except.ok.inj (Prod.mk.inj hrun).1
    exact h
  | raise fault => cases (Prod.mk.inj hrun).1
  | ask request next ih => exact ih _ (h _) hrun

end RunOn

end Program

/-- A program with a handler ends as what comes after it, as the handler, or as the program does with
a fault that is not handled. -/
theorem Command.runOn_orElse {α β : Type} {stages : List Stage} {program : Program α}
    {otherwise : Failure → Program β} {next : α → Program β} {host : Host} {world : World}
    (p : Except Fault β × World → Prop)
    (hok : ∀ value between, program.runOn host world = (.ok value, between) →
      p ((next value).runOn host between))
    (hfailure : ∀ failure between, program.runOn host world = (.error (.failure failure), between) →
      stages.elem failure.stage = true → p ((otherwise failure).runOn host between))
    (herror : ∀ fault between, program.runOn host world = (.error fault, between) →
      (∀ failure, fault = .failure failure → stages.elem failure.stage = false) →
      p (.error fault, between)) :
    p ((orElse stages program otherwise next).runOn host world) := by
  rw [orElse, Program.runOn_bind, Program.runOn_attempt]
  rcases hrun : program.runOn host world with ⟨fault | value, between⟩
  · cases fault with
    | failure failure =>
      dsimp only
      split
      · next hstage => exact hfailure failure between hrun hstage
      · next hstage =>
        refine herror _ between hrun fun failure' h => ?_
        rw [← Fault.failure.inj h]
        exact Bool.eq_false_iff.mpr hstage
    | foreign error => exact herror _ between hrun fun _ => Fault.noConfusion
    | crash crash => exact herror _ between hrun fun _ => Fault.noConfusion
  · exact hok value between hrun

end Reckoner
