import Reckoner.World

/-! Runs of programs: what is known of the parts of a program that ends with a value, and what a
program leaves alone of its world because it never asks for a change. -/

namespace Reckoner

variable {α β : Type}

namespace World

/-- The world after these events have been shown. -/
def showsAll (world : World) (events : List Event) : World :=
  { world with events := world.events ++ events }

@[simp] theorem showsAll_disk (world : World) (events : List Event) :
    (world.showsAll events).disk = world.disk := rfl

@[simp] theorem showsAll_folder (world : World) (events : List Event) :
    (world.showsAll events).folder = world.folder := rfl

@[simp] theorem showsAll_nil (world : World) : world.showsAll [] = world := by simp [showsAll]

theorem shows_eq_showsAll (world : World) (event : Event) :
    world.shows event = world.showsAll [event] := rfl

theorem showsAll_showsAll (world : World) (events more : List Event) :
    (world.showsAll events).showsAll more = world.showsAll (events ++ more) := by
  simp [showsAll]

end World

namespace Program

theorem done_bind (value : α) (next : α → Program β) : (pure value >>= next) = next value := rfl

theorem bind_pure (program : Program α) : program >>= pure = program := by
  change program.andThen done = program
  induction program with
  | done value => rfl
  | raise fault => rfl
  | ask request more ih => exact congrArg (ask request) (funext ih)

theorem bind_bind {γ : Type} (program : Program α) (next : α → Program β) (more : β → Program γ) :
    program >>= next >>= more = program >>= fun value => next value >>= more := by
  change (program.andThen next).andThen more = program.andThen fun value => next value >>= more
  induction program with
  | done value => rfl
  | raise fault => rfl
  | ask request rest ih => exact congrArg (ask request) (funext ih)

/-- To attempt a program and to end with its fault is to perform the program. -/
theorem attempt_bind (program : Program α) (next : α → Program β) :
    (program.attempt >>= fun
      | .ok value => next value
      | .error fault => raise fault) = program >>= next := by
  induction program with
  | done value => rfl
  | raise fault => rfl
  | ask request more ih => exact congrArg (ask request) (funext ih)

section Run

variable {program : Program α} {next : α → Program β} {world world' : World} {value : α}

theorem run_bind_of_ok (h : program.run world = (.ok value, world')) :
    (program >>= next).run world = (next value).run world' := by
  rw [run_bind, h]

theorem run_bind_of_error {fault : Fault} (h : program.run world = (.error fault, world')) :
    (program >>= next).run world = (.error fault, world') := by
  rw [run_bind, h]

theorem run_bind_eq_ok {result : β} (h : (program >>= next).run world = (.ok result, world')) :
    ∃ value between, program.run world = (.ok value, between) ∧
      (next value).run between = (.ok result, world') := by
  rw [run_bind] at h
  split at h
  case h_1 value between hprogram => exact ⟨value, between, hprogram, h⟩
  case h_2 => cases (Prod.mk.inj h).1

theorem run_bind_pure_snd (program : Program α) (result : β) (world : World) :
    ((program >>= fun _ => pure result).run world).2 = (program.run world).2 := by
  rw [run_bind]
  split
  case h_1 heq => rw [heq]; rfl
  case h_2 heq => rw [heq]

theorem run_attempt (program : Program α) (world : World) :
    program.attempt.run world = (.ok (program.run world).1, (program.run world).2) := by
  induction program generalizing world with
  | done value => rfl
  | raise fault => rfl
  | ask request next ih => exact ih _ _

/-- What is true of `rest` after something was shown or not. -/
theorem run_when (p : Except Fault α × World → Prop) {c : Prop} [Decidable c]
    {first : Program Unit} {event : Event} {rest : Program α}
    (hfirst : ∀ world, first.run world = (.ok (), world.shows event))
    (hrest : ∀ events, p (rest.run (world.showsAll events))) :
    p ((if c then first >>= fun _ => rest else rest).run world) := by
  split
  · rw [run_bind_of_ok (hfirst world), World.shows_eq_showsAll]
    exact hrest [event]
  · rw [← World.showsAll_nil world]
    exact hrest []

theorem run_ofDisk {reply : Except DiskFault α} (h : reply ≠ .error .zeroInName) (world : World) :
    (ofDisk reply).run world = (.ok reply, world) := by
  cases reply with
  | ok value => rfl
  | error fault =>
    cases fault with
    | zeroInName => exact absurd rfl h
    | _ => rfl

theorem ofDisk_eq_ok {reply result : Except DiskFault α}
    (h : (ofDisk reply).run world = (.ok result, world')) : result = reply ∧ world' = world := by
  by_cases hreply : reply = .error .zeroInName
  · rw [hreply] at h
    cases (Prod.mk.inj h).1
  · obtain ⟨hresult, hworld⟩ := Prod.mk.inj ((run_ofDisk hreply world).symm.trans h)
    exact ⟨(Except.ok.inj hresult).symm, hworld.symm⟩

/-- An action that changes the disk or has a fault. -/
theorem onDisk_eq_ok {action : Except DiskFault Disk} {reply : Except DiskFault Unit}
    (h : (ofDisk (world.onDisk action).1).run (world.onDisk action).2 = (.ok reply, world')) :
    (∃ disk, action = .ok disk ∧ reply = .ok () ∧ world' = { world with disk }) ∨
      ∃ fault, action = .error fault ∧ reply = .error fault ∧ world' = world := by
  obtain ⟨rfl, rfl⟩ := ofDisk_eq_ok h
  cases action with
  | ok disk => exact .inl ⟨disk, rfl, rfl, rfl⟩
  | error fault => exact .inr ⟨fault, rfl, rfl, rfl⟩

theorem write_eq_ok {path : Path} {bytes : Utf8.Bytes} {reply : Except DiskFault Unit}
    (h : (write path bytes).run world = (.ok reply, world')) :
    (∃ disk, world.disk.write world.folder path bytes = .ok disk ∧ reply = .ok () ∧
      world' = { world with disk }) ∨
      ∃ fault, world.disk.write world.folder path bytes = .error fault ∧ reply = .error fault ∧
        world' = world :=
  onDisk_eq_ok h

theorem remove_eq_ok {path : Path} {reply : Except DiskFault Unit}
    (h : (remove path).run world = (.ok reply, world')) :
    (∃ disk, world.disk.remove world.folder path = .ok disk ∧ reply = .ok () ∧
      world' = { world with disk }) ∨
      ∃ fault, world.disk.remove world.folder path = .error fault ∧ reply = .error fault ∧
        world' = world :=
  onDisk_eq_ok h

theorem makeFolders_eq_ok {path : Path} {reply : Except DiskFault Unit}
    (h : (makeFolders path).run world = (.ok reply, world')) : ∃ disk,
      world.disk.makeFolders world.folder path = (reply, disk) ∧ world' = { world with disk } := by
  obtain ⟨rfl, rfl⟩ := ofDisk_eq_ok
    (show (ofDisk (world.disk.makeFolders world.folder path).1).run
      { world with disk := (world.disk.makeFolders _ _).2 } = _ from h)
  exact ⟨_, rfl, rfl⟩

theorem run_write_of_ok {path : Path} {bytes : Utf8.Bytes} {disk : Disk}
    (h : world.disk.write world.folder path bytes = .ok disk) :
    (write path bytes).run world = (.ok (.ok ()), { world with disk }) := by
  change (ofDisk (world.onDisk (world.disk.write _ _ _)).1).run
    (world.onDisk (world.disk.write _ _ _)).2 = _
  rw [h]
  rfl

theorem run_remove_of_ok {path : Path} {disk : Disk}
    (h : world.disk.remove world.folder path = .ok disk) :
    (remove path).run world = (.ok (.ok ()), { world with disk }) := by
  change (ofDisk (world.onDisk (world.disk.remove _ _)).1).run
    (world.onDisk (world.disk.remove _ _)).2 = _
  rw [h]
  rfl

theorem run_makeFolders_of_ok {path : Path} {disk : Disk}
    (h : world.disk.makeFolders world.folder path = (.ok (), disk)) :
    (makeFolders path).run world = (.ok (.ok ()), { world with disk }) := by
  change (ofDisk (world.disk.makeFolders _ _).1).run
    { world with disk := (world.disk.makeFolders _ _).2 } = _
  rw [h]
  rfl

end Run

/-! ### Programs that change nothing -/

/-- Whether all requests that a program may make are of one kind. -/
def Only (allowed : Request → Prop) : Program α → Prop
  | done _ => True
  | raise _ => True
  | ask request next => allowed request ∧ ∀ reply, (next reply).Only allowed

section Only

variable {allowed : Request → Prop} {program : Program α} {next : α → Program β}

theorem only_request {request : Request} (h : allowed request) :
    (Program.request request).Only allowed :=
  ⟨h, fun _ => trivial⟩

theorem only_emit {event : Event} (h : allowed (.emit event)) : (emit event).Only allowed :=
  ⟨h, fun reply => by cases reply <;> trivial⟩

theorem Only.mono {allowed' : Request → Prop} (h : program.Only allowed)
    (hallowed : ∀ request, allowed request → allowed' request) : program.Only allowed' := by
  induction program with
  | done value => trivial
  | raise fault => trivial
  | ask request more ih => exact ⟨hallowed request h.1, fun reply => ih reply (h.2 reply)⟩

theorem only_bind (h : program.Only allowed) (hnext : ∀ value, (next value).Only allowed) :
    (program >>= next).Only allowed := by
  change (program.andThen next).Only allowed
  induction program with
  | done value => exact hnext value
  | raise fault => trivial
  | ask request more ih => exact ⟨h.1, fun reply => ih reply (h.2 reply)⟩

/-- Whether all values with which a program may end have a property. -/
def Yields (property : α → Prop) : Program α → Prop
  | done value => property value
  | raise _ => True
  | ask _ next => ∀ reply, (next reply).Yields property

theorem yields_bind_of_yields {property : α → Prop} {property' : β → Prop}
    (h : program.Yields property) (hnext : ∀ value, property value → (next value).Yields property') :
    (program >>= next).Yields property' := by
  change (program.andThen next).Yields property'
  induction program with
  | done value => exact hnext value h
  | raise fault => trivial
  | ask request more ih => exact fun reply => ih reply (h reply)

theorem yields_bind {property : β → Prop} (hnext : ∀ value, (next value).Yields property) :
    (program >>= next).Yields property := by
  change (program.andThen next).Yields property
  induction program with
  | done value => exact hnext value
  | raise fault => trivial
  | ask request more ih => exact fun reply => ih reply

theorem only_bind_of_yields {property : α → Prop} (h : program.Only allowed)
    (hvalues : program.Yields property) (hnext : ∀ value, property value → (next value).Only allowed) :
    (program >>= next).Only allowed := by
  change (program.andThen next).Only allowed
  induction program with
  | done value => exact hnext value hvalues
  | raise fault => trivial
  | ask request more ih => exact ⟨h.1, fun reply => ih reply (h.2 reply) (hvalues reply)⟩

theorem only_attempt (h : program.Only allowed) : program.attempt.Only allowed := by
  induction program with
  | done value => trivial
  | raise fault => trivial
  | ask request more ih => exact ⟨h.1, fun reply => ih reply (h.2 reply)⟩

theorem only_capture (h : program.Only allowed) (kept : LooseText) :
    (program.capture kept).Only allowed := by
  fun_induction capture kept program with
  | case1 => trivial
  | case2 => trivial
  | case3 kept text more ih => exact ih (h.2 (.ok ()))
  | case4 kept request more hrequest ih => exact ⟨h.1, fun reply => ih reply (h.2 reply)⟩

end Only

end Program

/-- A request that looks at the world, but into no file. -/
def Request.isGlance : Request → Bool
  | .isFile _ | .folder | .variable _ | .hasPackage _ | .accounts => true
  | _ => false

/-- A request that only looks at the world. -/
def Request.isReading (request : Request) : Bool :=
  request.isGlance || match request with
    | .read _ => true
    | _ => false

/-- A request that looks at the world, calls a service, or shows something without printing it. -/
def Request.isInquiry (request : Request) : Bool :=
  request.isReading || match request with
    | .call _ => true
    | .emit (.printed _) => false
    | .emit _ => true
    | _ => false

/-- A request with which a journal is kept: to read and write its file, to make folders for it, to
read the clock, and to tell what is wrong. -/
def Request.isKeeping : Request → Bool
  | .read _ | .write .. | .makeFolders _ | .clock | .emit (.logged ..) | .emit (.complained _) => true
  | _ => false

/-- A request that takes nothing from the world but answers of services, and leaves nothing in it but
what is shown. -/
def Request.isQuestion : Request → Bool
  | .write .. | .makeFolders _ | .remove _ | .enter _ | .clock | .input => false
  | _ => true

/-- Worlds that differ at most in what services will answer and in what has been shown. -/
structure World.Alike (world world' : World) : Prop where
  disk : world'.disk = world.disk
  folder : world'.folder = world.folder
  clock : world'.clock = world.clock
  input : world'.input = world.input

theorem World.Alike.refl (world : World) : world.Alike world := ⟨rfl, rfl, rfl, rfl⟩

theorem World.Alike.trans {world₁ world₂ world₃ : World} (h : world₁.Alike world₂)
    (h' : world₂.Alike world₃) : world₁.Alike world₃ :=
  ⟨h'.disk.trans h.disk, h'.folder.trans h.folder, h'.clock.trans h.clock, h'.input.trans h.input⟩

/-- Worlds that differ in nothing but what services will answer and what has been shown. -/
def World.Twin (world world' : World) : Prop :=
  ∃ events scripts, world' = { world with events, scripts }

theorem World.Twin.refl (world : World) : world.Twin world := ⟨_, _, rfl⟩

theorem World.Twin.symm {world world' : World} (h : world.Twin world') : world'.Twin world := by
  obtain ⟨events, scripts, rfl⟩ := h
  exact ⟨_, _, rfl⟩

theorem World.Twin.trans {world₁ world₂ world₃ : World} (h : world₁.Twin world₂)
    (h' : world₂.Twin world₃) : world₁.Twin world₃ := by
  obtain ⟨events, scripts, rfl⟩ := h
  obtain ⟨events', scripts', rfl⟩ := h'
  exact ⟨_, _, rfl⟩

theorem World.Twin.alike {world world' : World} (h : world.Twin world') : world.Alike world' := by
  obtain ⟨events, scripts, rfl⟩ := h
  exact ⟨rfl, rfl, rfl, rfl⟩

theorem World.twin_showsAll (world : World) (events : List Event) :
    world.Twin (world.showsAll events) :=
  ⟨_, _, rfl⟩

namespace Program

/-- A program that looks at the world, but into no file. -/
abbrev OnlyGlances (program : Program α) : Prop :=
  program.Only fun request => request.isGlance = true

/-- A program that only looks at the world. -/
abbrev OnlyReads (program : Program α) : Prop := program.Only fun request => request.isReading = true

theorem OnlyGlances.onlyReads {program : Program α} (h : program.OnlyGlances) :
    program.OnlyReads :=
  h.mono fun _ hrequest => Bool.or_eq_true_iff.mpr (.inl hrequest)

theorem reply_of_isReading {request : Request} (h : request.isReading = true) (world : World) :
    world.reply request = ((world.reply request).1, world) := by
  cases request with
  | isFile | read | folder | «variable» | hasPackage | accounts => rfl
  | _ => cases h

theorem OnlyReads.run_snd {program : Program α} (h : program.OnlyReads) (world : World) :
    (program.run world).2 = world := by
  induction program with
  | done value => rfl
  | raise fault => rfl
  | ask request next ih =>
    rw [run, reply_of_isReading h.1]
    exact ih _ (h.2 _)

/-- A program that only asks: it changes no file and no folder, reads no clock and no input. -/
abbrev OnlyAsks (program : Program α) : Prop := program.Only fun request => request.isQuestion = true

theorem OnlyReads.onlyAsks {program : Program α} (h : program.OnlyReads) : program.OnlyAsks := by
  refine h.mono fun request hrequest => ?_
  cases request with
  | isFile | read | folder | «variable» | hasPackage | accounts => rfl
  | _ => cases hrequest

/-- A program that looks around and calls services, and prints nothing. -/
abbrev Inquires (program : Program α) : Prop :=
  program.Only fun request => request.isInquiry = true

theorem OnlyReads.inquires {program : Program α} (h : program.OnlyReads) : program.Inquires :=
  h.mono fun _ hrequest => Bool.or_eq_true_iff.mpr (.inl hrequest)

theorem Inquires.onlyAsks {program : Program α} (h : program.Inquires) : program.OnlyAsks := by
  refine h.mono fun request hrequest => ?_
  cases request with
  | isFile | read | folder | «variable» | hasPackage | accounts | call | emit => rfl
  | _ => cases hrequest

theorem twin_reply {request : Request} (h : request.isQuestion = true) (world : World) :
    world.Twin (world.reply request).2 := by
  cases request with
  | write => cases h
  | makeFolders => cases h
  | remove => cases h
  | enter => cases h
  | clock => cases h
  | input => cases h
  | _ => exact ⟨_, _, rfl⟩

/-- What only asks leaves a twin of the world. -/
theorem OnlyAsks.twin {program : Program α} (h : program.OnlyAsks) (world : World) :
    world.Twin (program.run world).2 := by
  induction program generalizing world with
  | done value => exact .refl world
  | raise fault => exact .refl world
  | ask request next ih =>
    exact (twin_reply h.1 world).trans
      (ih _ (h.2 (world.reply request).1) (world.reply request).2)

/-- What only asks leaves an alike world. -/
theorem OnlyAsks.alike {program : Program α} (h : program.OnlyAsks) (world : World) :
    world.Alike (program.run world).2 :=
  (h.twin world).alike

/-! ### What has been shown before -/

/-- No reply depends on what has been shown before. -/
theorem reply_showsAll (request : Request) (world : World) (events : List Event) : ∃ before,
    (World.reply { world with events } request) =
      ((world.reply request).1, { (world.reply request).2 with events := before }) := by
  have honDisk (action : Except DiskFault Disk) :
      World.onDisk { world with events } action =
        ((world.onDisk action).1, { (world.onDisk action).2 with events }) := by
    cases action <;> rfl
  cases request with
  | write => exact ⟨_, honDisk _⟩
  | remove => exact ⟨_, honDisk _⟩
  | enter path =>
    refine ⟨events, ?_⟩
    dsimp only [World.reply]
    cases world.disk.enter world.folder path <;> rfl
  | _ => exact ⟨_, rfl⟩

/-- What a program ends with does not depend on what has been shown before. -/
theorem run_fst_of_events (program : Program α) (world : World) (events : List Event) :
    (program.run { world with events }).1 = (program.run world).1 := by
  induction program generalizing world events with
  | done value => rfl
  | raise fault => rfl
  | ask request next ih =>
    obtain ⟨before, hreply⟩ := reply_showsAll request world events
    rw [run, hreply, run]
    exact ih _ _ before

end Program

end Reckoner
