import Reckoner.Output
import Reckoner.Proofs.Program.Runs

/-! The requests of a program in a world, and what can be seen of them.  A program makes the same
requests in worlds that differ only in what it does not ask for, and what has been shown before makes
no difference to any program. -/

namespace Reckoner

variable {α β : Type}

namespace Program

/-- The requests that a program makes in a world. -/
def requests : Program α → World → List Request
  | done _, _ | raise _, _ => []
  | ask request next, world =>
    request :: (next (world.reply request).1).requests (world.reply request).2

theorem requests_bind (program : Program α) (next : α → Program β) (world : World) :
    (program >>= next).requests world = program.requests world ++
      match program.run world with
      | (.ok value, world') => (next value).requests world'
      | (.error _, _) => [] := by
  change (program.andThen next).requests world = _
  induction program generalizing world with
  | done value => rfl
  | raise fault => rfl
  | ask request more ih => exact congrArg (request :: ·) (ih _ _)

theorem requests_bind_of_ok {program : Program α} {next : α → Program β} {value : α}
    {world world' : World} (h : program.run world = (.ok value, world')) :
    (program >>= next).requests world =
      program.requests world ++ (next value).requests world' := by
  rw [requests_bind, h]

/-- A program makes no more requests than its parts do. -/
theorem length_requests_bind_le {program : Program α} {next : α → Program β} {world : World}
    {m n : Nat} (h : (program.requests world).length ≤ m)
    (hnext : ∀ value world', program.run world = (.ok value, world') →
      ((next value).requests world').length ≤ n) :
    ((program >>= next).requests world).length ≤ m + n := by
  rw [requests_bind, List.length_append]
  refine Nat.add_le_add h ?_
  split
  case h_1 heq => exact hnext _ _ heq
  case h_2 => exact Nat.zero_le n

theorem requests_attempt (program : Program α) (world : World) :
    program.attempt.requests world = program.requests world := by
  induction program generalizing world with
  | done value => rfl
  | raise fault => rfl
  | ask request more ih => exact congrArg (request :: ·) (ih _ _)

theorem Only.of_mem_requests {program : Program α} {allowed : Request → Prop}
    (h : program.Only allowed) {world : World} {request : Request}
    (hrequest : request ∈ program.requests world) : allowed request := by
  induction program generalizing world with
  | done value => cases hrequest
  | raise fault => cases hrequest
  | ask first more ih =>
    rcases List.mem_cons.mp hrequest with rfl | hrequest
    · exact h.1
    · exact ih _ (h.2 _) hrequest

/-- A program that only looks at the world ends the same way on another disk if what it asks for has
the same replies. -/
theorem run_fst_of_requests {program : Program α} (h : program.OnlyReads) {world : World} {disk : Disk}
    (hsame : ∀ request ∈ program.requests world,
      (World.reply { world with disk } request).1 = (world.reply request).1) :
    (program.run { world with disk }).1 = (program.run world).1 := by
  induction program with
  | done value => rfl
  | raise fault => rfl
  | ask request more ih =>
    have hreply := reply_of_isReading h.1
    obtain ⟨hfirst, hmore⟩ := List.forall_mem_cons.mp hsame
    rw [hreply world] at hmore
    have hrest := ih _ (h.2 _) hmore
    rw [run, run, hreply, hreply world, hfirst]
    exact hrest

end Program

/-! ### What is shown -/

/-- What can be seen of a request. -/
def Request.event? : Request → Option Event
  | .emit event => some event
  | .call asked => some (.called asked)
  | _ => none

theorem World.reply_events (world : World) (request : Request) :
    (world.reply request).2.events = world.events ++ request.event?.toList := by
  have honDisk (action : Except DiskFault Disk) :
      (world.onDisk action).2.events = world.events := by
    cases action <;> rfl
  cases request with
  | write => exact (honDisk _).trans (List.append_nil _).symm
  | remove => exact (honDisk _).trans (List.append_nil _).symm
  | enter path =>
    dsimp only [World.reply]
    cases world.disk.enter world.folder path <;> exact (List.append_nil _).symm
  | call call => rfl
  | emit event => rfl
  | _ => exact (List.append_nil _).symm

namespace Event

@[simp] theorem output_nil : output [] = [] := rfl

@[simp] theorem output_printed (text : LooseText) : output [printed text] = text :=
  List.append_nil text

theorem output_append (events more : List Event) :
    output (events ++ more) = output events ++ output more := List.flatMap_append

theorem errorOutput_append {events : List Event} (h : verbose ∉ events) (inFull : Bool)
    (more : List Event) :
    errorOutput inFull (events ++ more) = errorOutput inFull events ++ errorOutput inFull more := by
  induction events with
  | nil => rfl
  | cons event events ih =>
    obtain ⟨hevent, hevents⟩ := not_or.mp (mt List.mem_cons.mpr h)
    cases event with
    | verbose => exact absurd rfl hevent
    | complained | logged =>
      rw [List.cons_append, errorOutput, errorOutput, ih hevents, List.append_assoc]
    | _ => exact ih hevents

end Event

namespace Program

/-- What a program shows in a world. -/
def events (program : Program α) (world : World) : List Event :=
  (program.requests world).filterMap Request.event?

theorem events_bind_of_ok {program : Program α} {next : α → Program β} {value : α}
    {world world' : World} (h : program.run world = (.ok value, world')) :
    (program >>= next).events world = program.events world ++ (next value).events world' := by
  rw [events, requests_bind_of_ok h, List.filterMap_append]
  rfl

theorem run_ask (request : Request) (next : request.Reply → Program α) (world : World) :
    (ask request next).run world = (next (world.reply request).1).run (world.reply request).2 := rfl

theorem events_ask (request : Request) (next : request.Reply → Program α) (world : World) :
    (ask request next).events world = request.event?.toList ++
      (next (world.reply request).1).events (world.reply request).2 := by
  rw [events, requests, List.filterMap_cons]
  cases request.event? <;> rfl

theorem events_attempt (program : Program α) (world : World) :
    program.attempt.events world = program.events world :=
  congrArg (List.filterMap Request.event?) (requests_attempt program world)

/-- What a program shows comes after what has been shown before. -/
theorem run_snd_events (program : Program α) (world : World) :
    (program.run world).2.events = world.events ++ program.events world := by
  induction program generalizing world with
  | done value => exact (List.append_nil _).symm
  | raise fault => exact (List.append_nil _).symm
  | ask request next ih =>
    rw [run, events_ask, ← List.append_assoc, ← World.reply_events]
    exact ih _ _

/-- A program leaves a world with what it has shown. -/
theorem run_snd_of_showsAll {program : Program α} {world : World} {events : List Event}
    (h : (program.run world).2 = world.showsAll events) : program.events world = events := by
  have hevents := run_snd_events program world
  rw [h] at hevents
  exact (List.append_cancel_left hevents).symm

/-- A program that prints nothing. -/
abbrev PrintsNone (program : Program α) : Prop :=
  program.Only fun request => Event.output request.event?.toList = []

theorem PrintsNone.output_events {program : Program α} (h : program.PrintsNone) (world : World) :
    Event.output (program.events world) = [] := by
  induction program generalizing world with
  | done value => rfl
  | raise fault => rfl
  | ask request next ih =>
    rw [events_ask, Event.output_append, h.1, ih _ (h.2 _)]
    rfl

theorem Inquires.printsNone {program : Program α} (h : program.Inquires) : program.PrintsNone := by
  refine h.mono fun request hrequest => ?_
  cases request with
  | isFile | read | folder | «variable» | hasPackage | accounts | call => rfl
  | emit event =>
    cases event with
    | printed => cases hrequest
    | _ => rfl
  | _ => cases hrequest

theorem printsNone_of_isKeeping {program : Program α}
    (h : program.Only fun request => request.isKeeping = true) : program.PrintsNone := by
  refine h.mono fun request hrequest => ?_
  cases request with
  | read | write | makeFolders | clock => rfl
  | emit event =>
    cases event with
    | logged | complained => rfl
    | _ => cases hrequest
  | _ => cases hrequest

/-! ### Worlds that make no difference -/

/-- A program does the same in two worlds, and leaves related ones. -/
structure SameIn (related : World → World → Prop) (program : Program α) (world world' : World) :
    Prop where
  result : (program.run world').1 = (program.run world).1
  requests : program.requests world' = program.requests world
  after : related (program.run world).2 (program.run world').2

theorem SameIn.events {related : World → World → Prop} {program : Program α} {world world' : World}
    (h : program.SameIn related world world') : program.events world' = program.events world :=
  congrArg (List.filterMap Request.event?) h.requests

/-- If no request of a program tells related worlds apart, the program does not. -/
theorem Only.sameIn {allowed : Request → Prop} {related : World → World → Prop}
    {program : Program α} (h : program.Only allowed)
    (hreply : ∀ request, allowed request → ∀ world world', related world world' →
      (world'.reply request).1 = (world.reply request).1 ∧
        related (world.reply request).2 (world'.reply request).2)
    {world world' : World} (hworld : related world world') :
    program.SameIn related world world' := by
  induction program generalizing world world' with
  | done value => exact ⟨rfl, rfl, hworld⟩
  | raise fault => exact ⟨rfl, rfl, hworld⟩
  | ask request next ih =>
    obtain ⟨hsame, hafter⟩ := hreply request h.1 world world' hworld
    have hrest := ih (world.reply request).1 (h.2 _) hafter
    refine ⟨?_, ?_, ?_⟩
    · rw [run_ask, run_ask, hsame]
      exact hrest.result
    · rw [Program.requests, Program.requests, hsame, hrest.requests]
    · rw [run_ask, run_ask, hsame]
      exact hrest.after

/-- What has been shown before makes no difference. -/
theorem sameIn_of_events (program : Program α) (world : World) (events : List Event) :
    program.SameIn (fun world world' => ∃ events, world' = { world with events }) world
      { world with events } := by
  have hall : program.Only fun _ => True := by
    induction program generalizing world with
    | done value => trivial
    | raise fault => trivial
    | ask request next ih => exact ⟨trivial, fun reply => ih reply world⟩
  refine hall.sameIn (fun request _ world world' hworld => ?_) ⟨events, rfl⟩
  obtain ⟨before, rfl⟩ := hworld
  obtain ⟨after, hreply⟩ := reply_showsAll request world before
  rw [hreply]
  exact ⟨rfl, after, rfl⟩

/-- A program that calls no service. -/
abbrev CallsNone (program : Program α) : Prop :=
  program.Only fun request => ∀ call, request ≠ .call call

theorem callsNone_emit (event : Event) : (emit event).CallsNone :=
  only_emit fun _ => Request.noConfusion

theorem callsNone_of_isKeeping {program : Program α}
    (h : program.Only fun request => request.isKeeping = true) : program.CallsNone := by
  refine h.mono fun request hrequest call => ?_
  rintro rfl
  cases hrequest

/-- What services would answer makes no difference to a program that calls none. -/
theorem CallsNone.sameIn {program : Program α} (h : program.CallsNone) {world world' : World}
    (hworld : world.Twin world') : program.SameIn World.Twin world world' := by
  refine Only.sameIn h (fun request hrequest world world' hworld => ?_) hworld
  obtain ⟨events, scripts, rfl⟩ := hworld
  have honDisk (action : Except DiskFault Disk) :
      (World.onDisk { world with events, scripts } action).1 = (world.onDisk action).1 ∧
        (world.onDisk action).2.Twin (World.onDisk { world with events, scripts } action).2 := by
    cases action <;> exact ⟨rfl, _, _, rfl⟩
  cases request with
  | call call => exact absurd rfl (hrequest call)
  | write => exact honDisk _
  | remove => exact honDisk _
  | enter path =>
    dsimp only [World.reply]
    cases world.disk.enter world.folder path <;> exact ⟨rfl, _, _, rfl⟩
  | _ => exact ⟨rfl, _, _, rfl⟩

/-! ### Captured output -/

/-- What is captured is what the program would print. -/
theorem run_capture_fst (program : Program α) (kept : LooseText) (world : World) :
    ((program.capture kept).run world).1 = (program.run world).1.map fun value =>
      (value, kept ++ Event.output (program.events world)) := by
  fun_induction capture kept program generalizing world with
  | case1 kept value => exact congrArg (fun s => Except.ok (value, s)) (List.append_nil kept).symm
  | case2 kept fault => rfl
  | case3 kept text more ih =>
    have hsame := sameIn_of_events (more (.ok ())) world (world.events ++ [.printed text])
    have hevents : (ask (.emit (.printed text)) more).events world =
        [.printed text] ++ (more (.ok ())).events world := by
      rw [events_ask, ← hsame.events]
      rfl
    rw [ih, ← hsame.result, hevents, Event.output_append, Event.output_printed, List.append_assoc]
    rfl
  | case4 kept request more hrequest ih =>
    have hquiet : Event.output request.event?.toList = [] := by
      cases request with
      | emit event =>
        cases event with
        | printed text => exact (hrequest text more rfl HEq.rfl).elim
        | _ => rfl
      | _ => rfl
    rw [run, run, ih, events_ask, Event.output_append, hquiet]
    rfl

/-! ### Programs that end with a value -/

/-- A program ends with a value in a world, after these events, and leaves another world. -/
structure Ends (program : Program α) (world : World) (value : α) (events : List Event)
    (after : World) : Prop where
  run : program.run world = (.ok value, after)
  events : program.events world = events

section Ends

variable {program : Program α} {next : α → Program β} {world between after : World} {value : α}
  {result : β} {events more : List Event}

theorem ends_pure (value : α) (world : World) : Ends (pure value) world value [] world := ⟨rfl, rfl⟩

theorem ends_emit (event : Event) (world : World) :
    Ends (emit event) world () [event] (world.shows event) := ⟨rfl, rfl⟩

theorem Ends.bind (h : Ends program world value events between)
    (hnext : Ends (next value) between result more after) :
    Ends (program >>= next) world result (events ++ more) after :=
  ⟨(run_bind_of_ok h.run).trans hnext.run, by rw [events_bind_of_ok h.run, h.events, hnext.events]⟩

theorem Ends.bind_pure (h : Ends program world value events after) (next : α → β) :
    Ends (program >>= fun value => pure (next value)) world (next value) events after := by
  rw [← List.append_nil events]
  exact h.bind (ends_pure _ after)

theorem ends_of_showsAll (h : program.run world = (.ok value, world.showsAll events)) :
    Ends program world value events (world.showsAll events) :=
  ⟨h, run_snd_of_showsAll (congrArg Prod.snd h)⟩

/-- What services would answer makes no difference to how a program ends that calls none. -/
theorem Ends.twin {world' : World} (h : Ends program world value events after)
    (hprogram : program.CallsNone) (htwin : world.Twin world') :
    ∃ after', Ends program world' value events after' ∧ after.Twin after' := by
  have hsame := hprogram.sameIn htwin
  have hresult : (program.run world').1 = .ok value := by rw [hsame.result, h.run]
  refine ⟨_, ⟨Prod.ext hresult rfl, hsame.events.trans h.events⟩, ?_⟩
  have hafter := hsame.after
  rwa [h.run] at hafter

end Ends

theorem OnlyReads.events {program : Program α} (h : program.OnlyReads) (world : World) :
    program.events world = [] :=
  run_snd_of_showsAll (by rw [h.run_snd, World.showsAll_nil])

theorem OnlyReads.callsNone {program : Program α} (h : program.OnlyReads) : program.CallsNone := by
  refine h.mono fun request hrequest call => ?_
  rintro rfl
  cases hrequest

/-- A program that does not ask for a full log. -/
abbrev KeepsLog (program : Program α) : Prop :=
  program.Only fun request => request ≠ .emit .verbose

theorem KeepsLog.verbose_not_mem {program : Program α} (h : program.KeepsLog) (world : World) :
    Event.verbose ∉ program.events world := by
  intro hmem
  obtain ⟨request, hrequest, hevent⟩ := List.mem_filterMap.mp hmem
  refine h.of_mem_requests hrequest ?_
  cases request with
  | emit event => rw [Option.some.inj hevent]
  | call => cases hevent
  | _ => cases hevent

/-- A program that only looks at the world ends the same way at any time, whatever has been shown and
is typed. -/
theorem OnlyReads.run_fst_of_clock {program : Program α} (h : program.OnlyReads) (world : World)
    (clock : Int) (input : Text) (events : List Event) :
    (program.run { world with clock, input, events }).1 = (program.run world).1 := by
  induction program with
  | done value => rfl
  | raise fault => rfl
  | ask request next ih =>
    have hsame : (World.reply { world with clock, input, events } request).1 =
        (world.reply request).1 := by
      cases request with
      | isFile | read | folder | «variable» | hasPackage | accounts => rfl
      | _ => cases h.1
    rw [run_ask, run_ask, reply_of_isReading h.1, reply_of_isReading h.1 world, hsame]
    exact ih _ (h.2 _)

end Program

end Reckoner
