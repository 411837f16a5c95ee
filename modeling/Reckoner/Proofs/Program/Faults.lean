import Reckoner.Proofs.Program.Asking

/-! The faults with which programs end.  What a program that only asks can end with is told by the
replies of the world in which it begins: services answer by its script, and nothing else changes. -/

namespace Reckoner

/-- All that may come of the calls of a service. -/
def Script.all {Response : Type} (script : Script Response) : List (Except Fault Response) :=
  script.last :: script.outcomes

theorem Script.next_fst_mem_all {Response : Type} (script : Script Response) :
    script.next.1 ∈ script.all := by
  obtain ⟨outcomes, last⟩ := script
  cases outcomes with
  | nil => exact List.mem_cons_self
  | cons outcome outcomes => exact .tail _ List.mem_cons_self

theorem Script.all_next_snd_subset {Response : Type} (script : Script Response) :
    script.next.2.all ⊆ script.all := by
  obtain ⟨outcomes, last⟩ := script
  cases outcomes with
  | nil => exact List.Subset.refl _
  | cons outcome outcomes =>
    exact List.cons_subset_cons last (List.subset_cons_self outcome outcomes)

/-- Scripts by which nothing else can come of calls. -/
structure Scripts.Within (scripts scripts' : Scripts) : Prop where
  openAi : scripts.openAi.all ⊆ scripts'.openAi.all
  anthropic : scripts.anthropic.all ⊆ scripts'.anthropic.all

theorem Scripts.Within.refl (scripts : Scripts) : scripts.Within scripts :=
  ⟨List.Subset.refl _, List.Subset.refl _⟩

theorem Scripts.Within.trans {scripts₁ scripts₂ scripts₃ : Scripts} (h : scripts₁.Within scripts₂)
    (h' : scripts₂.Within scripts₃) : scripts₁.Within scripts₃ :=
  ⟨List.Subset.trans h.openAi h'.openAi, List.Subset.trans h.anthropic h'.anthropic⟩

theorem Scripts.within_answer (scripts : Scripts) (call : Call) :
    (scripts.answer call).2.Within scripts := by
  cases call with
  | openAi => exact ⟨Script.all_next_snd_subset _, List.Subset.refl _⟩
  | anthropic => exact ⟨List.Subset.refl _, Script.all_next_snd_subset _⟩

/-- What may come of a call. -/
def Scripts.Offer (scripts : Scripts) : (call : Call) → Except Fault call.Response → Prop
  | .openAi _, outcome => outcome ∈ scripts.openAi.all
  | .anthropic _, outcome => outcome ∈ scripts.anthropic.all

theorem Scripts.offer_answer (scripts : Scripts) (call : Call) :
    scripts.Offer call (scripts.answer call).1 := by
  cases call with
  | openAi => exact Script.next_fst_mem_all _
  | anthropic => exact Script.next_fst_mem_all _

theorem Scripts.Within.offer {scripts scripts' : Scripts} (h : scripts.Within scripts') {call : Call}
    {outcome : Except Fault call.Response} (hoffer : scripts.Offer call outcome) :
    scripts'.Offer call outcome := by
  cases call with
  | openAi => exact h.openAi hoffer
  | anthropic => exact h.anthropic hoffer

namespace World

/-- The replies of a world to a question, whenever it is asked. -/
def Serves (world : World) : (request : Request) → request.Reply → Prop
  | .call call, outcome => world.scripts.Offer call outcome
  | request, reply => reply = (world.reply request).1

/-- A world that differs at most in what has been shown, and in which services answer no more than
before. -/
def Recedes (world world' : World) : Prop :=
  ∃ events scripts, world' = { world with events, scripts } ∧ scripts.Within world.scripts

variable {world world' world'' : World}

theorem Recedes.refl (world : World) : world.Recedes world := ⟨_, _, rfl, .refl _⟩

theorem Recedes.trans (h : world.Recedes world') (h' : world'.Recedes world'') :
    world.Recedes world'' := by
  obtain ⟨events, scripts, rfl, hscripts⟩ := h
  obtain ⟨events', scripts', rfl, hscripts'⟩ := h'
  exact ⟨_, _, rfl, hscripts'.trans hscripts⟩

theorem recedes_of_events (world : World) (events : List Event) :
    world.Recedes { world with events } :=
  ⟨_, _, rfl, .refl _⟩

theorem recedes_reply {request : Request} (h : request.isQuestion = true) (world : World) :
    world.Recedes (world.reply request).2 := by
  cases request with
  | write => cases h
  | makeFolders => cases h
  | remove => cases h
  | enter => cases h
  | clock => cases h
  | input => cases h
  | call call => exact ⟨_, _, rfl, world.scripts.within_answer call⟩
  | emit event => exact recedes_of_events world _
  | _ => exact .refl world

theorem Recedes.serves (h : world.Recedes world') {request : Request}
    (hrequest : request.isQuestion = true) : world.Serves request (world'.reply request).1 := by
  obtain ⟨events, scripts, rfl, hscripts⟩ := h
  cases request with
  | write => cases hrequest
  | makeFolders => cases hrequest
  | remove => cases hrequest
  | enter => cases hrequest
  | clock => cases hrequest
  | input => cases hrequest
  | call call => exact hscripts.offer (scripts.offer_answer call)
  | _ => rfl

end World

namespace Program

variable {α β : Type} {world : World} {allowed : Fault → Prop}

/-- Whether a program only asks, and all faults with which it may end in a world are of one kind. -/
def FaultsIn (world : World) (allowed : Fault → Prop) : Program α → Prop
  | done _ => True
  | raise fault => allowed fault
  | ask request next => request.isQuestion = true ∧
    ∀ reply, world.Serves request reply → (next reply).FaultsIn world allowed

variable {program : Program α} {next : α → Program β}

theorem FaultsIn.bind (h : program.FaultsIn world allowed)
    (hnext : ∀ value, (next value).FaultsIn world allowed) :
    (program >>= next).FaultsIn world allowed := by
  change (program.andThen next).FaultsIn world allowed
  induction program with
  | done value => exact hnext value
  | raise fault => exact h
  | ask request more ih => exact ⟨h.1, fun reply hreply => ih reply (h.2 reply hreply)⟩

theorem FaultsIn.bind_of_yields {property : α → Prop} (h : program.FaultsIn world allowed)
    (hvalues : program.Yields property)
    (hnext : ∀ value, property value → (next value).FaultsIn world allowed) :
    (program >>= next).FaultsIn world allowed := by
  change (program.andThen next).FaultsIn world allowed
  induction program with
  | done value => exact hnext value hvalues
  | raise fault => exact h
  | ask request more ih =>
    exact ⟨h.1, fun reply hreply => ih reply (h.2 reply hreply) (hvalues reply)⟩

/-- A question, and what comes after its reply. -/
theorem faultsIn_request {request : Request} {next : request.Reply → Program α}
    (h : request.isQuestion = true)
    (hnext : ∀ reply, world.Serves request reply → (next reply).FaultsIn world allowed) :
    (Program.request request >>= next).FaultsIn world allowed :=
  ⟨h, hnext⟩

theorem faultsIn_emit (event : Event) : (emit event).FaultsIn world allowed := by
  refine ⟨rfl, ?_⟩
  rintro reply rfl
  trivial

/-- A program ends with none but these faults in its world, and after it. -/
theorem FaultsIn.run (h : program.FaultsIn world allowed) {world' : World}
    (hworld : world.Recedes world') {fault : Fault}
    (hrun : (program.run world').1 = .error fault) : allowed fault := by
  induction program generalizing world' with
  | done value => cases hrun
  | raise raised =>
    obtain rfl := Except.error.inj hrun
    exact h
  | ask request next ih =>
    -- A call leaves fewer answers, which are still among those of the first world.
    exact ih _ (h.2 _ (hworld.serves h.1)) (hworld.trans (World.recedes_reply h.1 world')) hrun

/-- A translator has no faults but failures. -/
theorem FaultsIn.translating
    (h : program.FaultsIn world fun fault => allowed (.failure fault.translated)) :
    program.translating.FaultsIn world allowed := by
  rw [Program.translating]
  induction program with
  | done value => trivial
  | raise fault => exact h
  | ask request next ih => exact ⟨h.1, fun reply hreply => ih reply (h.2 reply hreply)⟩

end Program

end Reckoner
