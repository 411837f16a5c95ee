import Reckoner.Program

/-! Worlds: surroundings in which every request has a definite reply, so that what a program does is
a function. -/

namespace Reckoner

/-- What comes of the calls of a service, call by call, and of all calls after that. -/
structure Script (Response : Type) where
  outcomes : List (Except Fault Response) := []
  last : Except Fault Response

/-- What comes of the next call, and the script after it. -/
def Script.next {Response : Type} (script : Script Response) :
    Except Fault Response × Script Response :=
  match script.outcomes with
  | [] => (script.last, script)
  | outcome :: outcomes => (outcome, { script with outcomes })

/-- What comes of the calls of all services. -/
structure Scripts where
  openAi : Script OpenAi.Response := ⟨[], .ok ⟨[none]⟩⟩
  anthropic : Script Anthropic.Response := ⟨[], .ok ⟨[]⟩⟩

/-- What comes of a call, and the scripts after it. -/
def Scripts.answer (scripts : Scripts) : (call : Call) → Except Fault call.Response × Scripts
  | .openAi _ =>
    let (outcome, openAi) := scripts.openAi.next
    (outcome, { scripts with openAi })
  | .anthropic _ =>
    let (outcome, anthropic) := scripts.anthropic.next
    (outcome, { scripts with anthropic })

/-- The surroundings of a program, and what it has shown so far. -/
structure World where
  disk : Disk := ⟨[]⟩
  /-- The folder in which relative paths start. -/
  folder : Place := []
  environment : List (Text × Text) := []
  /-- The home folders that the accounts have: that of whoever runs the program, and others by the
  names of the accounts. -/
  accounts : Homes := {}
  clock : Int := 0
  input : Text := []
  scripts : Scripts := {}
  /-- The packages that are not installed. -/
  missingPackages : List Text := []
  events : List Event := []

namespace World

/-- The world after something has been shown. -/
def shows (world : World) (event : Event) : World :=
  { world with events := world.events ++ [event] }

/-- A reply of the disk that changes it or does not. -/
def onDisk (world : World) : Except DiskFault Disk → Except DiskFault Unit × World
  | .ok disk => (.ok (), { world with disk := disk })
  | .error fault => (.error fault, world)

/-- The line that the server of tools prints. -/
def serving (tools : List Text) (folder : Place) : Text :=
  "serving " ++ Text.joined "," tools ++ " in " ++ (Path.ofNames folder).text ++ "\n"

/-- The reply to a request, and the world after it. -/
def reply (world : World) : (request : Request) → request.Reply × World
  | .isFile path => (world.disk.isFile world.folder path, world)
  | .read path => (world.disk.read world.folder path, world)
  | .write path bytes => world.onDisk (world.disk.write world.folder path bytes)
  | .makeFolders path =>
    let (result, disk) := world.disk.makeFolders world.folder path
    (result, { world with disk := disk })
  | .remove path => world.onDisk (world.disk.remove world.folder path)
  | .folder => (world.folder, world)
  | .enter path =>
    match world.disk.enter world.folder path with
    | .ok place => (.ok (), { world with folder := place })
    | .error fault => (.error fault, world)
  | .variable name => (world.environment.lookup name, world)
  | .clock => (world.clock, { world with clock := world.clock + 1 })
  | .input => (world.input, { world with input := [] })
  | .hasPackage name => (!world.missingPackages.elem name, world)
  | .call call =>
    let (outcome, scripts) := world.scripts.answer call
    (outcome, { world.shows (.called call) with scripts })
  | .emit event => (.ok (), world.shows event)
  | .accounts => (world.accounts, world)
  | .serve tools => (Text.loose (serving tools world.folder), world)

end World

namespace Program

/-- What a program ends with in a world, and the world after it. -/
def run {α : Type} : Program α → World → Except Fault α × World
  | done value, world => (.ok value, world)
  | raise fault, world => (.error fault, world)
  | ask request next, world =>
    let (reply, world) := world.reply request
    (next reply).run world

variable {α β : Type}

@[simp] theorem run_pure (value : α) (world : World) :
    (pure value : Program α).run world = (.ok value, world) := rfl

/-- A program goes on in the world that the one before it leaves. -/
theorem run_bind (program : Program α) (next : α → Program β) (world : World) :
    (program >>= next).run world =
      match program.run world with
      | (.ok value, world) => (next value).run world
      | (.error fault, world) => (.error fault, world) := by
  change (program.andThen next).run world = _
  induction program generalizing world with
  | done value => rfl
  | raise fault => rfl
  | ask request more ih => exact ih _ _

end Program

end Reckoner
