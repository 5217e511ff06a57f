import VolumeBroker.Discovery.Command
import VolumeBroker.Service

/-!
# Sessions

A session is a script: a store, a fabric and a list of steps that are carried out one after the
other on a broker.  Some steps are requests, others change the surroundings.  A hook is a list of
steps that waits for the broker to call one of its collaborators; the steps are carried out in the
middle of that call, before it does anything, so that a script can say what happens while an
operation is under way.  A broker that is restarted while one of its operations waits in a call goes
on with that operation, on what it knew; new requests reach the new one.

A broker lets nobody into its catalog while it loads or saves.  A load that is begun in the middle
of such a call waits, and runs when the catalog is free and the script waits for something: for the
catalog, for a load, or for the end of a step.

Every hook runs once at most, so the depth of calls within calls is bounded by the number of hooks
in the script.
-/

set_option autoImplicit false

namespace VolumeBroker

/-- A fabric as a script sets it. -/
inductive Fabric
  | devices (found : List Descriptor)
  | failing (text : String)
  | log (text : String)
  | command (settings : DiscoverySettings) (program : Program)

/-- What the fabric says when it is asked. -/
def Fabric.answer (fabric : Fabric) (params : Parameters) :
    Except DiscoveryError (List Descriptor) :=
  match fabric with
  | .devices found => .ok found
  | .failing text => .error (.fabric text)
  | .log text => Descriptor.parseLog text
  | .command settings program => (settings.discover params program).outcome

/-- A step of a script. -/
inductive Step
  | setFabric (fabric : Fabric)
  /-- From now on loads fail, or work again. -/
  | failLoads (e : Option StoreError)
  /-- From now on saves fail, or work again. -/
  | failSaves (e : Option StoreError)
  /-- Somebody else writes records to the store. -/
  | putRecords (records : Snapshot)
  /-- Somebody else writes texts to the store while it is closed. -/
  | putTexts (texts : Std.ExtTreeMap String String)
  /-- Sets the steps that the next call of a collaborator meets. -/
  | hook (collaborator : Collaborator) (steps : List Step)
  /-- The broker ends and a new one begins. -/
  | restart
  /-- The initial load is begun in the background. -/
  | spawnSync
  /-- The initial load is asked for by somebody who does not wait for it. -/
  | abandonSync
  /-- The initial load is asked for by several at once. -/
  | sync (callers : Nat)
  | isSynced
  | lock (key : String)
  /-- A lock that was kept is given back. -/
  | unlock (key : String)
  | isLocked (key : String)
  | lockCount
  | discover (params : Parameters)
  | allocate (volume : String)
  | release (nqn : String)
  | get (nqn : String)
  | operate (request : Request)
  | call (call : Call)

/-- What a step gives. -/
inductive StepResult
  | nothing
  | flag (value : Bool)
  | count (n : Nat)
  | loads (outcomes : List LoadOutcome)
  | added (result : Except RegistryError Nat)
  | allocated (result : Except RegistryError Device)
  | released (result : Except RegistryError Bool)
  | found (device : Option Device)
  | operated (outcome : Outcome)
  | replied (reply : Except Status Reply)

mutual

/-- The number of hooks in a step. -/
def Step.hooks : Step → Nat
  | .hook _ steps => hooksIn steps + 1
  | _ => 0

/-- The number of hooks in some steps. -/
def hooksIn : List Step → Nat
  | [] => 0
  | s :: rest => s.hooks + hooksIn rest

end

/-- A session under way. -/
structure Session where
  store : Store
  /-- What each of the brokers so far knows; the last one is the present one. -/
  brokers : Array Registry := #[{}]
  /-- The keys of the locks that are kept. -/
  kept : List String := []
  fabric : Fabric := .devices []
  faults : Faults := {}
  loadHook : Option (List Step) := none
  saveHook : Option (List Step) := none
  discoverHook : Option (List Step) := none
  /-- How often a broker has called the store for its snapshot. -/
  loads : Nat := 0
  /-- How often a broker has called the store to write. -/
  saves : Nat := 0
  /-- What the steps of hooks have given during the present step, if a hook has run. -/
  hooked : Option (List StepResult) := none
  /-- The brokers in whose catalogs somebody is who waits for the store. -/
  occupied : List Nat := []

/-- What can be seen of a session between two steps. -/
structure SessionView where
  synced : Bool
  locks : Nat
  devices : List Device
  records : Except StoreError Snapshot
  loads : Nat
  saves : Nat

/-- What a step of a script has come to. -/
structure StepReport where
  result : StepResult
  hooked : Option (List StepResult)
  view : SessionView

namespace Session

/-- A part of a session. -/
abbrev Run := StateM Session

/-! ## Brokers -/

/-- The number of the broker that is at work. -/
def present (s : Session) : Nat := s.brokers.size - 1

/-- A broker of the session, on the store as it is. -/
def broker (s : Session) (i : Nat) : Broker :=
  { toRegistry := s.brokers.getD i {}, store := s.store }

/-- Takes over what a broker has become. -/
def setBroker (s : Session) (i : Nat) (b : Broker) : Session :=
  { s with store := b.store, brokers := s.brokers.setIfInBounds i b.toRegistry }

/-- Lets a broker do something, with the failures that are set. -/
def act {α : Type} (i : Nat) (f : Faults → Broker → α × Broker) : Run α :=
  modifyGet fun s =>
    let (a, b) := f s.faults (s.broker i)
    (a, s.setBroker i b)

/-! ## Collaborators -/

/-- The steps that wait for a collaborator, which from now on wait no more. -/
def takeHook (c : Collaborator) : Run (Option (List Step)) :=
  modifyGet fun s =>
    match c with
    | .load => (s.loadHook, { s with loadHook := none })
    | .save => (s.saveHook, { s with saveHook := none })
    | .discover => (s.discoverHook, { s with discoverHook := none })

/-- Sets the steps that wait for a collaborator. -/
def setHook (c : Collaborator) (steps : List Step) (s : Session) : Session :=
  match c with
  | .load => { s with loadHook := some steps }
  | .save => { s with saveHook := some steps }
  | .discover => { s with discoverHook := some steps }

/-- Counts the call of a collaborator. -/
def countCall (c : Collaborator) (s : Session) : Session :=
  match c with
  | .load => { s with loads := s.loads + 1 }
  | .save => { s with saves := s.saves + 1 }
  | .discover => s

/-- Notes what a step of a hook has given. -/
def note (r : StepResult) (s : Session) : Session :=
  { s with hooked := some (s.hooked.getD [] ++ [r]) }

/-- The steps that wait for a collaborator are taken. -/
def runHook (perform : Step → Run StepResult) (c : Collaborator) : Run Unit := do
  match ← takeHook c with
  | none => return
  | some steps =>
    modify fun s => { s with hooked := some (s.hooked.getD []) }
    for step in steps do
      let r ← perform step
      modify (note r)

/-- Whether a broker calls the collaborator from within its catalog. -/
def needsCatalog (c : Collaborator) : Bool :=
  match c with
  | .load => true
  | .save => true
  | .discover => false

/-- A broker calls a collaborator: the call is counted, and the steps that wait for it are taken. -/
def meet (perform : Step → Run StepResult) (i : Nat) (c : Collaborator) : Run Unit := do
  modify (countCall c)
  if needsCatalog c then
    modify fun s => { s with occupied := i :: s.occupied }
    runHook perform c
    modify fun s => { s with occupied := s.occupied.erase i }
  else runHook perform c

/-! ## What a broker does -/

/-- How the steps of a script meet the calls of a broker. -/
abbrev Meet := Nat → Collaborator → Run Unit

/-- The load that is awaited at a broker runs to its end, unless the catalog is occupied. -/
def runLoad (meet : Meet) (i : Nat) : Run Unit := do
  let s ← get
  if (s.broker i).sync.awaited?.isSome && !s.occupied.contains i then
    meet i .load
    act i fun faults b => ((), b.runLoad faults)

/-- Every load that can run does so. -/
def runLoads (meet : Meet) : Run Unit := do
  for i in List.range (← get).brokers.size do
    runLoad meet i

/-- Somebody enters the catalog of a broker, after the load that waits for it. -/
def inCatalog {α : Type} (meet : Meet) (i : Nat) (f : Run α) : Run α := do
  runLoad meet i
  f

/-- Several callers ask for the snapshot at once; each gets the outcome of the load it waits for. -/
def sync (meet : Meet) (i callers : Nat) : Run (List LoadOutcome) := do
  let entries ← (List.range callers).mapM fun _ => act i fun _ b => b.enterSync
  if entries.any (· != .ready) then runLoads meet
  entries.mapM fun
    | .ready => return .ok ()
    | .awaits load => act i fun _ b =>
        let outcome := (b.sync.outcome? load).getD (.ok ())
        (outcome, b.leaveSync load outcome)

/-- Somebody asks for the snapshot and does not wait for it. -/
def abandonSync (meet : Meet) (i : Nat) : Run Unit := do
  let _ ← act i fun _ b => b.enterSync
  runLoads meet

/-- Asks the fabric and takes its findings. -/
def discover (meet : Meet) (i : Nat) (params : Parameters) : Run (Except RegistryError Nat) := do
  let fabric := (← get).fabric
  meet i .discover
  match fabric.answer params with
  | .error e => act i fun _ b => b.discover (.error e)
  | .ok found => inCatalog meet i <| act i fun _ b => b.discover (.ok found)

/-- A request for a device, which calls the store only if a record is to be written. -/
def allocate (meet : Meet) (i : Nat) (volume : String) : Run (Except RegistryError Device) :=
  inCatalog meet i do
    if (((← get).broker i).catalog.allocate volume).isCommit then meet i .save
    act i fun faults b => b.allocate faults volume

/-- The return of a device, which calls the store only if a record is to be written. -/
def release (meet : Meet) (i : Nat) (nqn : String) : Run (Except RegistryError Bool) :=
  inCatalog meet i do
    if (((← get).broker i).catalog.release nqn).isCommit then meet i .save
    act i fun faults b => b.release faults nqn

/-- A look at a device. -/
def lookUp (meet : Meet) (i : Nat) (nqn : String) : Run (Option Device) :=
  inCatalog meet i do return ((← get).broker i).device? nqn

/-- Carries an operation on by one stage, with the load that it waits for. -/
def advance (meet : Meet) (i : Nat) (op : Operation) : Run Operation := do
  if op.stage matches .awaiting _ then runLoads meet
  if op.entersCatalog then runLoad meet i
  let fabric := (← get).fabric
  match op.calls? ((← get).broker i) with
  | some c => meet i c
  | none => pure ()
  let stage ← act i fun faults b => op.step ⟨faults, fabric.answer⟩ b
  return { op with stage }

/-- The greatest number of stages of an operation. -/
def maxStages : Nat := 8

/-- Carries an operation out, to its end. -/
def operate (meet : Meet) (i : Nat) (request : Request) : Run Outcome := do
  let op ← (List.range maxStages).foldlM (fun op _ => advance meet i op) { request }
  match op.stage with
  | .ended outcome => return outcome
  | _ => return .error (.aborted request.key)

/-- Answers a call of the controller service. -/
def answerCall (meet : Meet) (i : Nat) (call : Call) : Run (Except Status Reply) := do
  match call.toRequest with
  | .error reply => return reply
  | .ok request => return call.reply (← operate meet i request)

/-! ## Steps -/

/-- Takes the lock of a volume and keeps it. -/
def keepLock (i : Nat) (key : String) (s : Session) : Bool × Session :=
  match (s.broker i).lock? key with
  | none => (false, s)
  | some b => (true, { s.setBroker i b with kept := key :: s.kept })

/-- Gives a lock that was kept back. -/
def dropLock (i : Nat) (key : String) (s : Session) : Bool × Session :=
  if key ∈ s.kept then
    (true, { s.setBroker i ((s.broker i).unlock key) with kept := s.kept.erase key })
  else (false, s)

/-- Ends the present broker, which drops the locks that are kept, and begins a new one. -/
def restart (s : Session) : Session :=
  let s := s.kept.foldl (fun s key => (dropLock s.present key s).2) s
  { s with brokers := s.brokers.push {} }

/-- Carries a step out.  `depth` bounds how many hooks can run within each other. -/
def perform : Nat → Step → Run StepResult
  | depth, step => do
    let within : Step → Run StepResult := match depth with
      | 0 => fun _ => return .nothing
      | depth + 1 => perform depth
    let meet := meet within
    let i := (← get).present
    match step with
    | .setFabric fabric => modify ({ · with fabric }); return .nothing
    | .failLoads e => modify (fun s => { s with faults.load := e }); return .nothing
    | .failSaves e => modify (fun s => { s with faults.save := e }); return .nothing
    | .putRecords records =>
      modify (fun s => { s with store := s.store.save records }); return .nothing
    | .putTexts texts => modify (fun s => { s with store := s.store.reopen texts }); return .nothing
    | .hook c steps => modify (setHook c steps); return .nothing
    | .restart => modify restart; return .nothing
    | .spawnSync => let _ ← sync meet i 1; return .nothing
    | .abandonSync => abandonSync meet i; return .nothing
    | .sync callers => return .loads (← sync meet i callers)
    | .isSynced => return .flag ((← get).broker i).sync.isSynced
    | .lock key => return .flag (← modifyGet (keepLock i key))
    | .unlock key => return .flag (← modifyGet (dropLock i key))
    | .isLocked key => return .flag (((← get).broker i).locks.isLocked key)
    | .lockCount => return .count ((← get).broker i).locks.size
    | .discover params => return .added (← discover meet i params)
    | .allocate volume => return .allocated (← allocate meet i volume)
    | .release nqn => return .released (← release meet i nqn)
    | .get nqn => return .found (← lookUp meet i nqn)
    | .operate request => return .operated (← operate meet i request)
    | .call call => return .replied (← answerCall meet i call)

/-- What can be seen of a session. -/
def view (s : Session) : SessionView :=
  let b := s.broker s.present
  { synced := b.sync.isSynced
    locks := b.locks.size
    devices := b.catalog.devices
    records := s.store.load
    loads := s.loads
    saves := s.saves }

/-- Carries a script out and reports on each of its steps.  At the end of a step the loads that wait
run, and those that begin only then, of which each hook can bring one. -/
def run (s : Session) (steps : List Step) : List StepReport :=
  let depth := hooksIn steps
  let script : Run (List StepReport) := steps.mapM fun step => do
    modify ({ · with hooked := none })
    let result ← perform depth step
    for _ in List.range (depth + 1) do
      runLoads (meet (perform depth))
    let s ← get
    return ⟨result, s.hooked, s.view⟩
  (script.run s).1

end Session

end VolumeBroker
