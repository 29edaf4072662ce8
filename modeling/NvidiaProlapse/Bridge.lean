import NvidiaProlapse.Queue

/-!
# The bridge: batches over payloads

`Bridge::submit` of mesa.rs plans every payload of a batch first, then submits, and
binds payloads only after the batch is accepted. `Scratch` is the reused record of a
submission; `allocated` are the slots it took from the pool so far, which go back if
the batch is not accepted. Every call runs under the bridge lock, so a call is one
program. Perf capture is left out, and of the deferred frees only that a failed one
loses the device.
-/
namespace NvidiaProlapse
open Programs Gpfifo

structure SyncPoint where
  sync : ℕ
  value : ℕ
  deriving DecidableEq, Repr

/-- A GPU acquire of an accepted batch, as the CPU value that satisfies it. -/
inductive Acquire where
  | binary (slot : Slot)
  | timeline (slot : Slot) (value : ℕ)
  deriving DecidableEq, Repr

/-- State changes applied after the batch is accepted. -/
inductive BatchAction where
  | consume (sync : ℕ) (planned fresh : Slot)
  | signal (sync value : ℕ) (planned : Slot)
  | rebind (sync : ℕ) (fresh : Slot)
  | foreignGate (foreign : ℕ) (gate : Slot)
  | sharedGate (shared target : ℕ) (gate : Slot)
  | sharedPoint (shared target : ℕ) (point : Slot)
  deriving DecidableEq, Repr

structure Scratch where
  waits : List SemaphoreOp
  signals : List SemaphoreOp
  held : List Slot
  allocated : List Slot
  actions : List BatchAction
  shadows : List (Slot × ℕ)
  acquires : List Acquire
  deriving DecidableEq, Repr

def Scratch.empty : Scratch := ⟨[], [], [], [], [], [], []⟩

/-- A batch in its first phase. -/
structure Planning where
  core : Core
  scratch : Scratch

namespace Planning

def onCore {α : Type} (p : Prog Core Error α) : Prog Planning Error α :=
  focus Planning.core (fun core plan => { plan with core := core }) p

def note (change : SlotPool → Scratch → Scratch) : Prog Planning Error Unit :=
  modify fun plan => { plan with scratch := change plan.core.pool plan.scratch }

/-- A gate allocated for the batch, which acquires it. -/
def noteGate (gate : Slot) (action : BatchAction) (pool : SlotPool) (s : Scratch) : Scratch :=
  { s with
    allocated := s.allocated ++ [gate]
    held := s.held ++ [gate]
    waits := s.waits ++ [.acquireBinary (pool.gpu gate)]
    acquires := s.acquires ++ [.binary gate]
    actions := s.actions ++ [action] }

/-- The payload value that goes on the wire. -/
def wire (view : TimelineView) (value : ℕ) : ℕ :=
  match view with
  | .native64 => value
  | .split32 => value % 2 ^ 32

variable (kernel : Kernel)

def planForeign (foreign : ℕ) : Prog Planning Error Unit := do
  if ← onCore (Core.foreignReady kernel foreign false) then pure ()
  else do
    let gate ← onCore (Core.slot kernel)
    note (noteGate gate (.foreignGate foreign gate))

/-- A satisfied binary or foreign wait still unsignals its payload. -/
def planComplete (id : ℕ) (sync : SyncObj) : Prog Planning Error Unit := do
  if Core.waitConsumes sync then do
    let fresh ← onCore (Core.slot kernel)
    note fun _ s => { s with
      allocated := s.allocated ++ [fresh]
      actions := s.actions ++ [.rebind id fresh] }
  else pure ()

def planBinary (id : ℕ) (slot : Slot) : Prog Planning Error Unit := do
  let fresh ← onCore (Core.slot kernel)
  note fun pool s => { s with
    allocated := s.allocated ++ [fresh]
    held := s.held ++ [slot]
    waits := s.waits ++ [.acquireBinary (pool.gpu slot)]
    acquires := s.acquires ++ [.binary slot]
    actions := s.actions ++ [.consume id slot fresh] }

def planTimeline (slot : Slot) (value : ℕ) : Prog Planning Error Unit :=
  note fun pool s => { s with
    held := s.held ++ [slot]
    acquires := s.acquires ++ [.timeline slot value]
    waits := s.waits ++ [.acquireTimeline (pool.gpu slot) (wire pool.view value)] }

/-- Both slots are allocated before either is recorded. -/
def planForeignPayload (id foreign : ℕ) : Prog Planning Error Unit := do
  let gate ← onCore (Core.slot kernel)
  let fresh ← onCore (Core.slot kernel)
  note fun pool s => { s with
    allocated := s.allocated ++ [gate, fresh]
    held := s.held ++ [gate]
    waits := s.waits ++ [.acquireBinary (pool.gpu gate)]
    acquires := s.acquires ++ [.binary gate]
    actions := s.actions ++ [.foreignGate foreign gate, .rebind id fresh] }

def planWaitPoint (point : SyncPoint) : Prog Planning Error Unit := do
  let sync ← outcome ((← get).core.syncRef point.sync)
  match ← onCore (Core.planWait kernel sync point.value) with
  | .complete => planComplete kernel point.sync sync
  | .binary slot => planBinary kernel point.sync slot
  | .timeline slot value => planTimeline slot value
  | .foreign foreign => planForeignPayload kernel point.sync foreign
  | .shared shared target => do
    let gate ← onCore (Core.slot kernel)
    note (noteGate gate (.sharedGate shared target gate))

/-- The replacement a wait of this batch binds to the payload. -/
def rebound (actions : List BatchAction) (id : ℕ) : Option Slot :=
  actions.reverse.findSome? fun
    | .consume sync _ fresh | .rebind sync fresh => if sync = id then some fresh else none
    | _ => none

/-- A binary payload that a wait of this batch consumed is signalled on its
replacement. -/
def signalPlan (plan : Planning) (id : ℕ) (sync : SyncObj) (value : ℕ) : Result SignalPlan :=
  match rebound plan.scratch.actions id with
  | some fresh => if sync.timeline then plan.core.planSignal sync value else .ok (.binary fresh)
  | none => plan.core.planSignal sync value

def planSignalPoint (point : SyncPoint) : Prog Planning Error Unit := do
  let plan ← get
  let sync ← outcome (plan.core.syncRef point.sync)
  match ← outcome (plan.signalPlan point.sync sync point.value) with
  | .binary slot =>
    note fun pool s => { s with
      held := s.held ++ [slot]
      signals := s.signals ++ [.releaseBinary (pool.gpu slot)]
      actions := s.actions ++ [.signal point.sync point.value slot] }
  | .timeline slot value => do
    outcome (plan.core.pool.checkSplitDistance slot value)
    note fun pool s => { s with
      held := s.held ++ [slot]
      shadows := if pool.view = .split32 then s.shadows ++ [(slot, value)] else s.shadows
      signals := s.signals ++ [.releaseTimeline (pool.gpu slot) (wire pool.view value)]
      actions := s.actions ++ [.signal point.sync value slot] }
  | .replaceForeign => do
    let fresh ← onCore (Core.slot kernel)
    note fun pool s => { s with
      allocated := s.allocated ++ [fresh]
      held := s.held ++ [fresh]
      signals := s.signals ++ [.releaseBinary (pool.gpu fresh)]
      actions := s.actions ++ [.rebind point.sync fresh, .signal point.sync point.value fresh] }
  | .shared shared target => do
    let slot ← onCore (Core.slot kernel)
    note fun pool s => { s with
      allocated := s.allocated ++ [slot]
      held := s.held ++ [slot]
      signals := s.signals ++ [.releaseBinary (pool.gpu slot)]
      actions := s.actions ++ [.sharedPoint shared target slot] }

/-- Phase 1: foreign dependencies, then waits, then signals. -/
def planBatch (waits : List SyncPoint) (foreign : List ℕ)
    (signals : List SyncPoint) : Prog Planning Error Unit := do
  each (planForeign kernel) foreign
  each (planWaitPoint kernel) waits
  each (planSignalPoint kernel) signals

end Planning

structure Bridge where
  core : Core
  queues : List (Option Queue)
  acquires : List (List (ℕ × Acquire))
  exportQueue : Option ℕ
  watcherHost : Bool
  lossHandled : Bool

namespace Bridge

def empty (view : TimelineView) : Bridge := ⟨.empty view, [], [], none, false, false⟩

def onCore {α : Type} (p : Prog Core Error α) : Prog Bridge Error α :=
  focus Bridge.core (fun core bridge => { bridge with core := core }) p

def queueRef (bridge : Bridge) (context : ℕ) : Result Queue :=
  if context = 0 then .error (.contract "unknown RM context")
  else
    match bridge.queues[context - 1]? with
    | some (some queue) => .ok queue
    | _ => .error (.contract "unknown RM context")

def setQueue (bridge : Bridge) (context : ℕ) (queue : Queue) : Bridge :=
  { bridge with queues := bridge.queues.set (context - 1) (some queue) }

/-- Run a program on a queue and the core. -/
def onQueue {α : Type} (context : ℕ) (queue : Queue) (p : Prog QueueCell Error α) :
    Prog Bridge Error α :=
  focus (fun bridge => ⟨bridge.core, queue⟩)
    (fun cell bridge => { bridge with core := cell.core }.setQueue context cell.queue) p

/-- Publish the loss of the device once. -/
def loseLocked : Prog Bridge Error Unit := do
  modify fun bridge => { bridge with core := bridge.core.markLost }
  if (← get).lossHandled then pure ()
  else do
    modify fun bridge => { bridge with
      lossHandled := true
      queues := bridge.queues.map fun queue => queue.map fun queue => { queue with stopped := true } }
    onCore Core.failAll

/-- A failed registration after acceptance loses the device. -/
def orLose (p : Prog Bridge Error Unit) : Prog Bridge Error Unit := do
  match ← attempt p with
  | .ok () => pure ()
  | .error _ => loseLocked

variable (kernel : Kernel)

/-- Read the error notifier of one channel. -/
def checkError (context : ℕ) : Prog Bridge Error Unit := do
  match (← get).queueRef context with
  | .error _ => pure ()
  | .ok queue =>
    if queue.lost then throw (.contract "persistent RM channel is lost")
    else
      match ← attempt (onCore (Core.request kernel.serve)) with
      | .ok () => pure ()
      | .error e => do
        modify fun bridge => bridge.setQueue context queue.markLost
        throw e

/-- The scan of every channel and of the CPU mappings for a loss. -/
def scanLocked : Prog Bridge Error Unit := do
  if (← get).core.lost then do
    loseLocked
    throw (.deviceLost "Mesa RM device lost")
  else
    match ← attempt (each (fun i => checkError kernel (i + 1)) (List.range (← get).queues.length)) with
    | .error e => do
      loseLocked
      throw (.deviceLost e.display)
    | .ok () =>
      match ← attempt (onCore (Core.request kernel.serve)) with
      | .ok () => pure ()
      | .error _ => do
        loseLocked
        throw (.deviceLost "CPU mapping cleanup previously failed")

/-- Deferred frees: a failed unmap loses the device. -/
def reclaim : Prog Bridge Error Unit :=
  orLose (onCore (Core.request kernel.serve))

def ensureWatcherHost : Prog Bridge Error Unit := do
  if (← get).watcherHost then
    modify fun bridge => { bridge with
      core := bridge.core.setWatcher fun w => { w with host := true } }
  else do
    onCore (Core.request kernel.serve)
    modify fun bridge => { bridge with
      watcherHost := true
      core := bridge.core.setWatcher fun w => { w with host := true } }

/-- Append the acquires of a batch and drop those of completed ones. -/
def recordAcquires (bridge : Bridge) (context token : ℕ) (acquires : List Acquire) : Bridge :=
  let index := context - 1
  let kept (list : List (ℕ × Acquire)) : List (ℕ × Acquire) :=
    match bridge.queueRef context with
    | .error _ => list
    | .ok queue =>
      match queue.shared.completed bridge.core.pool with
      | .error _ => list
      | .ok completed => list.dropWhile fun acquire => decide (acquire.1 ≤ completed)
  { bridge with
    acquires := bridge.acquires.modify index fun list =>
      kept list ++ acquires.map fun acquire => (token, acquire) }

def rebindNative (core : Core) (id : ℕ) (fresh : Slot) : Core :=
  match core.syncRef id with
  | .ok sync => core.replace id sync (.native fresh)
  | .error _ => core

def commitSignal (core : Core) (id context token value : ℕ) : Core :=
  match core.syncRef id with
  | .ok sync => core.setSync id (Core.commitSignal sync context token value)
  | .error _ => core

/-- One change after acceptance. -/
def applyAction (context token : ℕ) : BatchAction → Prog Bridge Error Unit
  | .consume sync _ fresh | .rebind sync fresh =>
    modify fun bridge => { bridge with core := rebindNative bridge.core sync fresh }
  | .signal sync value _ =>
    modify fun bridge => { bridge with core := commitSignal bridge.core sync context token value }
  | .foreignGate foreign gate => orLose (onCore (Core.gate kernel foreign gate))
  | .sharedGate shared target gate => orLose do
    ensureWatcherHost kernel
    onCore (Core.sharedGate kernel shared target gate)
  | .sharedPoint shared target point => do
    onCore (Core.addPoint shared target point)
    orLose do
      ensureWatcherHost kernel
      onCore (Core.publish kernel shared)

/-- Run the first phase; the scratch record survives an error. -/
def plan (p : Prog Planning Error Unit) : Prog Bridge Error (Result Unit × Scratch) := do
  let out := exec p ⟨(← get).core, .empty⟩
  modify fun bridge => { bridge with core := out.2.core }
  pure (out.1, out.2.scratch)

/-- A batch from its plan to the queue's answer. -/
def submitLocked (encode : Encoder) (context : ℕ) (pushes : List Push)
    (waits : List SyncPoint) (foreign : List ℕ) (signals : List SyncPoint) :
    Prog Bridge Error (Result SubmitStatus × Scratch) := do
  match (← get).queueRef context with
  | .error e => pure (.error e, .empty)
  | .ok queue => do
    match ← plan (Planning.planBatch kernel waits foreign signals) with
    | (.error e, scratch) => pure (.error e, scratch)
    | (.ok (), scratch) =>
      match ← attempt (onQueue context queue (Queue.submit kernel encode pushes scratch.waits
        scratch.signals scratch.held scratch.shadows)) with
      | .ok status => pure (.ok status, scratch)
      | .error e => do
        loseLocked
        pure (.error (.deviceLost e.display), scratch)

/-- The checks before a batch is looked at, and the frees that are due. -/
def preflight (scan : Bool) : Prog Bridge Error Unit := do
  onCore Core.live
  onlyIf (scan = true) (scanLocked kernel)
  reclaim kernel

/-- Submit a batch. -/
def submit (encode : Encoder) (scan : Bool) (context : ℕ) (pushes : List Push)
    (waits : List SyncPoint) (foreign : List ℕ) (signals : List SyncPoint) :
    Prog Bridge Error SubmitStatus := do
  preflight kernel scan
  match ← submitLocked kernel encode context pushes waits foreign signals with
  | (.ok (.submitted token), scratch) => do
    modify fun bridge => bridge.recordAcquires context token scratch.acquires
    each (applyAction kernel context token) scratch.actions
    pure (.submitted token)
  | (result, scratch) => do
    modify fun bridge => { bridge with core := bridge.core.releaseAll scratch.allocated }
    outcome result

end Bridge

end NvidiaProlapse
