import NvidiaProlapse.Bridge

/-!
# Calls of a device and their runs

Exports, contexts and the calls that the C side, the watcher thread, the GPU and
other processes make, as one step function. A call that fails is a step too: its
changes stay.
-/
namespace NvidiaProlapse.Bridge
open Programs Gpfifo

variable (kernel : Kernel)

/-- Opaque export; unfinished local signals are given to the watcher. -/
def exportOpaque (id : ℕ) : Prog Bridge Error Unit := do
  onCore Core.live
  let shared ← onCore (Core.share kernel id)
  if (← get).core.hasLocalWork shared then do
    ensureWatcherHost kernel
    onCore (Core.publish kernel shared)
    onCore (Core.request kernel.serve)
  else onCore (Core.request kernel.serve)

/-- `share` is the context whose channel group the new one joins. -/
def createContext (native64 : Bool) (tailGpu : ℕ) (share : Option ℕ) :
    Prog Bridge Error ℕ := do
  let retire ← onCore (Core.slot kernel)
  let bridge ← get
  let group : Result Unit :=
    match share with
    | none => .ok ()
    | some share => (bridge.queueRef share).map fun _ => ()
  match ← attempt (do outcome group; onCore (Core.request kernel.serve)) with
  | .ok () => do
    modify fun bridge => { bridge with
      queues := bridge.queues ++ [some (Queue.new retire native64 tailGpu)]
      acquires := bridge.acquires ++ [[]] }
    pure (← get).queues.length
  | .error e => do
    modify fun bridge => { bridge with core := bridge.core.release retire }
    throw e

/-- The context that acquires exported payloads. -/
def exportContext (native64 : Bool) (tailGpu : ℕ) : Prog Bridge Error ℕ := do
  match (← get).exportQueue with
  | some context => pure context
  | none => do
    let context ← createContext kernel native64 tailGpu none
    modify fun bridge => { bridge with exportQueue := some context }
    pure context

/-- What a SYNC_FD export hands out. -/
inductive Export where
  | done
  | fence (context token : ℕ)
  | gate (shared target : ℕ)
  | slot (slot : Slot)
  deriving DecidableEq, Repr

def capacityExhausted : Error := .io "external fence export capacity exhausted"

/-- A reserved slot is retained for the export. -/
def planExport (sync : SyncObj) : Prog Core Error Export := do
  let core ← get
  match sync.state.payload with
  | .foreign _ => do
    Core.request kernel.serve
    pure .done
  | .native slot => do
    let word ← outcome (core.pool.read32 slot)
    if word = 1 then pure .done
    else
      match sync.state.pending with
      | none => throw (.contract "SYNC_FD export without a submitted signal operation")
      | some pending =>
        if pending = reserved then do
          modify fun core => core.retain slot
          pure (.slot slot)
        else pure (.fence pending.1 pending.2)
  | .shared shared => do
    let target := sync.state.snapshot.getD (core.load shared .target)
    let _ ← Core.refresh shared
    let core ← get
    if target ≤ core.load shared .completed then pure .done
    else if core.failed shared then throw (.deviceLost "shared synchronization producer failed")
    else pure (.gate shared target)

/-- The completion fence of a batch. -/
def contextFence (context token : ℕ) : Prog Bridge Error Unit := do
  let queue ← outcome ((← get).queueRef context)
  if queue.lost ∨ token = 0 ∨ queue.ledger.sequence < token then
    throw (.contract "invalid/lost RM completion token")
  else onCore (Core.request kernel.serve)

/-- A batch of the export queue that acquires one slot. -/
def submitAcquire (encode : Encoder) (context : ℕ) (slot : Slot) :
    Prog Bridge Error SubmitStatus := do
  let bridge ← get
  let queue ← outcome (bridge.queueRef context)
  onQueue context queue (Queue.submit kernel encode [] [.acquireBinary (bridge.core.pool.gpu slot)]
    [] [slot] [])

/-- The export batch acquires the reserved slot itself. -/
def exportSlot (encode : Encoder) (native64 : Bool) (tailGpu : ℕ) (slot : Slot) :
    Prog Bridge Error Unit := do
  match ← attempt (exportContext kernel native64 tailGpu) with
  | .error e => do
    modify fun bridge => { bridge with core := bridge.core.release slot }
    throw e
  | .ok context => do
    let status ← attempt (submitAcquire kernel encode context slot)
    modify fun bridge => { bridge with core := bridge.core.release slot }
    match status with
    | .error e => throw e
    | .ok (.full _) => throw capacityExhausted
    | .ok (.submitted token) => do
      modify fun bridge => bridge.recordAcquires context token [.binary slot]
      contextFence kernel context token

/-- The export batch waits on a gate that the watcher opens. -/
def exportGate (encode : Encoder) (native64 : Bool) (tailGpu : ℕ)
    (shared target : ℕ) : Prog Bridge Error Unit := do
  let context ← exportContext kernel native64 tailGpu
  let gate ← onCore (Core.slot kernel)
  match ← attempt (submitAcquire kernel encode context gate) with
  | .error e => do
    modify fun bridge => { bridge with core := bridge.core.release gate }
    throw e
  | .ok (.full _) => do
    modify fun bridge => { bridge with core := bridge.core.release gate }
    throw capacityExhausted
  | .ok (.submitted token) => do
    modify fun bridge => bridge.recordAcquires context token [.binary gate]
    match ← attempt (ensureWatcherHost kernel) with
    | .error e => do
      modify fun bridge => { bridge with core := bridge.core.release gate }
      loseLocked
      throw e
    | .ok () =>
      match ← attempt (onCore (Core.sharedGate kernel shared target gate)) with
      | .error e => do
        loseLocked
        throw e
      | .ok () => contextFence kernel context token

def exportSyncFile (encode : Encoder) (native64 : Bool) (tailGpu id : ℕ) :
    Prog Bridge Error Unit := do
  let sync ← outcome ((← get).core.syncRef id)
  if sync.timeline then throw (.contract "timeline SYNC_FD export is invalid")
  else do
    onCore Core.live
    match ← onCore (planExport kernel sync) with
    | .done => pure ()
    | .fence context token => contextFence kernel context token
    | .slot slot => exportSlot kernel encode native64 tailGpu slot
    | .gate shared target => exportGate kernel encode native64 tailGpu shared target

/-! ## Destruction of a context -/

/-- Satisfy the acquires of a lost context, so that its channel runs out. -/
def unblockAcquire (completed : ℕ) (pool : SlotPool) (acquire : ℕ × Acquire) : SlotPool :=
  if acquire.1 ≤ completed then pool
  else
    match acquire.2 with
    | .binary slot =>
      match pool.store32 slot 1 with
      | .ok pool => pool
      | .error _ => pool
    | .timeline slot value =>
      match pool.hostSignal slot value with
      | .ok (_, pool) => pool
      | .error _ => pool

def unblockLocked (bridge : Bridge) (context : ℕ) : Bridge :=
  match bridge.queueRef context with
  | .error _ => bridge
  | .ok queue =>
    let completed :=
      match queue.shared.completed bridge.core.pool with
      | .ok completed => completed
      | .error _ => 0
    { bridge with
      core := { bridge.core with
        pool := (bridge.acquires.getD (context - 1) []).foldl (unblockAcquire completed)
          bridge.core.pool }
      acquires := bridge.acquires.set (context - 1) [] }

/-- A dropped queue gives up its retirement word and the slots of its batches. -/
def dropQueue (bridge : Bridge) (context : ℕ) (queue : Queue) : Bridge :=
  { bridge with
    core := (bridge.core.release queue.shared.retire).releaseAll (queue.held.map Prod.snd)
    queues := bridge.queues.set (context - 1) none
    acquires := bridge.acquires.set (context - 1) [] }

/-- `retired` says whether the last token of the context retired in time. -/
def destroyContext (context : ℕ) (retired : Bool) : Prog Bridge Error Unit := do
  let _ ← outcome ((← get).queueRef context)
  onlyIf (retired = false) do
    loseLocked
    modify fun bridge => bridge.unblockLocked context
  let queue ← outcome ((← get).queueRef context)
  modify fun bridge => bridge.dropQueue context queue
  reclaim kernel

/-! ## Runs -/

/-- What the C side calls, and what the watcher, the GPU and other processes do. -/
inductive Call where
  | syncCreate (timeline : Bool) (initial : ℕ)
  | syncDestroy (id : ℕ)
  | syncReset (id : ℕ)
  | syncSignal (id value : ℕ)
  | syncMove (dst src : ℕ)
  | syncReserve (dst src : ℕ)
  | ready (id value : ℕ) (pending : Bool)
  | value (id : ℕ)
  | watch (id : ℕ)
  | importOpaque (id : ℕ) (memory : Result ℕ)
  | importSyncFile (id : ℕ)
  | exportOpaque (id : ℕ)
  | exportSyncFile (id : ℕ)
  | retainForeign
  | submit (scan : Bool) (context : ℕ) (pushes : List Push) (waits : List SyncPoint)
      (foreign : List ℕ) (signals : List SyncPoint)
  | createContext (share : Option ℕ)
  | destroyContext (context : ℕ) (retired : Bool)
  | service (readable : ℕ → Bool) (event : Bool)
  | markLost
  | gpuWrite32 (slot : Slot) (value : ℕ)
  | gpuWrite64 (slot : Slot) (value : ℕ)
  | peerFile (memory : SyncMemory)
  | peerWrite (memory : ℕ) (words : SyncMemory)

/-- The host side of a device: its answers, its encoder, the width of its completion
surface and the address of its command slots. -/
structure Host where
  kernel : Kernel
  encode : Encoder
  native64 : Bool
  tailGpu : ℕ

/-- A CPU wait registers a pending sync_file with the watcher. -/
def watch (id : ℕ) : Prog Core Error Unit := do
  let core ← get
  let sync ← outcome (core.syncRef id)
  match core.foreignOf sync with
  | some foreign => Core.watchCpu kernel foreign
  | none => pure ()

/-- A dependency of a submission is a new foreign object. -/
def retainForeign : Prog Core Error Unit := do
  let status ← Core.request kernel.status
  modify fun core => { core with foreigns := core.foreigns ++ [⟨status⟩] }

def perform (host : Host) : Call → Prog Bridge Error Unit
  | .syncCreate timeline initial => onCore (ignore (Core.syncCreate host.kernel timeline initial))
  | .syncDestroy id => onCore (Core.syncDestroy id)
  | .syncReset id => onCore (Core.syncReset host.kernel id)
  | .syncSignal id value => onCore (Core.syncSignal host.kernel id value)
  | .syncMove dst src => onCore (Core.syncMove host.kernel dst src)
  | .syncReserve dst src => onCore (ignore (Core.syncReserve dst src))
  | .ready id value pending => onCore (ignore (Core.ready host.kernel id value pending))
  | .value id => onCore (ignore (Core.value id))
  | .watch id => onCore (watch host.kernel id)
  | .importOpaque id memory => onCore do
    Core.live
    Core.importOpaque id memory
  | .importSyncFile id => onCore do
    Core.live
    Core.importSyncFile host.kernel id
  | .exportOpaque id => exportOpaque host.kernel id
  | .exportSyncFile id => do
    onCore Core.live
    exportSyncFile host.kernel host.encode host.native64 host.tailGpu id
  | .retainForeign => onCore (retainForeign host.kernel)
  | .submit scan context pushes waits foreign signals =>
    ignore (submit host.kernel host.encode scan context pushes waits foreign signals)
  | .createContext share => do
    onCore Core.live
    ignore (createContext host.kernel host.native64 host.tailGpu share)
  | .destroyContext context retired => destroyContext host.kernel context retired
  | .service readable event => onCore (Core.service host.kernel readable event)
  | .markLost => onCore (modify Core.markLost)
  | .gpuWrite32 slot value =>
    onCore (modify fun core => { core with pool := core.pool.gpuWrite32 slot value })
  | .gpuWrite64 slot value =>
    onCore (modify fun core => { core with pool := core.pool.gpuWrite64 slot value })
  | .peerFile memory =>
    onCore (modify fun core => { core with memories := core.memories ++ [memory] })
  | .peerWrite memory words =>
    onCore (modify fun core => { core with memories := core.memories.set memory words })

def step (host : Host) (bridge : Bridge) (call : Call) : Option Bridge :=
  some (exec (perform host call) bridge).2

/-- A device as `Bridge::new` leaves it: with the first page of the slot pool. -/
def opened (view : TimelineView) : Result Bridge :=
  match exec (onCore (Core.grow kernel)) (.empty view) with
  | (.ok (), bridge) => .ok bridge
  | (.error e, _) => .error e

end NvidiaProlapse.Bridge
