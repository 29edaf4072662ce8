import NvidiaProlapse.DeviceCore

/-!
# Payload handles

The methods of `SyncObj` (syncobj.rs) and the calls of mesa.rs that wrap them.
Every method runs under its handle's lock, so a method is one program. `reset` and
`signal` take a pre-allocated slot and hand it back where it was not needed.
-/
namespace NvidiaProlapse
open Programs

/-- What a GPU wait must encode for one payload. -/
inductive WaitPlan where
  | complete
  | binary (slot : Slot)
  | timeline (slot : Slot) (value : ℕ)
  | foreign (id : ℕ)
  | shared (id target : ℕ)
  deriving DecidableEq, Repr

inductive SignalPlan where
  | binary (slot : Slot)
  | timeline (slot : Slot) (value : ℕ)
  | replaceForeign
  | shared (id target : ℕ)
  deriving DecidableEq, Repr

/-- The pending signal of a payload reserved for a later submission. -/
def reserved : ℕ × ℕ := (0, 0)

/-- `checked_add(1)` of a 64-bit word. -/
def checkedSucc (n : ℕ) : Option ℕ := if n + 1 < 2 ^ 64 then some (n + 1) else none

def exhausted : Error := .contract "binary payload generation exhausted"

namespace Core

variable (core : Core)

/-- The handle behind an id. -/
def syncRef (id : ℕ) : Result SyncObj :=
  if id = 0 then .error (.contract "null synchronization id")
  else
    match core.syncs[id - 1]? with
    | some (some sync) => .ok sync
    | _ => .error (.contract "invalid synchronization id")

def setSync (id : ℕ) (sync : SyncObj) : Core :=
  { core with syncs := core.syncs.set (id - 1) (some sync) }

/-- An owner gives a payload up. -/
def dropPayload : Payload → Core
  | .native slot => core.release slot
  | .foreign _ => core
  | .shared shared => core.dropShared shared

/-- Replace the payload and drop the old one. -/
def replace (id : ℕ) (sync : SyncObj) (payload : Payload) : Core :=
  (core.setSync id { sync with
      state := { sync.state with payload := payload, pending := none, snapshot := none } }).dropPayload
    sync.state.payload

/-- `SyncObj::new` on a fresh slot. -/
def newSync (timeline : Bool) (initial : ℕ) (slot : Slot) : Prog Core Error SyncObj := do
  let pool := (← get).pool
  let pool ← outcome
    (if timeline then pool.initTimeline slot initial
      else if initial ≠ 0 then pool.store32 slot 1 else .ok pool)
  modify fun core => { core with pool := pool }
  pure ⟨timeline, ⟨.native slot, none, if timeline then initial else 0, none⟩⟩

def sharedTarget (sync : SyncObj) (shared value : ℕ) : ℕ :=
  if sync.timeline then value else sync.state.snapshot.getD (core.load shared .target)

variable (kernel : Kernel)

/-- Nonblocking predicate; the flag says whether a broadcast is owed. -/
def ready (id value : ℕ) (pending : Bool) : Prog Core Error (Bool × Bool) := do
  let core ← get
  let sync ← outcome (core.syncRef id)
  match sync.state.payload with
  | .native slot =>
    if sync.timeline then do
      let current ← outcome (core.pool.timelineValue slot)
      pure (decide (value ≤ current) || (pending && decide (value ≤ sync.state.pendingMax)), false)
    else do
      let word ← outcome (core.pool.read32 slot)
      pure (decide (word = 1) || (pending && sync.state.pending.isSome), false)
  | .foreign foreign => do
    let ready ← foreignReady kernel foreign pending
    pure (ready, false)
  | .shared shared => do
    let target := core.sharedTarget sync shared value
    let changed ← refresh shared
    let ready ← outcome ((← get).sharedReady shared target pending)
    pure (ready, changed)

/-- A pending foreign payload that a blocked CPU waiter must watch. -/
def foreignOf (sync : SyncObj) : Option ℕ :=
  match sync.state.payload with
  | .foreign foreign => if core.cached foreign = 0 then some foreign else none
  | _ => none

/-- Timeline value. -/
def value (id : ℕ) : Prog Core Error (ℕ × Bool) := do
  let core ← get
  let sync ← outcome (core.syncRef id)
  match sync.state.payload with
  | .native slot => do
    let current ← outcome (core.pool.timelineValue slot)
    pure (current, false)
  | .shared shared => do
    let changed ← refresh shared
    pure ((← get).load shared .completed, changed)
  | .foreign _ => throw (.contract "sync_file is not a timeline")

/-- Bind a binary payload to the replacement slot. -/
def rebindFresh (id : ℕ) (sync : SyncObj) (fresh : Option Slot) (missing : String) :
    Prog Core Error (Option Slot × Bool) :=
  match fresh with
  | none => throw (.contract missing)
  | some fresh => do
    modify fun core => core.replace id sync (.native fresh)
    pure (none, false)

/-- CPU reset: in place where this payload owns the only reference. -/
def reset (id : ℕ) (fresh : Option Slot) : Prog Core Error (Option Slot × Bool) := do
  let core ← get
  let sync ← outcome (core.syncRef id)
  if sync.timeline then throw (.contract "reset of timeline payload")
  else
    match sync.state.payload with
    | .native slot =>
      if core.pool.refs slot = 1 then do
        let pool ← outcome (core.pool.store32 slot 0)
        modify fun core => { core with pool := pool }.setSync id
          { sync with state := { sync.state with pending := none } }
        pure (fresh, false)
      else rebindFresh id sync fresh "binary reset needs a replacement slot"
    | .shared shared =>
      match checkedSucc (core.load shared .target) with
      | none => throw exhausted
      | some target => do
        let changed ← store shared .target target
        modify fun core => core.setSync id
          { sync with state := { sync.state with snapshot := none } }
        pure (fresh, changed)
    | .foreign _ => rebindFresh id sync fresh "binary reset needs a replacement slot"

/-- Whether `reset` or `signal` may need a replacement slot. -/
def needsFreshSlot (sync : SyncObj) : Bool :=
  match sync.state.payload with
  | .native slot => core.pool.refs slot ≠ 1
  | .foreign _ => true
  | .shared _ => false

/-- CPU signal: a captured slot or a foreign payload is replaced, never written. -/
def signal (id value : ℕ) (fresh : Option Slot) : Prog Core Error (Option Slot × Bool) := do
  let core ← get
  let sync ← outcome (core.syncRef id)
  match sync.state.payload with
  | .native slot =>
    if sync.timeline then do
      let (_, pool) ← outcome (core.pool.hostSignal slot value)
      modify fun core => { core with pool := pool }.setSync id
        { sync with state := { sync.state with pendingMax := max sync.state.pendingMax value } }
      pure (fresh, false)
    else if core.pool.refs slot = 1 then do
      let pool ← outcome (core.pool.store32 slot 1)
      modify fun core => { core with pool := pool }
      pure (fresh, false)
    else signalFresh sync fresh
  | .shared shared => do
    let target := core.sharedTarget sync shared value
    let raised ← maximum shared .pending target
    let changed ← maximum shared .completed target
    pure (fresh, raised || changed)
  | .foreign _ => signalFresh sync fresh
where
  /-- The replacement is signalled before it is bound. -/
  signalFresh (sync : SyncObj) (fresh : Option Slot) : Prog Core Error (Option Slot × Bool) :=
    match fresh with
    | none => throw (.contract "binary signal needs a replacement slot")
    | some slot =>
      if sync.timeline then throw (.contract "cannot CPU-signal imported sync_file")
      else do
        let pool ← outcome ((← get).pool.store32 slot 1)
        modify fun core => { core with pool := pool }
        rebindFresh id sync (some slot) "binary signal needs a replacement slot"

/-! ## GPU waits and signals -/

/-- Plan a GPU wait; nothing is bound until the batch is accepted. -/
def planWait (sync : SyncObj) (value : ℕ) : Prog Core Error WaitPlan := do
  let core ← get
  match sync.state.payload with
  | .native slot =>
    if sync.timeline then do
      let current ← outcome (core.pool.timelineValue slot)
      if value ≤ current then pure .complete
      else do
        outcome (core.pool.checkSplitDistance slot value)
        pure (.timeline slot value)
    else pure (.binary slot)
  | .foreign foreign => do
    if ← foreignReady kernel foreign false then pure .complete else pure (.foreign foreign)
  | .shared shared => do
    let target := core.sharedTarget sync shared value
    let _ ← refresh shared
    let ready ← outcome ((← get).sharedReady shared target false)
    if ready then pure .complete else pure (.shared shared target)

/-- Whether a GPU wait unsignals the payload. -/
def waitConsumes (sync : SyncObj) : Bool :=
  !sync.timeline &&
    match sync.state.payload with
    | .native _ | .foreign _ => true
    | .shared _ => false

/-- The generation a signal of a shared binary payload completes. -/
def nextGeneration (shared : ℕ) : Result ℕ :=
  let target := core.load shared .target
  if target ≤ core.load shared .pending then
    match checkedSucc target with
    | none => .error exhausted
    | some next => .ok next
  else .ok target

/-- GPU signal target. -/
def planSignal (sync : SyncObj) (value : ℕ) : Result SignalPlan :=
  match sync.state.payload with
  | .native slot => .ok (if sync.timeline then .timeline slot value else .binary slot)
  | .foreign _ => .ok .replaceForeign
  | .shared shared =>
    if sync.timeline then .ok (.shared shared value)
    else
      match sync.state.snapshot with
      | some reserved => .ok (.shared shared reserved)
      | none =>
        match core.nextGeneration shared with
        | .error e => .error e
        | .ok target => .ok (.shared shared target)

def commitSignal (sync : SyncObj) (context token value : ℕ) : SyncObj :=
  match sync.state.payload with
  | .native _ =>
    if sync.timeline then
      { sync with state := { sync.state with pendingMax := max sync.state.pendingMax value } }
    else { sync with state := { sync.state with pending := some (context, token) } }
  | _ => sync

/-! ## Reservations, exports, imports and moves -/

/-- A signal of the payload is pending or has happened. -/
def signaledOrPending (sync : SyncObj) (slot : Slot) : Result Bool :=
  if sync.state.pending.isSome then .ok true
  else (core.pool.read32 slot).map fun word => decide (word = 1)

/-- Bind a deferred binary signal to the current slot or generation of `src`. -/
def reserveInto (src dst : ℕ) : Prog Core Error (Bool × Bool) := do
  let core ← get
  let sync ← outcome (core.syncRef src)
  let target ← outcome (core.syncRef dst)
  if sync.timeline || target.timeline || src = dst then
    throw (.contract "invalid binary signal reservation")
  else
    match sync.state.payload with
    | .native slot => do
      let signaled ← outcome (core.signaledOrPending sync slot)
      if signaled then pure (false, false)
      else do
        modify fun core =>
          (((core.retain slot).setSync src
            { sync with state := { sync.state with pending := some reserved } })).replace dst target
            (.native slot)
        pure (true, false)
    | .shared shared => do
      let generation ← outcome (core.nextGeneration shared)
      let changed ← maximum shared .target generation
      let raised ← maximum shared .pending generation
      modify fun core =>
        (core.setSync dst { target with
          state := { target.state with
            payload := .shared shared, pending := none, snapshot := some generation } }).dropPayload
          target.state.payload
      pure (true, changed || raised)
    | .foreign _ => pure (false, false)

/-- A new memory file and its shared payload, named by their positions. -/
def createShared (timeline : Bool) (completed pending : ℕ) :
    Prog Core Error ℕ := do
  request kernel.serve
  let core ← get
  let memory : SyncMemory := fun
    | .completed => completed
    | .pending => pending
    | .target => 1
    | .error => 0
    | .kind => if timeline then 1 else 0
    | .header => sharedMagic
  modify fun core => { core with
    memories := core.memories ++ [memory]
    shareds := core.shareds ++ [⟨core.memories.length, timeline, [], []⟩] }
  pure core.shareds.length

/-- Opaque export: the slot of a local payload with an unfinished signal moves to
the shared payload, otherwise it is released. -/
def share (id : ℕ) : Prog Core Error ℕ := do
  let core ← get
  let sync ← outcome (core.syncRef id)
  match sync.state.payload with
  | .shared shared => pure shared
  | .foreign _ => throw (.contract "sync_file payload cannot be exported as opaque payload")
  | .native slot =>
    if sync.timeline then do
      let completed ← outcome (core.pool.timelineValue slot)
      let pending := max sync.state.pendingMax completed
      let shared ← createShared kernel true completed pending
      modify fun core =>
        if completed < pending then
          (core.setShared shared { core.sharedAt shared with
            sources := [(slot, pending)] }).setSync id (shareState sync shared)
        else (core.setSync id (shareState sync shared)).release slot
      pure shared
    else do
      let word ← outcome (core.pool.read32 slot)
      let signaled := decide (word = 1)
      let pending := sync.state.pending.isSome
      let shared ← createShared kernel false (if signaled then 1 else 0)
        (if signaled || pending then 1 else 0)
      modify fun core =>
        if !signaled && pending then
          (core.setShared shared { core.sharedAt shared with
            points := [(1, slot)] }).setSync id (shareState sync shared)
        else (core.setSync id (shareState sync shared)).release slot
      pure shared
where
  shareState (sync : SyncObj) (shared : ℕ) : SyncObj :=
    { sync with
      state := { sync.state with payload := .shared shared, pending := none, snapshot := none } }

/-- `memory` is the file behind the descriptor, or why it could not be mapped. The
file is checked before the payload is replaced. -/
def importOpaque (id : ℕ) (memory : Result ℕ) : Prog Core Error Unit := do
  let sync ← outcome ((← get).syncRef id)
  let memory ← outcome memory
  let words := (← get).memories.getD memory fun _ => 0
  if words .header ≠ sharedMagic ∨ words .kind ≠ (if sync.timeline then 1 else 0) then
    throw (.contract "opaque synchronization payload format/type mismatch")
  else
    modify fun core =>
      ({ core with shareds := core.shareds ++ [⟨memory, sync.timeline, [], []⟩] } : Core).replace id
        sync (.shared core.shareds.length)

def importSyncFile (id : ℕ) : Prog Core Error Unit := do
  let sync ← outcome ((← get).syncRef id)
  if sync.timeline then throw (.contract "SYNC_FD timeline import is invalid")
  else do
    let status ← request kernel.status
    request kernel.serve
    modify fun core =>
      ({ core with foreigns := core.foreigns ++ [⟨status⟩] } : Core).replace id sync
        (.foreign core.foreigns.length)

/-- The payload leaves the handle, which gets the fresh slot; a shared payload stays
with both and the handle advances its generation. -/
def takeForMove (id : ℕ) (fresh : Slot) : Prog Core Error (SyncState × Bool) := do
  let core ← get
  let sync ← outcome (core.syncRef id)
  if sync.timeline then throw (.contract "invalid timeline sync move")
  else
    match sync.state.payload with
    | .shared shared =>
      match checkedSucc (core.load shared .target) with
      | none => throw exhausted
      | some next => do
        let generation := sync.state.snapshot.getD (core.load shared .target)
        let changed ← store shared .target next
        modify fun core =>
          (core.setSync id { sync with state := { sync.state with snapshot := none } }).release fresh
        pure (⟨.shared shared, none, 0, some generation⟩, changed)
    | _ => do
      modify fun core => core.setSync id { sync with state := ⟨.native fresh, none, 0, none⟩ }
      pure (sync.state, false)

def installMoved (id : ℕ) (sync : SyncObj) (moved : SyncState) : Core :=
  (core.setSync id { sync with state := moved }).dropPayload sync.state.payload

/-! ## Calls -/

def syncCreate (timeline : Bool) (initial : ℕ) : Prog Core Error ℕ := do
  live
  let slot ← slot kernel
  match ← attempt (newSync timeline initial slot) with
  | .ok sync => do
    modify fun core => { core with syncs := core.syncs ++ [some sync] }
    pure (← get).syncs.length
  | .error e => do
    modify fun core => core.release slot
    throw e

def syncDestroy (id : ℕ) : Prog Core Error Unit := do
  let sync ← outcome ((← get).syncRef id)
  modify fun core =>
    { core with syncs := core.syncs.set (id - 1) none }.dropPayload sync.state.payload

def needsSlot : Error → Bool
  | .contract message => "needs a replacement slot".toList.isSuffixOf message.toList
  | _ => false

/-- Run `reset` or `signal`, release a slot it hands back, and allocate one where it
asks for it. It never asks twice. -/
def withReplacement (method : Option Slot → Prog Core Error (Option Slot × Bool))
    (fresh : Option Slot) : Prog Core Error Unit := do
  match ← attempt (method fresh) with
  | .ok (unused, _) => modify fun core => core.releaseAll unused.toList
  | .error e =>
    if needsSlot e then do
      let fresh ← slot kernel
      let (unused, _) ← method (some fresh)
      modify fun core => core.releaseAll unused.toList
    else throw e

def slotIf (needed : Bool) : Prog Core Error (Option Slot) :=
  if needed then do
    let fresh ← slot kernel
    pure (some fresh)
  else pure none

def syncReset (id : ℕ) : Prog Core Error Unit := do
  live
  let core ← get
  let sync ← outcome (core.syncRef id)
  let fresh ← slotIf kernel (core.needsFreshSlot sync)
  withReplacement kernel (reset id) fresh

def syncSignal (id value : ℕ) : Prog Core Error Unit := do
  live
  let core ← get
  let sync ← outcome (core.syncRef id)
  let fresh ← slotIf kernel (!sync.timeline && core.needsFreshSlot sync)
  withReplacement kernel (signal id value) fresh

def syncMove (dst src : ℕ) : Prog Core Error Unit := do
  live
  if src = dst then throw (.contract "invalid binary sync move")
  else do
    let source ← outcome ((← get).syncRef src)
    let target ← outcome ((← get).syncRef dst)
    if source.timeline || target.timeline then throw (.contract "invalid binary sync move")
    else do
      let fresh ← slot kernel
      match ← attempt (takeForMove src fresh) with
      | .ok (moved, _) => modify fun core => core.installMoved dst target moved
      | .error e => do
        modify fun core => core.release fresh
        throw e

def syncReserve (dst src : ℕ) : Prog Core Error Bool := do
  live
  if src = dst then throw (.contract "invalid binary signal reservation")
  else do
    let (done, _) ← reserveInto src dst
    pure done

end Core

end NvidiaProlapse
