import NvidiaProlapse.Programs
import NvidiaProlapse.SlotPool

/-!
# The state behind synchronization payloads

Payload handles, shared and foreign payload objects, the watcher's registrations
and the slot pool, as syncobj.rs, watcher.rs and `Core` of mesa.rs keep them. A
handle, a shared payload, a foreign payload and a shared memory file are named by
their position in a table. A shared payload is alive while a handle or the watcher
names it. Requests to the operating system are numbered, and `Kernel` gives the
answer to each.
-/
namespace NvidiaProlapse
open Programs

/-- An imported sync_file: its terminal status, zero while it is pending. -/
structure Foreign where
  terminal : ℤ
  deriving DecidableEq, Repr

/-- The 64-bit words of a shared memory file. -/
inductive Word where
  | completed
  | pending
  | target
  | header
  | kind
  | error
  deriving DecidableEq, Repr

abbrev SyncMemory := Word → ℕ

/-- An OPAQUE_FD payload and its local GPU signals still to be published: the slot
that stands for each target, in increasing order, and converted timeline slots with
the last value submitted to them. -/
structure Shared where
  memory : ℕ
  timeline : Bool
  points : List (ℕ × Slot)
  sources : List (Slot × ℕ)
  deriving DecidableEq, Repr

inductive Payload where
  | native (slot : Slot)
  | foreign (id : ℕ)
  | shared (id : ℕ)
  deriving DecidableEq, Repr

structure SyncState where
  payload : Payload
  pending : Option (ℕ × ℕ)
  pendingMax : ℕ
  snapshot : Option ℕ
  deriving DecidableEq, Repr

structure SyncObj where
  timeline : Bool
  state : SyncState
  deriving DecidableEq, Repr

/-- `gates` and `sharedGates` name what a gate slot waits for and own one reference
to the slot. -/
structure Watcher where
  started : Bool
  stop : Bool
  gates : List (ℕ × Slot)
  waits : List ℕ
  publish : List ℕ
  sharedGates : List (ℕ × ℕ × Slot)
  host : Bool
  deriving DecidableEq, Repr

/-- `taken` is the history of allocations: how often each slot was allocated. -/
structure Core where
  pool : SlotPool
  taken : Slot → ℕ
  memories : List SyncMemory
  shareds : List Shared
  foreigns : List Foreign
  syncs : List (Option SyncObj)
  watcher : Watcher
  lost : Bool
  requests : ℕ

/-- Answers to the numbered requests: the addresses of a mapped pool page, the
status of a sync_file, the public completion value of a queue, and whether a request
of which only success matters was served. -/
structure Kernel where
  page : ℕ → Result (ℕ × ℕ)
  status : ℕ → Result ℤ
  completion : ℕ → Result ℕ
  serve : ℕ → Result Unit

namespace Core

def empty (view : TimelineView) : Core where
  pool := .new view
  taken := fun _ => 0
  memories := []
  shareds := []
  foreigns := []
  syncs := []
  watcher := ⟨false, false, [], [], [], [], false⟩
  lost := false
  requests := 0

/-- Ask for one answer. -/
def request {α : Type} (answer : ℕ → Result α) : Prog Core Error α := do
  let core ← get
  modify fun core => { core with requests := core.requests + 1 }
  outcome (answer core.requests)

def live : Prog Core Error Unit := do
  if (← get).lost then throw (.deviceLost "Mesa RM device lost") else pure ()

variable (core : Core)

def markLost : Core := { core with lost := true }

/-! ## Slots -/

def release (slot : Slot) : Core := { core with pool := core.pool.release slot }

def retain (slot : Slot) : Core := { core with pool := core.pool.retain slot }

def releaseAll (slots : List Slot) : Core := slots.foldl release core

/-- Map one more page below the heap of the caller. -/
def grow (kernel : Kernel) : Prog Core Error Unit := do
  if (← get).pool.nextPage = none then
    throw (.contract "semaphore slot pool exhausted (1M live slots)")
  else do
    let (cpu, gpu) ← request kernel.page
    if 2 ^ 34 ≤ gpu + SlotPool.pageBytes then
      throw (.contract "GPU semaphore pool collides with Mesa VA heap")
    else do
      let pool ← outcome ((← get).pool.installPage cpu gpu)
      modify fun core => { core with pool := pool }

/-- Pop a free slot. -/
def tryAllocate : Prog Core Error (Option Slot) := do
  match (← get).pool.tryAllocate with
  | none => pure none
  | some (slot, pool) => do
    modify fun core => { core with
      pool := pool
      taken := Function.update core.taken slot (core.taken slot + 1) }
    pure (some slot)

/-- Allocate a slot, growing the pool where it has none. A grown pool has a free
slot, so the loop of the source ends in its second round. -/
def slot (kernel : Kernel) : Prog Core Error Slot := do
  match ← tryAllocate with
  | some slot => pure slot
  | none => do
    grow kernel
    match ← tryAllocate with
    | some slot => pure slot
    | none => throw (.contract "semaphore slot pool exhausted (1M live slots)")

/-! ## Foreign payloads -/

def cached (foreign : ℕ) : ℤ := ((core.foreigns[foreign]?).map Foreign.terminal).getD 0

/-- Terminal status; the kernel is asked only while it is pending. -/
def foreignStatus (kernel : Kernel) (foreign : ℕ) : Prog Core Error ℤ := do
  let cached := (← get).cached foreign
  if cached ≠ 0 then pure cached
  else do
    let status ← request kernel.status
    if status ≠ 0 then do
      modify fun core => { core with foreigns := core.foreigns.set foreign ⟨status⟩ }
      pure status
    else pure status

/-- A producer error is never reported as success. -/
def foreignReady (kernel : Kernel) (foreign : ℕ) (pending : Bool) : Prog Core Error Bool := do
  let status ← foreignStatus kernel foreign
  if status < 0 then throw (.deviceLost s!"imported sync_file producer error {status}")
  else pure (pending || decide (0 < status))

/-! ## Shared payloads -/

/-- The magic number of a shared memory file. -/
def sharedMagic : ℕ := 0x4e56524d53594e01

def sharedAt (shared : ℕ) : Shared := core.shareds.getD shared ⟨0, false, [], []⟩

def load (shared : ℕ) (word : Word) : ℕ :=
  core.memories.getD (core.sharedAt shared).memory (fun _ => 0) word

def setWord (shared : ℕ) (word : Word) (value : ℕ) : Core :=
  let memory := (core.sharedAt shared).memory
  { core with
    memories := core.memories.modify memory fun words => Function.update words word value }

/-- Raise a word; true only for an actual change. -/
def maximum (shared : ℕ) (word : Word) (value : ℕ) : Prog Core Error Bool := do
  let previous := (← get).load shared word
  modify fun core => core.setWord shared word (max previous value)
  pure (decide (previous < value))

def store (shared : ℕ) (word : Word) (value : ℕ) : Prog Core Error Bool := do
  let previous := (← get).load shared word
  modify fun core => core.setWord shared word value
  pure (decide (previous ≠ value))

def setShared (shared : ℕ) (object : Shared) : Core :=
  { core with shareds := core.shareds.set shared object }

/-- The largest target or value that the local slots show as completed. -/
def published (pool : SlotPool) (object : Shared) (completed : ℕ) : Result ℕ := do
  let completed ← object.points.foldlM (fun completed point => do
    let word ← pool.read32 point.2
    pure (if word = 1 then max completed point.1 else completed)) completed
  object.sources.foldlM (fun completed source => do
    let value ← pool.timelineValue source.1
    pure (max completed value)) completed

/-- Publish completed local signals and drop their slots. -/
def refresh (shared : ℕ) : Prog Core Error Bool := do
  let core ← get
  let object := core.sharedAt shared
  let completed ← outcome (published core.pool object (core.load shared .completed))
  let changed ← maximum shared .completed completed
  let completed := (← get).load shared .completed
  modify fun core =>
    ((core.setShared shared { object with
        points := object.points.filter fun point => decide (completed < point.1)
        sources := object.sources.filter fun source => decide (completed < source.2) }).releaseAll
      ((object.points.filter fun point => !decide (completed < point.1)).map Prod.snd)).releaseAll
      ((object.sources.filter fun source => !decide (completed < source.2)).map Prod.fst)
  pure changed

def hasLocalWork (shared : ℕ) : Bool :=
  !(core.sharedAt shared).points.isEmpty || !(core.sharedAt shared).sources.isEmpty

def failed (shared : ℕ) : Bool := core.load shared .error ≠ 0

/-- Completed values stay completed, unfinished points become errors. -/
def fail (shared : ℕ) : Prog Core Error Bool := do
  let _ ← attempt (refresh shared)
  store shared .error 1

def sharedReady (shared target : ℕ) (pending : Bool) : Result Bool :=
  if target ≤ core.load shared .completed then .ok true
  else if core.failed shared then .error (.deviceLost "shared synchronization producer failed")
  else .ok (pending && decide (target ≤ core.load shared .pending))

/-- Insert the slot that stands for a target; the one it replaces is returned. -/
def insertPoint (target : ℕ) (point : Slot) : List (ℕ × Slot) → List (ℕ × Slot) × Option Slot
  | [] => ([(target, point)], none)
  | (t, slot) :: rest =>
    if target < t then ((target, point) :: (t, slot) :: rest, none)
    else if target = t then ((target, point) :: rest, some slot)
    else ((t, slot) :: (insertPoint target point rest).1, (insertPoint target point rest).2)

/-- Record the slot of an accepted GPU signal. -/
def addPoint (shared target : ℕ) (point : Slot) : Prog Core Error Unit := do
  let object := (← get).sharedAt shared
  onlyIf (object.timeline = false) (ignore (maximum shared .target target))
  modify fun core =>
    (core.setShared shared { object with
        points := (insertPoint target point object.points).1 }).releaseAll
      (insertPoint target point object.points).2.toList
  ignore (maximum shared .pending target)

/-- A handle, a publication or a gate names the shared payload. -/
def holds (shared : ℕ) : Bool :=
  core.syncs.any (fun sync => sync.any fun sync => sync.state.payload = .shared shared) ||
    core.watcher.publish.contains shared ||
    core.watcher.sharedGates.any (fun gate => gate.1 = shared)

/-- One holder of a shared payload is gone; the last one drops its local slots. -/
def dropShared (shared : ℕ) : Core :=
  if core.holds shared then core
  else
    let object := core.sharedAt shared
    ((core.setShared shared { object with points := [], sources := [] }).releaseAll
      (object.points.map Prod.snd)).releaseAll (object.sources.map Prod.fst)

end Core

end NvidiaProlapse
