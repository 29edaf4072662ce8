import NvidiaProlapse.QueueCompletion
import NvidiaProlapse.Watcher

/-!
# Submission of one batch to a queue

`Queue::submit` of gpu.rs with every point at which it can stop. The batch is
accepted with the ledger's commit; from there on its `held` slots are owned by the
queue until their token retires or the queue is dropped. `encode` gives the lengths
of the encoded methods of a batch.
-/
namespace NvidiaProlapse
open Programs Gpfifo

/-- A semaphore operation on a GPU address. -/
inductive SemaphoreOp where
  | acquireBinary (address : ℕ)
  | acquireTimeline (address value : ℕ)
  | releaseBinary (address : ℕ)
  | releaseTimeline (address value : ℕ)
  deriving DecidableEq, Repr

abbrev Encoder := List SemaphoreOp → List SemaphoreOp → Result Encoded

inductive SubmitStatus where
  | submitted (token : ℕ)
  | full (oldest : ℕ)
  deriving DecidableEq, Repr

/-- `held` are the slots owned by accepted batches, oldest first, with their tokens. -/
structure Queue where
  shared : QueueShared
  ledger : SubmissionLedger
  ring : Ring
  tailGpu : ℕ
  held : List (ℕ × Slot)
  lost : Bool
  stopped : Bool

/-- A queue and the state it shares with the rest of the device. -/
structure QueueCell where
  core : Core
  queue : Queue

namespace Queue

def new (retire : Slot) (native64 : Bool) (tailGpu : ℕ) : Queue where
  shared := ⟨retire, native64, 0, false⟩
  ledger := .empty
  ring := ⟨0, fun _ => 0⟩
  tailGpu := tailGpu
  held := []
  lost := false
  stopped := false

def markLost (queue : Queue) : Queue :=
  { queue with lost := true, shared := { queue.shared with lost := true } }

def onCore {α : Type} (p : Prog Core Error α) : Prog QueueCell Error α :=
  focus QueueCell.core (fun core cell => { cell with core := core }) p

def setQueue (change : Queue → Queue) : Prog QueueCell Error Unit :=
  modify fun cell => { cell with queue := change cell.queue }

/-- `HeldSlots::release_through`. -/
def releaseThrough (retired : ℕ) (cell : QueueCell) : QueueCell where
  core := cell.core.releaseAll
    ((cell.queue.held.takeWhile fun held => decide (held.1 ≤ retired)).map Prod.snd)
  queue := { cell.queue with
    held := cell.queue.held.dropWhile fun held => decide (held.1 ≤ retired) }

/-- Pop retired batches and release their slots. -/
def retireCompletion (kernel : Kernel) : Prog QueueCell Error Unit := do
  let cell ← get
  if cell.queue.lost then throw (.contract "persistent RM channel is lost")
  else if cell.queue.ledger.pending.isEmpty then pure ()
  else do
    let completed ← outcome (cell.queue.shared.completed cell.core.pool)
    let shown ← onCore (Core.request kernel.completion)
    if shown < completed then do
      setQueue markLost
      throw (.contract "retirement preceded public completion")
    else
      match cell.queue.ledger.retire completed with
      | .error e => do
        setQueue markLost
        throw e
      | .ok ledger => do
        setQueue fun queue => { queue with ledger := ledger }
        modify (releaseThrough ledger.retired)

def invalidBatch (pushes : List Push) (waits signals : List SemaphoreOp) : Bool :=
  decide (1000 < pushes.length) || pushes.getLast?.any (fun p => decide (p.flags / 2 % 2 ≠ 0)) ||
    decide (1024 < waits.length) || decide (65536 < signals.length)

def outsideLimits (p : Push) : Bool :=
  decide (p.address % 4 ≠ 0) || decide (2 ^ 40 ≤ p.address) || decide (2 ^ 40 < p.address + p.size) ||
    decide (p.size = 0) || decide (p.size % 4 ≠ 0) || decide (2 ^ 23 ≤ p.size) ||
    decide (4 ≤ p.flags)

/-- `before_kick`: raise the shadow of each released timeline slot. -/
def raiseShadows (shadows : List (Slot × ℕ)) : Prog QueueCell Error Unit :=
  onCore (each (fun shadow => do
    let pool ← outcome ((← get).pool.raiseShadow shadow.1 shadow.2)
    modify fun core => { core with pool := pool }) shadows)

/-- The batch takes one reference to each of its slots. -/
def hold (token : ℕ) (held : List Slot) (cell : QueueCell) : QueueCell where
  core := held.foldl Core.retain cell.core
  queue := { cell.queue with held := cell.queue.held ++ held.map fun slot => (token, slot) }

/-- The part of `submit_encoded` before the batch is accepted: overflow segments,
completion methods, command words, shadows and the public maximum. -/
def writeCommands (kernel : Kernel) (encoded : Encoded) (shadows : List (Slot × ℕ)) :
    Prog QueueCell Error Unit := do
  onlyIf (encoded.prefixWords ≠ 0 ∧ ¬ encoded.prefixInline) (onCore (Core.request kernel.serve))
  onlyIf (¬ encoded.signalsInline) (onCore (Core.request kernel.serve))
  onCore (Core.request kernel.serve)
  raiseShadows shadows
  onCore (Core.request kernel.serve)

/-- The ring entries, one by one, and the doorbell. -/
def writeRing (kernel : Kernel) (token slot : ℕ) (pushes : List Push) (encoded : Encoded) :
    Prog QueueCell Error Unit := do
  each (fun segment => do
    onCore (Core.request kernel.serve)
    setQueue fun queue => { queue with ring := writeEntry queue.ring segment })
    (segments (← get).queue.tailGpu slot pushes encoded)
  setQueue fun queue => { queue with
    ledger := { queue.ledger with
      overflow := queue.ledger.overflow ++
        (if encoded.prefixWords ≠ 0 ∧ ¬ encoded.prefixInline then [token] else []) ++
        (if encoded.signalsInline then [] else [token]) } }
  onCore (Core.request kernel.serve)

/-- A panic of `prepare` is an error here; it needs a full ring without a batch. -/
def submitEncoded (kernel : Kernel) (encode : Encoder) (pushes : List Push)
    (waits signals : List SemaphoreOp) (held : List Slot) (shadows : List (Slot × ℕ)) :
    Prog QueueCell Error SubmitStatus := do
  let encoded ← outcome (encode waits signals)
  let queue := (← get).queue
  match queue.ledger.prepareForMode (entryCount pushes encoded) 0 queue.shared.native64 with
  | none => throw (.contract "batch exceeds queue capacity")
  | some (.error e) => throw e
  | some (.ok (.full oldest)) => pure (.full oldest)
  | some (.ok (.ready token slot)) => do
    writeCommands kernel encoded shadows
    setQueue fun queue => { queue with
      shared := { queue.shared with sequence := token }
      ledger := queue.ledger.commit token (entryCount pushes encoded) slot }
    modify (hold token held)
    writeRing kernel token slot pushes encoded
    pure (.submitted token)

/-- Waits, work and signals of one batch. On `full` nothing is written and no
reference is taken; an error after retirement loses the channel. -/
def submit (kernel : Kernel) (encode : Encoder) (pushes : List Push)
    (waits signals : List SemaphoreOp) (held : List Slot) (shadows : List (Slot × ℕ)) :
    Prog QueueCell Error SubmitStatus := do
  if (← get).queue.stopped then throw (.contract "cannot submit to a stopped RM channel")
  else if invalidBatch pushes waits signals then
    throw (.contract "invalid/incomplete GPFIFO batch or waits")
  else if pushes.any outsideLimits then
    throw (.contract "GPFIFO push outside hardware limits")
  else do
    retireCompletion kernel
    match ← attempt (submitEncoded kernel encode pushes waits signals held shadows) with
    | .ok status => pure status
    | .error e => do
      setQueue markLost
      throw e

end Queue

end NvidiaProlapse
