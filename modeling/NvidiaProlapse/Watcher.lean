import NvidiaProlapse.SyncObj

/-!
# The watcher thread

Registration of gates and publications, device loss and one round of the service
loop (watcher.rs). A gate owns one reference to its slot from its registration
until it is released or dropped.
-/
namespace NvidiaProlapse.Core
open Programs

def setWatcher (core : Core) (change : Watcher → Watcher) : Core :=
  { core with watcher := change core.watcher }

variable (kernel : Kernel)

def ensureStarted : Prog Core Error Unit := do
  let core ← get
  if core.watcher.started then pure ()
  else if core.watcher.stop then throw (.deviceLost "RM foreign watcher stopped")
  else do
    request kernel.serve
    modify fun core => core.setWatcher fun w => { w with started := true }

/-- Takes one reference to `slot`, also when it fails. -/
def register (slot : Slot) (push : Watcher → Watcher) : Prog Core Error Unit := do
  match ← attempt (ensureStarted kernel) with
  | .error e => do
    modify fun core => core.release slot
    throw e
  | .ok () => modify fun core => core.setWatcher push

def gate (foreign : ℕ) (slot : Slot) : Prog Core Error Unit :=
  register kernel slot fun w => { w with gates := w.gates ++ [(foreign, slot)] }

def sharedGate (shared target : ℕ) (slot : Slot) : Prog Core Error Unit :=
  register kernel slot fun w => { w with sharedGates := w.sharedGates ++ [(shared, target, slot)] }

def watchCpu (foreign : ℕ) : Prog Core Error Unit := do
  ensureStarted kernel
  modify fun core => core.setWatcher fun w =>
    if w.waits.contains foreign then w else { w with waits := w.waits ++ [foreign] }

def publish (shared : ℕ) : Prog Core Error Unit := do
  ensureStarted kernel
  modify fun core => core.setWatcher fun w =>
    if w.publish.contains shared then w else { w with publish := w.publish ++ [shared] }

/-! ## Sweeps over the registrations -/

def setGates (gates : List (ℕ × Slot)) (core : Core) : Core :=
  core.setWatcher fun w => { w with gates := gates }

def setSharedGates (gates : List (ℕ × ℕ × Slot)) (core : Core) : Core :=
  core.setWatcher fun w => { w with sharedGates := gates }

def setPublish (publish : List ℕ) (core : Core) : Core :=
  core.setWatcher fun w => { w with publish := publish }

def sweepGates (visit : ℕ × Slot → Bool → Prog Core Error (Bool × Bool)) (lost : Bool) :
    Prog Core Error Bool := do
  sweep setGates visit (fun gate core => core.release gate.2) [] (← get).watcher.gates lost

def sweepSharedGates (visit : ℕ × ℕ × Slot → Bool → Prog Core Error (Bool × Bool)) (lost : Bool) :
    Prog Core Error Bool := do
  sweep setSharedGates visit (fun gate core => (core.release gate.2.2).dropShared gate.1) []
    (← get).watcher.sharedGates lost

def sweepPublish (visit : ℕ → Bool → Prog Core Error (Bool × Bool)) (lost : Bool) :
    Prog Core Error Bool := do
  sweep setPublish visit (fun shared core => core.dropShared shared) [] (← get).watcher.publish lost

def failUnfinished (shared : ℕ) : Prog Core Error Unit := do
  if (← get).hasLocalWork shared then do
    let _ ← fail shared
    pure ()
  else pure ()

/-- Device loss: fail what still awaits local completion and drop every gate. -/
def failAll : Prog Core Error Unit := do
  each failUnfinished (← get).watcher.publish
  let _ ← sweepPublish (fun shared lost => do
    let core ← get
    pure (core.hasLocalWork shared && !core.failed shared, lost)) false
  modify fun core => core.setWatcher fun w => { w with waits := [] }
  let _ ← sweepGates (fun _ lost => pure (false, lost)) false
  let _ ← sweepSharedGates (fun _ lost => pure (false, lost)) false

/-- Open a gate; a failed store is only reported. -/
def openGate (slot : Slot) : Prog Core Error Unit := do
  match (← get).pool.store32 slot 1 with
  | .ok pool => modify fun core => { core with pool := pool }
  | .error _ => pure ()

/-- One gate of a service round: only a successful producer opens it. -/
def serviceGate (readable : ℕ → Bool) (gate : ℕ × Slot) (lost : Bool) :
    Prog Core Error (Bool × Bool) := do
  let core ← get
  if lost then pure (false, lost)
  else if !readable gate.1 && core.cached gate.1 = 0 then pure (true, lost)
  else
    match ← attempt (foreignStatus kernel gate.1) with
    | .error _ => pure (false, true)
    | .ok status =>
      if status = 0 then pure (true, lost)
      else if 0 < status then do
        openGate gate.2
        pure (false, lost)
      else pure (false, true)

def servicePublish (shared : ℕ) (lost : Bool) : Prog Core Error (Bool × Bool) := do
  match ← attempt (refresh shared) with
  | .ok _ => pure ((← get).hasLocalWork shared, lost)
  | .error _ => pure ((← get).hasLocalWork shared, true)

def serviceSharedGate (gate : ℕ × ℕ × Slot) (lost : Bool) : Prog Core Error (Bool × Bool) := do
  let _ ← attempt (refresh gate.1)
  let core ← get
  if gate.2.1 ≤ core.load gate.1 .completed then do
    openGate gate.2.2
    pure (false, lost)
  else if core.failed gate.1 || lost then pure (false, true)
  else pure (true, lost)

def serviceWait (readable : ℕ → Bool) (foreign : ℕ) (lost : Bool) :
    Prog Core Error (Bool × Bool) := do
  let core ← get
  if core.cached foreign ≠ 0 then pure (false, lost)
  else if !readable foreign then pure (true, lost)
  else
    match ← attempt (foreignStatus kernel foreign) with
    | .ok status => pure (decide (status = 0), lost)
    | .error _ => pure (false, lost)

def serviceShared (event lost : Bool) : Prog Core Error Bool :=
  if event then do
    let lost ← sweepPublish servicePublish lost
    sweepSharedGates serviceSharedGate lost
  else pure lost

/-- One round: `readable` are the sync_files whose descriptor was ready, `event` says
whether the HOST listener or the wake descriptor was. -/
def service (readable : ℕ → Bool) (event : Bool) : Prog Core Error Unit := do
  if (← get).lost then failAll
  else do
    let lost ← sweepGates (serviceGate kernel readable) false
    let lost ← sweep (fun waits core => core.setWatcher fun w => { w with waits := waits })
      (serviceWait kernel readable) (fun _ core => core) [] (← get).watcher.waits lost
    let lost ← serviceShared event lost
    onlyIf (lost = true) (modify markLost)

end NvidiaProlapse.Core
