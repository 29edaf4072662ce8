import NvidiaProlapse.Runs

/-!
# Waiting and signalling threads

Any number of threads wait in `Waiters::wait` and any number signal with
`notify` or `broadcast` after a store (waiters.rs). Every atomic operation, lock
and condition variable operation and access to the wake descriptor is one action
of one thread. Outcomes the code does not control (an expired deadline, a due
scan, an error, why a poll returned) are the `choice` of the action. A condition
variable may wake at any time, and a poll may return at any time. The counters of
waiting threads and the generation are natural numbers.
-/
namespace NvidiaProlapse.Waiters
open Runs

variable {Mem : Type}

inductive Thread where
  | waiter (w : ℕ)
  | signaller (i : ℕ)
  deriving DecidableEq, Repr

/-- The fields of `Waiters`. `sleeping` is the queue of the condition variable and
`wake` the counter of the event descriptor. -/
structure Shared where
  registered : ℕ
  followers : ℕ
  leader : Bool
  generation : ℕ
  lock : Option Thread
  sleeping : ℕ → Bool
  wake : ℕ

/-- The operations of `bump`. -/
inductive Bump where
  | increment
  | checkFollowers
  | lock
  | notifyAll
  | unlock
  deriving DecidableEq, Repr

/-- One operation of `bump` and the next one, if any. -/
def bumpStep (sh : Shared) (me : Thread) : Bump → Option (Shared × Option Bump)
  | .increment => some ({ sh with generation := sh.generation + 1 }, some .checkFollowers)
  | .checkFollowers => some (sh, if sh.followers = 0 then none else some .lock)
  | .lock =>
    if sh.lock = none then some ({ sh with lock := some me }, some .notifyAll) else none
  | .notifyAll => some ({ sh with sleeping := fun _ => false }, some .unlock)
  | .unlock => some ({ sh with lock := none }, none)

/-- Control points of `wait`. A leader resigns with `exit` on an error. -/
inductive WaiterPc where
  | idle
  | loadGeneration
  | predicate
  | deadline
  | claim
  | recheck
  | scanDue
  | scanNow
  | polling
  | polled
  | drain
  | scan
  | resign (exit : Bool)
  | bump (stage : Bump) (exit : Bool)
  | join
  | lock
  | checkGeneration
  | checkLeader
  | remaining
  | asleep
  | unlock
  | leave
  | deregister
  deriving DecidableEq, Repr

/-- A waiting thread: its predicate, the generation it loaded and the number of
stores made when it last evaluated the predicate. -/
structure Waiter (Mem : Type) where
  pc : WaiterPc
  predicate : Mem → Bool
  generation : ℕ
  seen : ℕ

def waiterStep (sh : Shared) (memory : Mem) (stores : ℕ) (w : ℕ) (me : Waiter Mem) (choice : Bool) :
    Option (Shared × Waiter Mem) :=
  match me.pc with
  | .idle => none
  | .loadGeneration => some (sh, { me with pc := .predicate, generation := sh.generation })
  | .predicate =>
    if choice || me.predicate memory then some (sh, { me with pc := .deregister })
    else some (sh, { me with pc := .deadline, seen := stores })
  | .deadline => some (sh, { me with pc := if choice then .deregister else .claim })
  | .claim =>
    if sh.leader then some (sh, { me with pc := .join })
    else some ({ sh with leader := true }, { me with pc := .recheck })
  | .recheck =>
    some (sh, { me with pc := if sh.generation ≠ me.generation then .resign false else .scanDue })
  | .scanDue => some (sh, { me with pc := if choice then .scanNow else .polling })
  | .scanNow => some (sh, { me with pc := .resign choice })
  | .polling => some (sh, { me with pc := if choice then .resign true else .polled })
  | .polled => some (sh, { me with pc := if choice then .drain else .scan })
  | .drain =>
    if choice then some (sh, { me with pc := .resign true })
    else some ({ sh with wake := 0 }, { me with pc := .scan })
  | .scan => some (sh, { me with pc := .resign choice })
  | .resign exit => some ({ sh with leader := false }, { me with pc := .bump .increment exit })
  | .bump stage exit =>
    match bumpStep sh (.waiter w) stage with
    | none => none
    | some (sh', some stage') => some (sh', { me with pc := .bump stage' exit })
    | some (sh', none) =>
      some (sh', { me with pc := if exit then .deregister else .loadGeneration })
  | .join => some ({ sh with followers := sh.followers + 1 }, { me with pc := .lock })
  | .lock =>
    if sh.lock = none then
      some ({ sh with lock := some (.waiter w) }, { me with pc := .checkGeneration })
    else none
  | .checkGeneration =>
    some (sh, { me with pc := if sh.generation ≠ me.generation then .unlock else .checkLeader })
  | .checkLeader => some (sh, { me with pc := if sh.leader then .remaining else .unlock })
  | .remaining =>
    if choice then some (sh, { me with pc := .unlock })
    else some ({ sh with lock := none, sleeping := Function.update sh.sleeping w true },
      { me with pc := .asleep })
  | .asleep =>
    if sh.lock = none then
      some ({ sh with
        lock := some (.waiter w)
        sleeping := Function.update sh.sleeping w false }, { me with pc := .checkGeneration })
    else none
  | .unlock => some ({ sh with lock := none }, { me with pc := .leave })
  | .leave => some ({ sh with followers := sh.followers - 1 }, { me with pc := .loadGeneration })
  | .deregister => some ({ sh with registered := sh.registered - 1 }, { me with pc := .idle })

/-- Control points of a signaller after its store, which has a number. -/
inductive Signaller where
  | idle
  | checkRegistered (store : ℕ)
  | bump (stage : Bump) (store : ℕ) (broadcast : Bool)
  | checkLeader (store : ℕ)
  | wake (store : ℕ)
  deriving DecidableEq, Repr

/-- A saturated event descriptor stays readable. -/
def writeWake (wake : ℕ) : ℕ := if wake = 2 ^ 64 - 2 then wake else wake + 1

/-- The store whose `notify` returned, if it did, comes last. -/
def signallerStep (sh : Shared) (i : ℕ) : Signaller → Option (Shared × Signaller × Option ℕ)
  | .idle => none
  | .checkRegistered store =>
    if sh.registered = 0 then some (sh, .idle, some store)
    else some (sh, .bump .increment store false, none)
  | .bump stage store broadcast =>
    match bumpStep sh (.signaller i) stage with
    | none => none
    | some (sh', some stage') => some (sh', .bump stage' store broadcast, none)
    | some (sh', none) => some (sh', if broadcast then .wake store else .checkLeader store, none)
  | .checkLeader store =>
    if sh.leader then some (sh, .wake store, none) else some (sh, .idle, some store)
  | .wake store => some ({ sh with wake := writeWake sh.wake }, .idle, some store)

/-- The threads and what they share. `past n` is the memory after `n` stores and
`returned` marks the stores whose `notify` or `broadcast` returned. -/
structure System (Mem : Type) where
  shared : Shared
  memory : Mem
  waiters : ℕ → Waiter Mem
  signallers : ℕ → Signaller
  stores : ℕ
  past : ℕ → Mem
  returned : ℕ → Bool

def System.start (memory : Mem) : System Mem where
  shared := ⟨0, 0, false, 0, none, fun _ => false, 0⟩
  memory := memory
  waiters := fun _ => ⟨.idle, fun _ => false, 0, 0⟩
  signallers := fun _ => .idle
  stores := 0
  past := fun _ => memory
  returned := fun _ => false

inductive Action (Mem : Type) where
  | wait (w : ℕ) (predicate : Mem → Bool)
  | waiter (w : ℕ) (choice : Bool)
  | store (i : ℕ) (write : Mem → Mem) (broadcast : Bool)
  | signaller (i : ℕ)
  | gpuStore (write : Mem → Mem)

/-- Memory after one more store. -/
def System.write (s : System Mem) (write : Mem → Mem) : System Mem :=
  { s with
    memory := write s.memory
    stores := s.stores + 1
    past := Function.update s.past (s.stores + 1) (write s.memory) }

def System.markReturned (returned : ℕ → Bool) : Option ℕ → ℕ → Bool
  | none => returned
  | some store => Function.update returned store true

/-- One action. A call of `wait` registers; a GPU store is not followed by
`notify`. -/
def step (s : System Mem) : Action Mem → Option (System Mem)
  | .wait w predicate =>
    if (s.waiters w).pc = .idle then some { s with
      shared := { s.shared with registered := s.shared.registered + 1 }
      waiters := Function.update s.waiters w ⟨.loadGeneration, predicate, 0, 0⟩ }
    else none
  | .waiter w choice =>
    match waiterStep s.shared s.memory s.stores w (s.waiters w) choice with
    | none => none
    | some (shared, me) => some { s with
        shared := shared
        waiters := Function.update s.waiters w me }
  | .store i write broadcast =>
    if s.signallers i = .idle then some { s.write write with
      signallers := Function.update s.signallers i
        (if broadcast then .bump .increment s.stores true else .checkRegistered s.stores) }
    else none
  | .signaller i =>
    match signallerStep s.shared i (s.signallers i) with
    | none => none
    | some (shared, me, done) => some { s with
        shared := shared
        signallers := Function.update s.signallers i me
        returned := System.markReturned s.returned done }
  | .gpuStore write => some (s.write write)

/-- Blocked in `poll` with an empty descriptor, or asleep and not notified. -/
def System.Parked (s : System Mem) (w : ℕ) : Prop :=
  ((s.waiters w).pc = .polling ∧ s.shared.wake = 0) ∨
    ((s.waiters w).pc = .asleep ∧ s.shared.sleeping w = true)

/-- The predicate became true by this store and has been true since. -/
def System.BecameTrue (s : System Mem) (w store : ℕ) : Prop :=
  store < s.stores ∧ (s.waiters w).predicate (s.past store) = false ∧
    ∀ n, store < n → n ≤ s.stores → (s.waiters w).predicate (s.past n) = true

end NvidiaProlapse.Waiters
