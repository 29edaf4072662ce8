import NvidiaProlapse.MediaDecoder

/-!
# The component in front of the media decoder

Work items are queued by the client and handed to the decoder by a worker thread. All
state is guarded by one lock, which the worker holds except in the listener's
callbacks and while it waits; the client's calls come at any such point. An item is
the listener's from the moment the lock is released for its callback.
-/
namespace NvidiaProlapse.Media

open Programs

/-- A work item. Items are distinct objects, whatever their frame index. -/
structure Work where
  id : ℕ
  unit : InputUnit
  deriving DecidableEq, Repr

def Work.index (w : Work) : ℕ := w.unit.index

/-- A finished work item with its output. -/
structure Result where
  work : Work
  corrupted : Bool := false
  buffer : Option ℕ := none
  eos : Bool := false
  /-- A new picture size. -/
  size : Option (ℕ × ℕ) := none
  deriving DecidableEq, Repr

inductive Event
  | queued (w : Work)
  /-- Given to `Decoder::queue`. -/
  | handed (w : Work)
  /-- Given to `onWorkDone`. -/
  | reported (w : Work)
  /-- Returned by `flush_sm`. -/
  | flushed (ws : List Work)
  deriving DecidableEq, Repr

/-- Where the worker thread releases the lock. -/
inductive Phase
  /-- At the head of its loop, or in a wait that leads there. -/
  | ready
  /-- In the listener's callback, with the item that is to be retried after it. -/
  | notify (retry : Option Work)
  /-- In the listener's error callback. -/
  | onError
  /-- After an error, until the component is stopped. -/
  | halted
  | ended
  deriving DecidableEq, Repr

structure Component where
  codec : Codec
  maxWidth : ℕ
  maxHeight : ℕ
  listener : Bool := true
  running : Bool := true
  quit : Bool := false
  error : Bool := false
  /-- Not yet given to the decoder. -/
  queue : List Work := []
  /-- Given to it and waiting for a picture, by frame index. -/
  pending : List Work := []
  decoder : Option Decoder := none
  lib : Library := {}
  csd : List UInt8 := []
  outputPool : Bool := false
  pool : Pool := {}
  /-- Blocks that were in the map when the component was stopped. -/
  atStop : List ℕ := []
  fences : Fences := {}
  phase : Phase := .ready
  /-- What happened, the latest first. -/
  log : List Event := []
  deriving Repr

/-- What the worker is answered while it handles one item. -/
structure WorkAnswer where
  mapped : Bool := true
  created : Bool := true
  gotPool : Bool := true
  queue : QueueAnswer := {}
  drain : List Round := []
  /-- Which fences of the outputs signal in time, in their order. -/
  signalled : List Bool := []
  lastError : String := ""
  deriving DecidableEq, Repr

namespace Component

variable (c : Component)

def fatal : Component := { c with error := true }

/-- A call of the decoder. -/
def onDecoder (d : Decoder) (lastError : String) (p : Prog Machine Stop Unit) :
    Status × List Output × Component :=
  let (r, m) := exec p
    { dec := d, lib := { c.lib with lastError := lastError }, pool := c.pool, fences := c.fences }
  (statusOf r, m.out,
    { c with decoder := some m.dec, lib := m.lib, pool := m.pool, fences := m.fences })

def take (i : ℕ) : Component :=
  { c with pending := c.pending.filter (·.index ≠ i) }

/-- `mPending[index] = work`; an item of this index that is there goes. -/
def put (w : Work) : Component :=
  { c with pending := c.pending.filter (·.index ≠ w.index) ++ [w] }

def closeFence (fence : Option ℕ) : Component :=
  { c with fences := { c.fences with closed := c.fences.closed ++ fence.toList } }

/-! ## Delivery -/

/-- A picture: its fence is waited for and closed, and its block leaves the map. -/
def deliverPicture (w : Work) (o : Output) (s : Shown) (signalled : Bool) :
    Component × Result :=
  let late := s.releaseFence.isSome && !signalled
  let c := c.closeFence s.releaseFence
  let c := if late then c.fatal else c
  let shared := decide (s.buffer.cookie ∈ c.pool.blocks) && !late
  ({ c with pool := c.pool.dropBlock s.buffer.cookie },
    { work := w
      corrupted := late
      buffer := if shared then some s.buffer.cookie else none
      eos := o.eos
      size := if shared && s.sizeChanged then
        some (s.picture.format.cropWidth, s.picture.format.cropHeight) else none })

def deliverOne (o : Output) (signalled : Bool) : Component × Option Result :=
  match c.pending.find? (·.index = o.index) with
  | none => (c.closeFence (o.shown.bind (·.releaseFence)), none)
  | some w =>
    match o.shown with
    | none => (c.take o.index, some { work := w, eos := o.eos })
    | some s =>
      let (c, r) := (c.take o.index).deliverPicture w o s signalled
      (c, some r)

def deliver (c : Component) : List Output → List Bool → Component × List Result
  | [], _ => (c, [])
  | o :: outs, signalled =>
    let (c, r) := c.deliverOne o (signalled.headD true)
    let (c, rs) := c.deliver outs signalled.tail
    (c, r.toList ++ rs)

/-! ## The worker -/

/-- After the callback: an item to be retried goes back to the front of the queue. -/
def proceed (retry : Option Work) : Component :=
  { c with queue := retry.toList ++ c.queue, phase := .ready }

/-- The lock is released only if there is something to report and someone to report it to. -/
def notify (done : List Result) (retry : Option Work) : Component :=
  if done = [] ∨ c.listener = false then c.proceed retry
  else
    { c with
      log := (done.map fun r => .reported r.work).reverse ++ c.log
      phase := .notify retry }

def newDecoder : Decoder :=
  { codec := c.codec, maxWidth := max c.maxWidth 16, maxHeight := max c.maxHeight 16 }

/-- After `Decoder::queue`: a unit that was not taken leaves the map, and the outputs are delivered. -/
def settle (w : Work) (status : Status) (outs : List Output) (signalled : List Bool) :
    Component :=
  let c := if status = .again then c.take w.index else c
  let delivered := c.deliver outs signalled
  let c := if status = .error then delivered.1.fatal else delivered.1
  c.notify delivered.2 (if status = .again then some w else none)

/-- An item is given to the decoder. -/
def hand (d : Decoder) (w : Work) (a : WorkAnswer) : Component :=
  let c := { c.put w with log := .handed w :: c.log }
  let call := c.onDecoder d a.lastError (Media.queue w.unit a.queue)
  call.2.2.settle w call.1 call.2.1 a.signalled

def process (w : Work) (a : WorkAnswer) : Component :=
  if a.mapped = false ∧ w.unit.data ≠ [] then c.fatal
  else if w.unit.codecConfig ∧ c.decoder.isNone then
    { c with csd := c.csd ++ w.unit.data }.notify [{ work := w }] none
  else if c.decoder.isNone ∧ a.created = false then c.fatal
  else
    let d := c.decoder.getD c.newDecoder
    let c := { c with decoder := some d }
    if c.outputPool = false ∧ a.gotPool = false then c.fatal
    else { c with outputPool := true }.hand d w a

/-- Pictures that were held back by an empty pool. -/
def drainHeld (a : WorkAnswer) : Component :=
  match c.decoder with
  | some d =>
    if c.outputPool then
      let call := c.onDecoder d a.lastError (Media.drain a.drain)
      let c := if call.1 = .error then call.2.2.fatal else call.2.2
      let delivered := c.deliver call.2.1 a.signalled
      delivered.1.notify delivered.2 none
    else c
  | none => c

/-- The worker takes the lock and runs until it releases it. -/
def work (a : WorkAnswer) : Component :=
  if c.quit then { c with phase := .ended }
  else if c.error then { c with phase := if c.listener then .onError else .halted }
  else
    match c.queue with
    | [] => c.drainHeld a
    | w :: queue => { c with queue := queue }.process w a

/-! ## Calls of the client -/

def queueNb (items : List Work) : Component :=
  if c.running then
    { c with
      queue := c.queue ++ items
      log := (items.map Event.queued).reverse ++ c.log }
  else c

/-- The items of the outputs, in their order. -/
def claim (c : Component) : List Output → Component × List Work
  | [] => (c, [])
  | o :: outs =>
    let found := c.pending.find? (·.index = o.index)
    let (c, ws) := (c.take o.index).claim outs
    (c, found.toList ++ ws)

/-- The items whose units the decoder still had. -/
def flushDecoder (rc : ℤ) (lastError : String) : Component × List Work :=
  match c.decoder with
  | some d =>
    let call := c.onDecoder d lastError (Media.flush rc)
    let c := if call.1 ≠ .ok then call.2.2.fatal else call.2.2
    c.claim call.2.1
  | none => (c, [])

def flushSm (rc : ℤ) (lastError : String) : Component :=
  let flushed := { c with queue := [] }.flushDecoder rc lastError
  { flushed.1 with
    pending := []
    log := .flushed (c.queue ++ flushed.2 ++ flushed.1.pending) :: flushed.1.log }

/-- The end of `stop`, after the thread was joined. -/
def cleanup : Component :=
  { c with
    running := false
    queue := []
    pending := []
    decoder := none
    lib := {}
    csd := []
    pool := { c.pool with blocks := [] }
    atStop := c.atStop ++ c.pool.blocks
    outputPool := false }

inductive Action
  | queueNb (items : List Work)
  | flushSm (rc : ℤ) (lastError : String)
  /-- The worker runs until it releases the lock. -/
  | work (a : WorkAnswer)
  /-- The worker returns from a callback. -/
  | resume
  /-- `stop` asks the worker to end. -/
  | stop
  /-- `stop` goes on when it did. -/
  | join

/-- An item is queued once: a new object each time. -/
def isNew (items : List Work) : Bool :=
  decide items.Nodup && items.all fun w => decide (Event.queued w ∉ c.log)

def step : Action → Option Component
  | .queueNb items => if c.isNew items then some (c.queueNb items) else none
  | .flushSm rc lastError => some (c.flushSm rc lastError)
  | .work a =>
    match c.phase with
    | .ready => some (c.work a)
    | .halted => if c.quit then some { c with phase := .ended } else none
    | _ => none
  | .resume =>
    match c.phase with
    | .notify retry => some (c.proceed retry)
    | .onError => some { c with phase := .halted }
    | _ => none
  | .stop => if c.running then some { c with quit := true } else some c
  | .join => if c.running ∧ c.phase = .ended then some c.cleanup else none

end Component

end NvidiaProlapse.Media
