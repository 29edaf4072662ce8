import NvidiaProlapse.Programs

/-!
# The media decoder core

The state machine between a framework front and the video library. The library is
known by its interface: it keeps the pictures that units produced until
`next_picture` returns them, in decode order for VP9 and AV1 and in any order for
H.264 and HEVC. What it and the output pool answer comes with each call.
-/
namespace NvidiaProlapse.Media

open Programs

inductive Codec
  | h264
  | hevc
  | vp9
  | av1
  deriving DecidableEq, Repr

/-- Pictures may leave in another order than their units. -/
def Codec.reorders : Codec → Bool
  | .h264 | .hevc => true
  | .vp9 | .av1 => false

inductive Status
  | ok
  | again
  | error
  deriving DecidableEq, Repr

/-- Why a call returned before its end. -/
inductive Stop
  | again
  | error
  deriving DecidableEq, Repr

def errName (rc : ℤ) : String :=
  if rc = -1 then "INVALID"
  else if rc = -2 then "UNSUPPORTED"
  else if rc = -3 then "BITSTREAM"
  else if rc = -4 then "NO_MEMORY"
  else if rc = -5 then "DEVICE_LOST"
  else if rc = -6 then "AGAIN"
  else if rc = -7 then "RESIZE"
  else "unknown"

def formatNv12 : ℕ := 1
def formatP010 : ℕ := 2
def formatYuv420p : ℕ := 3

def outputFormatForDepth (bitDepth : ℕ) : ℕ := if 8 < bitDepth then formatP010 else formatNv12

/-! ## The library -/

/-- What a picture looks like. -/
structure Format where
  bitDepth : ℕ
  cropWidth : ℕ
  cropHeight : ℕ
  deriving DecidableEq, Repr

structure Picture where
  id : ℕ
  /-- The index of the unit that produced it. -/
  timestamp : ℕ
  format : Format
  deriving DecidableEq, Repr

/-- A picture that was not returned yet. After an end of stream all such pictures are due: the
library does not say that there is none before it returned them. -/
structure Produced where
  picture : Picture
  due : Bool
  deriving DecidableEq, Repr

structure Library where
  produced : List Produced := []
  nextId : ℕ := 0
  lastError : String := ""
  deriving Repr

namespace Library

/-- The pictures a unit produced. -/
def produce (lib : Library) (timestamp : ℕ) (formats : List Format) : Library :=
  { lib with
    produced := lib.produced ++
      formats.mapIdx fun i format => ⟨⟨lib.nextId + i, timestamp, format⟩, false⟩
    nextId := lib.nextId + formats.length }

def endOfStream (lib : Library) : Library :=
  { lib with produced := lib.produced.map fun p => { p with due := true } }

/-- The position of the picture that `next_picture` returns, with `k` as the wish of the library. -/
def choice (lib : Library) (reorders : Bool) (k : ℕ) : Option ℕ :=
  if reorders ∧ k < lib.produced.length then some k
  else if reorders then lib.produced.findIdx? (·.due)
  else if lib.produced = [] then none
  else some 0

def nextPicture (lib : Library) (reorders : Bool) (k : ℕ) : Option (Picture × Library) := do
  let i ← lib.choice reorders k
  let p ← lib.produced[i]?
  some (p.picture, { lib with produced := lib.produced.eraseIdx i })

end Library

/-! ## Answers -/

/-- The output pool's answer to `fetch`. -/
inductive Fetched
  | again
  | failed (rc : ℤ)
  /-- A buffer with its target format and acquire fence. -/
  | block (format : ℕ) (acquire : Option ℕ)
  deriving DecidableEq, Repr

inductive Copied
  | failed (rc : ℤ)
  /-- Copied, with or without a release fence. -/
  | done (fence : Bool)
  deriving DecidableEq, Repr

structure EmitAnswer where
  fetch : Fetched
  hdr : ℤ := 0
  copyOut : Copied := .done false
  release : ℤ := 0
  deriving DecidableEq, Repr

inductive NextAnswer
  | failed (rc : ℤ)
  | pick (k : ℕ)
  deriving DecidableEq, Repr

/-- The answers to one round of `drain`. -/
structure Round where
  next : NextAnswer
  emit : EmitAnswer
  deriving DecidableEq, Repr

/-- A round with an empty pool. -/
def Round.emptyPool : Round := ⟨.pick 0, { fetch := .again }⟩

/-- The answer to `decode`. A rejected unit may have produced pictures, too. -/
inductive Decoded
  | again
  | bitstream (pictures : List Format)
  | resize
  | failed (rc : ℤ)
  | accepted (pictures : List Format)
  deriving DecidableEq, Repr

structure ResizeAnswer where
  rounds : List Round := []
  /-- Why the new session could not be opened. -/
  openError : Option String := none
  /-- The answers to the parameter sets. -/
  csd : List Decoded := []
  deriving DecidableEq, Repr

/-- The answers to one attempt to decode a unit. -/
structure Try where
  decode : Decoded
  rounds : List Round := []
  /-- The answer to the end of stream after a rejected unit or before a size change. -/
  endOfStream : ℤ := 0
  requiredSize : Option (ℕ × ℕ) := none
  resize : ResizeAnswer := {}
  deriving DecidableEq, Repr

structure QueueAnswer where
  resize : ResizeAnswer := {}
  config : Decoded := .accepted []
  tries : List Try := []
  rounds : List Round := []
  deriving DecidableEq, Repr

/-! ## State -/

structure OutputBuffer where
  cookie : ℕ
  format : ℕ
  acquire : Option ℕ
  deriving DecidableEq, Repr

/-- A picture in its buffer. -/
structure Shown where
  buffer : OutputBuffer
  releaseFence : Option ℕ
  picture : Picture
  sizeChanged : Bool
  deriving DecidableEq, Repr

/-- What is reported for a unit; without a picture it is empty. -/
structure Output where
  index : ℕ
  shown : Option Shown := none
  corrupt : Bool := false
  eos : Bool := false
  deriving DecidableEq, Repr

structure InputUnit where
  data : List UInt8
  index : ℕ
  eos : Bool
  codecConfig : Bool
  deriving DecidableEq, Repr

structure Decoder where
  codec : Codec
  maxWidth : ℕ
  maxHeight : ℕ
  /-- In-band parameter sets, replayed after a size change. -/
  csd : List (List UInt8) := []
  lastWasCsd : Bool := false
  resizing : Bool := false
  resizeSize : ℕ × ℕ := (0, 0)
  /-- Units without a picture yet, in decode order. -/
  pending : List ℕ := []
  /-- A picture that was taken from the library and not copied yet. -/
  held : Option Picture := none
  currentSize : ℕ × ℕ := (0, 0)
  eosPending : Bool := false
  eosSubmitted : Bool := false
  eosIndex : ℕ := 0
  /-- The output of the end-of-stream unit, returned last. -/
  eosOut : Option Output := none
  dead : Bool := false
  error : String := ""
  deriving Repr

/-- The front's blocks by cookie, with those that left the map. -/
structure Pool where
  nextCookie : ℕ := 1
  blocks : List ℕ := []
  left : List ℕ := []
  deriving DecidableEq, Repr

namespace Pool

def fetch (p : Pool) : Pool :=
  { p with nextCookie := p.nextCookie + 1, blocks := p.blocks ++ [p.nextCookie] }

def dropBlock (p : Pool) (cookie : ℕ) : Pool :=
  if cookie ∈ p.blocks then
    { p with blocks := p.blocks.erase cookie, left := p.left ++ [cookie] }
  else p

end Pool

/-- Release fences in the order they were returned, and those that were closed. -/
structure Fences where
  opened : ℕ := 0
  closed : List ℕ := []
  /-- Acquire fences that were closed after the copy. -/
  acquireClosed : List ℕ := []
  deriving DecidableEq, Repr

structure Machine where
  dec : Decoder
  lib : Library := {}
  pool : Pool := {}
  fences : Fences := {}
  /-- The caller's list of outputs. -/
  out : List Output := []
  deriving Repr

namespace Machine

variable {α : Type} (m : Machine)

def setDec (f : Decoder → Decoder) : Machine := { m with dec := f m.dec }

def setLib (f : Library → Library) : Machine := { m with lib := f m.lib }

def close (fence : Option ℕ) : Machine :=
  { m with fences := { m.fences with closed := m.fences.closed ++ fence.toList } }

def report (o : Output) : Machine := { m with out := m.out ++ [o] }

def discard (buf : OutputBuffer) : Machine :=
  { m with pool := m.pool.dropBlock buf.cookie }

def die (error : String) : Machine :=
  m.setDec fun d => { d with dead := true, error := error }

/-! ## Finished units -/

/-- `finish_older_than`: the units in front of `index` are reported empty. -/
def finishOlderThan (index : ℕ) : Machine :=
  { m.setDec fun d => { d with pending := d.pending.dropWhile (· ≠ index) } with
    out := m.out ++ (m.dec.pending.takeWhile (· ≠ index)).map fun i => { index := i } }

/-- `finish_all`: all but the end-of-stream unit are reported empty. -/
def finishAll : Machine :=
  { m.setDec fun d => { d with pending := [] } with
    out := m.out ++ (m.dec.pending.filter fun i =>
      !(m.dec.eosPending && i == m.dec.eosIndex)).map fun i => { index := i } }

end Machine

/-! ## Pictures -/

def die {α : Type} (error : String) : Prog Machine Stop α := do
  modify fun m => m.die error
  throw .error

def fail {α : Type} (what : String) (rc : ℤ) : Prog Machine Stop α := do
  let m ← get
  let name := errName rc
  let reason := m.lib.lastError
  die s!"{what}: {name} ({rc}): {reason}"

/-- The end of `emit_picture`: the unit of the picture is finished. -/
def finishPicture (m : Machine) (pic : Picture) (buf : OutputBuffer) (fence : Option ℕ) : Machine :=
  let m := if m.dec.codec.reorders then m else m.finishOlderThan pic.timestamp
  let size := (pic.format.cropWidth, pic.format.cropHeight)
  let o : Output :=
    { index := pic.timestamp, shown := some ⟨buf, fence, pic, decide (size ≠ m.dec.currentSize)⟩ }
  let m := m.setDec fun d =>
    { d with pending := d.pending.erase pic.timestamp, currentSize := size }
  if m.dec.eosPending ∧ pic.timestamp = m.dec.eosIndex then
    m.setDec fun d => { d with eosOut := some o }
  else m.report o

/-- The copy of a picture into a fetched buffer. -/
def copyPicture (pic : Picture) (a : EmitAnswer) (format : ℕ) (acquire : Option ℕ) :
    Prog Machine Stop Unit := do
  let fmt := outputFormatForDepth pic.format.bitDepth
  let m ← get
  let buf : OutputBuffer := ⟨m.pool.nextCookie, if format = 0 then fmt else format, acquire⟩
  modify fun m => { m.setDec fun d => { d with held := none } with pool := m.pool.fetch }
  if buf.format ≠ fmt ∧ ¬ (fmt = formatNv12 ∧ buf.format = formatYuv420p) then do
    modify fun m => m.discard buf
    let (got, depth) := (buf.format, pic.format.bitDepth)
    die s!"output pool returned target format {got} for a {depth}-bit picture (wants {fmt})"
  else if a.hdr < 0 then do
    modify fun m => m.discard buf
    fail "nv_video_picture_hdr" a.hdr
  else do
    modify fun m =>
      { m with fences := { m.fences with acquireClosed := m.fences.acquireClosed ++ acquire.toList } }
    match a.copyOut with
    | .failed rc => do
      modify fun m => m.discard buf
      fail "nv_video_copy_out" rc
    | .done fenced => do
      let m ← get
      let fence := if fenced then some m.fences.opened else none
      modify fun m =>
        { m with fences := { m.fences with opened := m.fences.opened + fence.toList.length } }
      if a.release ≠ 0 then do
        modify fun m => (m.close fence).discard buf
        fail "nv_video_picture_release" a.release
      else modify fun m => finishPicture m pic { buf with acquire := none } fence

def emitPicture (pic : Picture) (a : EmitAnswer) : Prog Machine Stop Unit :=
  match a.fetch with
  | .again => do
    modify fun m => m.setDec fun d => { d with held := some pic }
    throw .again
  | .failed rc => do
    modify fun m => m.setDec fun d => { d with held := none }
    let (w, h) := (pic.format.cropWidth, pic.format.cropHeight)
    let name := if outputFormatForDepth pic.format.bitDepth = formatP010 then " P010" else " NV12"
    die s!"output pool fetch failed ({rc}) for {w}x{h}{name}"
  | .block format acquire => copyPicture pic a format acquire

/-! ## drain -/

/-- One round of the loop; `false` at its end. -/
def drainOnce (r : Round) : Prog Machine Stop Bool := do
  let m ← get
  match m.dec.held with
  | some pic => do
    emitPicture pic r.emit
    pure true
  | none =>
    match r.next with
    | .failed rc => fail "nv_video_next_picture" rc
    | .pick k =>
      match m.lib.nextPicture m.dec.codec.reorders k with
      | none => pure false
      | some (pic, lib) => do
        modify fun m => { m with lib := lib }
        emitPicture pic r.emit
        pure true

/-- The loop ends where the library has no picture or the pool has no buffer; the pool is empty
where the answers end. -/
def drainLoop : List Round → Prog Machine Stop Unit
  | [] => Programs.ignore (drainOnce .emptyPool)
  | r :: rs => do
    if ← drainOnce r then drainLoop rs else pure ()

/-- The end of `drain`: the output of the end-of-stream unit. -/
def finishStream (m : Machine) : Machine :=
  if m.dec.eosPending ∧ m.dec.eosSubmitted then
    let m := m.finishAll
    let o := (m.dec.eosOut.getD { index := 0 })
    (m.report { o with index := m.dec.eosIndex, eos := true }).setDec fun d =>
      { d with eosPending := false, eosSubmitted := false, eosOut := none }
  else m

def drain (rounds : List Round) : Prog Machine Stop Unit := do
  let m ← get
  if m.dec.dead then throw .error
  else do
    drainLoop rounds
    modify finishStream

/-! ## queue -/

/-- The parameter sets on the new session, with timestamp 0. -/
def replayCsd : List (List UInt8) → List Decoded → Prog Machine Stop Unit
  | [], _ => pure ()
  | _ :: units, answers =>
    match answers.headD (.accepted []) with
    | .accepted pictures => do
      modify fun m => m.setLib fun lib => lib.produce 0 pictures
      replayCsd units answers.tail
    | .again => fail "nv_video_decode(codec config after a size change)" (-6)
    | .bitstream _ => fail "nv_video_decode(codec config after a size change)" (-3)
    | .resize => fail "nv_video_decode(codec config after a size change)" (-7)
    | .failed rc => fail "nv_video_decode(codec config after a size change)" rc

def finishResize (a : ResizeAnswer) : Prog Machine Stop Unit := do
  drain a.rounds
  modify fun m => m.finishAll.setLib fun lib => { lib with produced := [] }
  let m ← get
  let (w, h) := (max m.dec.maxWidth m.dec.resizeSize.1, max m.dec.maxHeight m.dec.resizeSize.2)
  match a.openError with
  | some err => die s!"re-creating the session at {w}x{h} for a size change: {err}"
  | none => do
    modify fun m => m.setDec fun d => { d with maxWidth := w, maxHeight := h, resizing := false }
    replayCsd m.dec.csd a.csd

/-- A unit of parameter sets. -/
def queueConfig (u : InputUnit) (a : Decoded) : Prog Machine Stop Unit := do
  let m ← get
  if m.dec.codec.reorders ∧ u.data ≠ [] then
    match a with
    | .bitstream pictures => do
      modify fun m => m.setLib fun lib => lib.produce u.index pictures
      modify fun m => m.report { index := u.index, corrupt := true }
    | .accepted pictures => do
      modify fun m => (m.setLib fun lib => lib.produce u.index pictures).setDec fun d =>
        { d with csd := (if d.lastWasCsd then d.csd else []) ++ [u.data], lastWasCsd := true }
      modify fun m => m.report { index := u.index }
    | .again => fail "nv_video_decode(codec config)" (-6)
    | .resize => fail "nv_video_decode(codec config)" (-7)
    | .failed rc => fail "nv_video_decode(codec config)" rc
  else modify fun m => m.report { index := u.index }

/-- A unit that the library took, with the pictures it produced. -/
def acceptUnit (m : Machine) (u : InputUnit) (pictures : List Format) : Machine :=
  let pictures := if u.data = [] then [] else pictures
  let m := m.setLib fun lib =>
    let lib := lib.produce u.index pictures
    if u.eos then lib.endOfStream else lib
  let m :=
    if u.data = [] then m
    else if pictures ≠ [] ∨ u.eos then m.setDec fun d => { d with pending := d.pending ++ [u.index] }
    else m.report { index := u.index }
  if u.eos then m.setDec fun d => { d with eosSubmitted := true } else m

/-- A unit that the library rejected. At the end of the stream what was decoded before is drained. -/
def rejectUnit (u : InputUnit) (pictures : List Format) (endOfStream : ℤ) : Prog Machine Stop Unit := do
  modify fun m => m.setLib fun lib => lib.produce u.index (if u.data = [] then [] else pictures)
  let o : Output := { index := u.index, corrupt := true }
  if u.eos then
    if endOfStream < 0 then fail "nv_video_decode(end of stream)" endOfStream
    else modify fun m => (m.setLib Library.endOfStream).setDec fun d =>
      { d with eosSubmitted := true, eosOut := some o }
  else modify fun m => m.report o

/-- A unit that needs a larger session. -/
def startResize (requiredSize : Option (ℕ × ℕ)) (endOfStream : ℤ) (a : ResizeAnswer) :
    Prog Machine Stop Unit :=
  match requiredSize with
  | none => fail "nv_video_required_size" (-1)
  | some size => do
    modify fun m => m.setDec fun d => { d with resizeSize := size }
    if endOfStream < 0 then fail "nv_video_decode(drain before a size change)" endOfStream
    else do
      modify fun m => (m.setLib Library.endOfStream).setDec fun d => { d with resizing := true }
      finishResize a

/-- The attempts to decode a unit; the device is lost where the answers end. -/
def queueTries (u : InputUnit) : List Try → Prog Machine Stop Unit
  | [] => fail "nv_video_decode" (-5)
  | t :: ts =>
    match t.decode with
    | .again => do
      let before ← get
      drain t.rounds
      let after ← get
      if after.out.length = before.out.length then throw .again else queueTries u ts
    | .bitstream pictures => rejectUnit u pictures t.endOfStream
    | .resize => do
      startResize t.requiredSize t.endOfStream t.resize
      queueTries u ts
    | .failed rc => fail "nv_video_decode" rc
    | .accepted pictures => modify fun m => acceptUnit m u pictures

/-- An empty pool only delays the pictures. -/
def lastDrain (rounds : List Round) : Prog Machine Stop Unit := do
  match ← attempt (drain rounds) with
  | .error .error => throw .error
  | _ => pure ()

def queue (u : InputUnit) (a : QueueAnswer) : Prog Machine Stop Unit := do
  let m ← get
  if m.dec.dead then throw .error
  else do
    onlyIf (m.dec.resizing = true) (finishResize a.resize)
    if u.codecConfig ∧ ¬ u.eos then queueConfig u a.config
    else do
      modify fun m => m.setDec fun d =>
        { d with
          lastWasCsd := false
          eosPending := d.eosPending || u.eos
          eosIndex := if u.eos then u.index else d.eosIndex }
      queueTries u a.tries
      lastDrain a.rounds

/-! ## flush -/

/-- What `flush` drops and reports. -/
def flushed (m : Machine) : Machine :=
  let wasEos := m.dec.eosPending
  let m := m.setLib fun lib => { lib with produced := [] }
  let m := (m.setDec fun d =>
    { d with held := none, resizing := false, eosPending := false }).finishAll
  let o := (m.dec.eosOut.getD { index := 0 })
  let m := if wasEos then m.report { o with index := m.dec.eosIndex, eos := true } else m
  m.setDec fun d => { d with eosSubmitted := false, eosOut := none }

def flush (rc : ℤ) : Prog Machine Stop Unit := do
  let m ← get
  if m.dec.dead then throw .error
  else do
    modify flushed
    if rc ≠ 0 then fail "nv_video_flush" rc else pure ()

/-! ## Calls -/

inductive Call
  | queue (u : InputUnit) (a : QueueAnswer)
  | drain (rounds : List Round)
  | flush (rc : ℤ)
  deriving DecidableEq, Repr

def Call.program : Call → Prog Machine Stop Unit
  | .queue u a => Media.queue u a
  | .drain rounds => Media.drain rounds
  | .flush rc => Media.flush rc

def statusOf : Except Stop Unit → Status
  | .ok _ => .ok
  | .error .again => .again
  | .error .error => .error

end NvidiaProlapse.Media
