import NvidiaProlapse.VideoCodec
import Mathlib.Data.List.AList
import Mathlib.Data.List.Sort
import Mathlib.Data.Prod.Lex

/-!
# The decode session

A session owns a pool of surfaces. A unit is admitted when its pictures can find
surfaces, each decode job takes the first surface that is neither referenced by the codec
nor held by a picture, and shown pictures go to the display queue, those with a display
key through the reorder list. Answers of the engine and the driver are numbered by the
requests made so far.
-/
namespace NvidiaProlapse.Video

open Programs

/-- Descriptor and bitstream slots. -/
def ringSlots : ℕ := 4

def bitstreamInitial : ℕ := 16 <<< 20

structure RingSlot where
  /-- Size of its bitstream buffer. -/
  bits : Option ℕ := none
  /-- Timeline value of the last picture that used the slot. -/
  busyUntil : ℕ := 0
  /-- The engine status of that picture was not read yet. -/
  unchecked : Bool := false
  picture : ℕ := 0
  deriving DecidableEq, Repr, Inhabited

structure Picture where
  surface : ℕ
  info : PictureInfo
  timestamp : ℕ
  decodedAt : ℕ
  hdr : HdrStaticMetadata
  deriving DecidableEq, Repr

/-- Unreleased pictures by id. -/
abbrev Pictures := AList fun _ : ℕ => Picture

/-- A decode job that was given a surface, with the codec and the pictures at that moment. -/
structure Attempt (σ : Type) where
  surface : ℕ
  codec : σ
  pictures : Pictures

structure Session (σ : Type) where
  codec : σ
  /-- Surfaces in the pool. -/
  surfaces : ℕ
  ring : List RingSlot
  nextRing : ℕ := 0
  surfaceHdr : List HdrStaticMetadata
  currentHdr : HdrStaticMetadata := {}
  resizeNeeded : Option (ℕ × ℕ) := none
  shown : ℕ := 0
  pictures : Pictures := ∅
  display : List ℕ := []
  reorder : List (ℤ × ℕ) := []
  nextId : ℕ := 1
  pictureIndex : ℕ := 0
  failed : Option String := none
  /-- Timeline value of the last submission; the first one binds the decoder class. -/
  submitted : ℕ := 1
  requests : ℕ := 0
  /-- History: the decode jobs that were given a surface, oldest first. -/
  attempts : List (Attempt σ) := []

/-- What the driver and the engine answer, and what the units declare. -/
structure Device (υ : Type) where
  /-- HDR declarations of a unit. -/
  parseUnit : υ → VResult HdrStaticMetadata
  /-- The copies out of the picked surface have retired. -/
  copied : ℕ → VResult Unit
  completed : ℕ → VResult ℕ
  waited : ℕ → VResult Unit
  /-- Blocks in error and the error status of a completed picture. -/
  status : ℕ → VResult (ℕ × ℕ)
  vram : ℕ → VResult Unit
  /-- Descriptor and bitstream are written. -/
  written : ℕ → VResult Unit
  submit : ℕ → List SurfaceRef → VResult Unit
  readback : ℕ → ℕ × ℕ → VResult (List UInt8)

/-- An engine that never fails, and units without HDR declarations. -/
def workingDevice (υ : Type) : Device υ where
  parseUnit := fun _ => .ok {}
  copied := fun _ => .ok ()
  completed := fun _ => .ok 0
  waited := fun _ => .ok ()
  status := fun _ => .ok (0, 0)
  vram := fun _ => .ok ()
  written := fun _ => .ok ()
  submit := fun _ _ => .ok ()
  readback := fun _ range => .ok (List.replicate (range.2 - range.1) 0)

variable {υ σ α : Type}

/-- A unit is admitted when its pictures fit the free surfaces, or when the references,
one picture in flight and the held pictures fit the pool. -/
def unitAdmitted (need free : ℕ) (maxReferenced : Option ℕ) (held total : ℕ) : Bool :=
  need ≤ free || maxReferenced.any fun n => n + 1 + held ≤ total

def engineStatusError (blocks error picture : ℕ) : Option String :=
  let code := String.ofList (Nat.toDigits 16 error)
  if error = 0 then none
  else some (s!"NVDEC error_status 0x{code} ({blocks} blocks in error) on picture {picture}: " ++
    "the decoded picture is wrong (malformed bitstream or a stream feature the descriptor " ++
    "does not describe); flush and restart at a key frame")

namespace Session

variable (s : Session σ)

def values : List Picture := s.pictures.entries.map Sigma.snd

/-- Distinct surfaces of unreleased pictures. -/
def held : List ℕ := (s.values.map Picture.surface).dedup

def freeSurfaces (codec : Codec υ σ) (s : Session σ) : List ℕ :=
  (List.range s.surfaces).filter fun i =>
    i ∉ codec.referenced s.codec ∧ ∀ p ∈ s.values, p.surface ≠ i

def create (codec : Codec υ σ) (state : σ) (extra : ℕ) : Session σ where
  codec := state
  surfaces := codec.dpbSize + 2 + extra
  ring := List.replicate ringSlots {}
  surfaceHdr := List.replicate (codec.dpbSize + 2 + extra) {}

def slotAt (k : ℕ) : RingSlot := s.ring.getD k default

def setSlot (k : ℕ) (change : RingSlot → RingSlot) (s : Session σ) : Session σ :=
  { s with ring := s.ring.set k (change (s.slotAt k)) }

/-! ## Display -/

/-- Order of `(key, id)` pairs. -/
def KeyLe (a b : ℤ × ℕ) : Prop := toLex a ≤ toLex b

instance : DecidableRel KeyLe := fun a b => inferInstanceAs (Decidable (toLex a ≤ toLex b))

/-- Pictures leave the sorted reorder list while the codec says so. -/
def bump (ready : ℕ → Bool) : List (ℤ × ℕ) → List ℕ × List (ℤ × ℕ)
  | [] => ([], [])
  | (key, id) :: rest =>
    if ready (rest.length + 1) then
      let (out, left) := bump ready rest
      (id :: out, left)
    else ([], (key, id) :: rest)

def enqueue (codec : Codec υ σ) (id : ℕ) (key : Option ℤ) (s : Session σ) : Session σ :=
  match key with
  | none => { s with display := s.display ++ [id] }
  | some key =>
    let (out, left) := bump (codec.bumpReady s.codec)
      ((s.reorder ++ [(key, id)]).insertionSort KeyLe)
    { s with display := s.display ++ out, reorder := left }

def emit (codec : Codec υ σ) (picture : Picture) (key : Option ℤ) (s : Session σ) : Session σ :=
  enqueue codec s.nextId key
    { s with
      nextId := s.nextId + 1
      shown := s.shown + 1
      pictures := s.pictures.insert s.nextId picture }

/-- End of stream: all waiting pictures are output. -/
def drain : Session σ :=
  { s with
    display := s.display ++ (s.reorder.insertionSort KeyLe).map Prod.snd
    reorder := [] }

/-- The next picture in display order. `none` stands for the panic of the map index. -/
def nextPicture : Option (Option (ℕ × ℕ × PictureInfo) × Session σ) :=
  match s.display with
  | [] => some (none, s)
  | id :: display =>
    (s.pictures.lookup id).map fun p =>
      (some (id, p.timestamp, p.info), { s with display := display })

def unknownPicture (id : ℕ) : VideoError := .invalid s!"unknown picture id {id}"

def pictureHdr (id : ℕ) : VResult HdrStaticMetadata :=
  match s.pictures.lookup id with
  | some p => .ok p.hdr
  | none => .error (unknownPicture id)

def release (id : ℕ) : Prog (Session σ) VideoError Unit := do
  let s ← get
  modify fun s => { s with
    display := s.display.filter (· ≠ id)
    pictures := s.pictures.erase id }
  if id ∈ s.pictures then pure () else throw (unknownPicture id)

def flush (codec : Codec υ σ) (s : Session σ) : Session σ :=
  { s with
    codec := codec.flush s.codec
    failed := none
    resizeNeeded := none
    currentHdr := {}
    pictures := (s.display ++ s.reorder.map Prod.snd).foldl (fun ps id => ps.erase id) s.pictures
    display := []
    reorder := [] }

end Session

/-! ## Requests -/

open Session

def onCodec (p : Prog σ VideoError α) : Prog (Session σ) VideoError α :=
  focus Session.codec (fun codec s => { s with codec := codec }) p

def ask (answer : ℕ → VResult α) : Prog (Session σ) VideoError α := do
  let s ← get
  modify fun s => { s with requests := s.requests + 1 }
  outcome (answer s.requests)

section

variable (codec : Codec υ σ) (device : Device υ)

/-- The status of a completed picture is read once. An error stays until the flush. -/
def checkStatus (k : ℕ) : Prog (Session σ) VideoError Unit := do
  let s ← get
  if codec.statusOffset.isNone ∨ (s.slotAt k).unchecked = false then pure ()
  else do
    modify (setSlot k fun slot => { slot with unchecked := false })
    let (blocks, error) ← ask device.status
    match engineStatusError blocks error (s.slotAt k).picture with
    | none => pure ()
    | some message => do
      modify fun s => { s with failed := some message }
      throw (.bitstream message)

def pollStatus : Prog (Session σ) VideoError Unit := do
  let s ← get
  match s.failed with
  | some message => throw (.bitstream message)
  | none =>
    if codec.statusOffset.isNone then pure ()
    else do
      let done ← ask device.completed
      each (fun k => do
        let s ← get
        onlyIf ((s.slotAt k).unchecked ∧ (s.slotAt k).busyUntil ≤ done) (checkStatus codec device k))
        (List.range ringSlots)

/-! ## Decode jobs -/

/-- The next ring slot, once the picture that last used it is done. -/
def claimSlot : Prog (Session σ) VideoError ℕ := do
  let s ← get
  let k := s.nextRing
  modify fun s => { s with nextRing := (k + 1) % ringSlots }
  let done ← ask device.completed
  onlyIf (done < (s.slotAt k).busyUntil) (ask device.waited)
  checkStatus codec device k
  pure k

/-- The bitstream buffer of the slot grows when the picture does not fit. -/
def stageBits (k len : ℕ) : Prog (Session σ) VideoError Unit := do
  let s ← get
  if (s.slotAt k).bits.all fun size => size < len + 256 then do
    let size := max bitstreamInitial ((len + 0x8ff) / 256 * 256)
    modify (setSlot k fun slot => { slot with bits := none })
    ask device.vram
    modify (setSlot k fun slot => { slot with bits := some size })
  else pure ()

/-- The picture goes to the engine. The result is its timeline value. -/
def submitPicture (k : ℕ) (planes : List SurfaceRef) : Prog (Session σ) VideoError ℕ := do
  ask device.written
  ask fun n => device.submit n planes
  let s ← get
  let value := s.submitted + 1
  modify fun s => setSlot k (fun slot => { slot with
      busyUntil := value
      unchecked := codec.statusOffset.isSome
      picture := s.pictureIndex })
    { s with submitted := value, pictureIndex := (s.pictureIndex + 1) % 2 ^ 32 }
  pure value

def readBack : Option (ℕ × ℕ) → Prog (Session σ) VideoError (Option (List UInt8))
  | none => pure none
  | some range => do
    ask device.waited
    some <$> ask fun n => device.readback n range

/-- Decode into the picked surface. -/
def decodeInto (current : ℕ) (job : DecodeJob) (timestamp : ℕ) (hdr : HdrStaticMetadata) :
    Prog (Session σ) VideoError Unit := do
  modify fun s => { s with attempts := s.attempts ++ [⟨current, s.codec, s.pictures⟩] }
  ask device.copied
  let k ← claimSlot codec device
  stageBits device k job.bitstream.length
  let s ← get
  let planes ← onCodec (codec.build job ⟨job.bitstream.length, s.pictureIndex, current⟩)
  let value ← submitPicture codec device k planes
  let readback ← readBack device job.readback
  onCodec (codec.finish job current readback)
  modify fun s => { s with surfaceHdr := s.surfaceHdr.set current hdr }
  onlyIf job.shown (modify (emit codec ⟨current, job.info, timestamp, value, hdr⟩ job.displayKey))

def decodeJob (job : DecodeJob) (timestamp : ℕ) (hdr : HdrStaticMetadata) :
    Prog (Session σ) VideoError Unit := do
  let s ← get
  match (s.freeSurfaces codec).head? with
  | none => throw (.invalid "no free DPB surface inside an admitted unit")
  | some current => decodeInto codec device current job timestamp hdr

/-- A surface is shown again, with the metadata of the picture in it. -/
def showExisting (surface : ℕ) (info : PictureInfo) (timestamp : ℕ) (s : Session σ) : Session σ :=
  let decodedAt := ((s.values.filter (·.surface = surface)).map Picture.decodedAt).max?.getD
    s.submitted
  emit codec ⟨surface, info, timestamp, decodedAt, s.surfaceHdr.getD surface {}⟩ none s

/-- One round of the job loop; `false` when the codec has no job left. -/
def runJob (timestamp : ℕ) (hdr : HdrStaticMetadata) : Prog (Session σ) VideoError Bool := do
  match ← onCodec codec.nextJob with
  | none => pure false
  | some (.showExisting surface info) => do
    modify (showExisting codec surface info timestamp)
    pure true
  | some (.decode job) => do
    decodeJob codec device job timestamp hdr
    pure true

def runJobs (timestamp : ℕ) (hdr : HdrStaticMetadata) : ℕ → Prog (Session σ) VideoError Unit
  | 0 => pure ()
  | rounds + 1 => do
    if ← runJob codec device timestamp hdr then runJobs timestamp hdr rounds else pure ()

/-! ## Units -/

/-- Admission: the codec has not consumed anything yet. -/
def checkAdmission (data : υ) : Prog (Session σ) VideoError Unit := do
  let s ← get
  let need ← outcome (codec.surfacesNeeded s.codec data)
  let free := (s.freeSurfaces codec).length
  if unitAdmitted need free (codec.maxReferenced s.codec) s.held.length s.surfaces then pure ()
  else throw (.again s!"unit needs {need} free surfaces, {free} free: release pictures first")

def decodeData (data : υ) (timestamp : ℕ) : Prog (Session σ) VideoError Unit := do
  let declared ← outcome (device.parseUnit data)
  modify fun s => { s with currentHdr := s.currentHdr.merge declared }
  checkAdmission codec data
  onCodec (codec.pushUnit data)
  let s ← get
  -- Each job consumes input, so the loop ends within the backlog.
  runJobs codec device timestamp s.currentHdr (codec.backlog s.codec + 1)

def decodeInput (timestamp : ℕ) : Option υ → Prog (Session σ) VideoError Unit
  | none => pure ()
  | some data => decodeData codec device data timestamp

def decodeUnit (data : Option υ) (timestamp flags : ℕ) : Prog (Session σ) VideoError ℕ := do
  pollStatus codec device
  let before ← get
  decodeInput codec device timestamp data
  onlyIf (flags % 2 = 1) (modify drain)
  let after ← get
  if after.shown - before.shown < 2 ^ 32 then pure (after.shown - before.shown)
  else throw (.invalid "unit produced more than 2^32 pictures")

def noteResize (e : VideoError) (s : Session σ) : Session σ :=
  match e with
  | .resize width height _ => { s with resizeNeeded := some (width, height) }
  | _ => s

/-- Submit one unit; no data asks for a drain only. -/
def decode (data : Option υ) (timestamp flags : ℕ) : Prog (Session σ) VideoError ℕ := do
  let s ← get
  match s.resizeNeeded, data with
  | some (w, h), some _ =>
    throw (.invalid (s!"the session needs re-creation at {w}x{h} (NV_VIDEO_E_RESIZE): only an " ++
      "end-of-stream drain is accepted"))
  | _, _ => do
    match ← attempt (decodeUnit codec device data timestamp flags) with
    | .ok n => pure n
    | .error e => do
      modify (noteResize e)
      throw e

end

/-! ## Runs -/

inductive Call (υ : Type) where
  | decode (data : Option υ) (timestamp flags : ℕ)
  | nextPicture
  | release (id : ℕ)
  | pictureHdr (id : ℕ)
  | flush

/-- The state after a call, successful or not. `none` stands for a panic. -/
def perform (codec : Codec υ σ) (device : Device υ) (s : Session σ) : Call υ → Option (Session σ)
  | .decode data timestamp flags => some (exec (decode codec device data timestamp flags) s).2
  | .nextPicture => s.nextPicture.map Prod.snd
  | .release id => some (exec (release id) s).2
  | .pictureHdr _ => some s
  | .flush => some (s.flush codec)

end NvidiaProlapse.Video
