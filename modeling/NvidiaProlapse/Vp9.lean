import NvidiaProlapse.VideoCodec

/-!
# VP9 frames

A unit is split into the frames of a superframe. The uncompressed header of a frame is
read bit by bit; what it changes in the decoder state before it fails stays changed.
Eight reference slots hold surfaces, and a decoded frame replaces those it names. The
probability contexts do not influence which frames are accepted and are left out.
-/
namespace NvidiaProlapse.Vp9

open Programs Video

/-- Contract errors of the header parser, as the plug-in reports them. -/
def bad (message : String) : VideoError := .bitstream s!"VP9: VP9: {message}"

/-! ## Superframes -/

def littleEndian : List UInt8 → ℕ
  | [] => 0
  | b :: bytes => b.toNat + 256 * littleEndian bytes

/-- The frames of a superframe, their sizes read from the index at `pos`. -/
def sliceFrames (data : List UInt8) (mag : ℕ) : ℕ → ℕ → ℕ → VResult (List (List UInt8))
  | 0, _, _ => .ok []
  | frames + 1, pos, off =>
    let size := littleEndian ((data.drop pos).take mag)
    if off + size ≤ data.length then do
      let rest ← sliceFrames data mag frames (pos + mag) (off + size)
      .ok ((data.drop off).take size :: rest)
    else .error (bad "superframe index overruns packet")

def splitSuperframe (data : List UInt8) : VResult (List (List UInt8)) :=
  match data.getLast? with
  | none => .error (bad "empty packet")
  | some last =>
    if last.toNat / 32 ≠ 6 then .ok [data]
    else
      let frames := last.toNat % 8 + 1
      let mag := last.toNat / 8 % 4 + 1
      let index := 2 + mag * frames
      if data.length < index ∨ data[data.length - index]? ≠ some last then .ok [data]
      else sliceFrames data mag frames (data.length - index + 1) 0

/-! ## Headers -/

structure RefSlot where
  surface : Option ℕ := none
  width : ℕ := 0
  height : ℕ := 0
  deriving DecidableEq, Repr, Inhabited

structure FrameHeader where
  showExistingFrame : Bool := false
  frameToShow : ℕ := 0
  frameType : ℕ := 0
  showFrame : Bool := false
  errorResilient : Bool := false
  intraOnly : Bool := false
  refreshFrameFlags : ℕ := 0
  refFrameIdx : List ℕ := [0, 0, 0]
  width : ℕ := 0
  height : ℕ := 0
  frameParallel : Bool := false
  headerSize : ℕ := 0
  uncompressedSize : ℕ := 0
  deriving DecidableEq, Repr

namespace FrameHeader

def isKey (h : FrameHeader) : Bool := h.frameType = 0

def isIntra (h : FrameHeader) : Bool := h.isKey || h.intraOnly

end FrameHeader

structure Vp9State where
  slots : List RefSlot := List.replicate 8 {}
  segEnabled : Bool := false
  segUpdateMap : Bool := false
  color : ℕ × Bool := (0, false)
  bitDepth : ℕ := 8
  deriving DecidableEq, Repr

namespace Vp9State

def slot (st : Vp9State) (i : ℕ) : RefSlot := st.slots.getD i default

def referenced (st : Vp9State) : List ℕ := st.slots.filterMap RefSlot.surface

end Vp9State

/-- The parser reads at a bit position and changes the decoder state as it goes. -/
structure Parsing where
  st : Vp9State
  pos : ℕ := 0

abbrev Parser := Prog Parsing VideoError

def require (c : Prop) [Decidable c] (message : String) : Parser Unit :=
  if c then pure () else throw (bad message)

/-- A bit, most significant first. -/
def bitAt (data : List UInt8) (pos : ℕ) : Option ℕ :=
  data[pos / 8]?.map fun byte => byte.toNat / 2 ^ (7 - pos % 8) % 2

section Header

variable (data : List UInt8)

def bit : Parser ℕ := do
  let p ← get
  match bitAt data p.pos with
  | none => throw (bad "uncompressed header overruns frame")
  | some b => do
    modify fun p => { p with pos := p.pos + 1 }
    pure b

def bits : ℕ → Parser ℕ
  | 0 => pure 0
  | n + 1 => do
    let v ← bits n
    let b ← bit data
    pure (2 * v + b)

def flag : Parser Bool := do
  let b ← bit data
  pure (b ≠ 0)

/-- Bits that the caller does not look at. -/
def skip (n : ℕ) : Parser Unit := do
  let _ ← bits data n
  pure ()

/-- A flag and, if it is set, what it announces. -/
def announced (p : Parser Unit) : Parser Unit := do
  let present ← flag data
  onlyIf present p

def syncCode : Parser Unit := do
  let code ← bits data 24
  require (code = 0x498342) "frame sync code"

def sampleDepth (profile : ℕ) : Parser ℕ :=
  if 2 ≤ profile then do
    let twelve ← flag data
    pure (if twelve then 12 else 10)
  else pure 8

def colorConfig (profile : ℕ) : Parser Unit := do
  let depth ← sampleDepth data profile
  let space ← bits data 3
  require (space ≠ 7) s!"RGB colour space unsupported in profile {profile}"
  let range ← flag data
  modify fun p => { p with st := { p.st with color := (space, range), bitDepth := depth } }

variable (h : FrameHeader)

def frameSize : Parser FrameHeader := do
  let width ← bits data 16
  let height ← bits data 16
  pure { h with width := width + 1, height := height + 1 }

def renderSize : Parser Unit := announced data (skip data 32)

def keyFrame (profile : ℕ) (h : FrameHeader) : Parser FrameHeader := do
  syncCode data
  colorConfig data profile
  let h ← frameSize data h
  renderSize data
  pure { h with refreshFrameFlags := 0xff }

/-- Without a colour configuration: BT.601, studio range, 8 bits. -/
def intraColor (profile : ℕ) : Parser Unit :=
  if 0 < profile then colorConfig data profile
  else modify fun p => { p with st := { p.st with color := (1, false), bitDepth := 8 } }

def intraFrame (profile : ℕ) (h : FrameHeader) : Parser FrameHeader := do
  syncCode data
  intraColor data profile
  let refresh ← bits data 8
  let h ← frameSize data { h with refreshFrameFlags := refresh }
  renderSize data
  pure h

/-- Reference slots, each with a sign bias. -/
def refIndices : ℕ → Parser (List ℕ)
  | 0 => pure []
  | n + 1 => do
    let idx ← bits data 3
    skip data 1
    let rest ← refIndices n
    pure (idx :: rest)

/-- The size of the first reference that is marked, or a coded one. -/
def sizeWithRefs (h : FrameHeader) : List ℕ → Parser FrameHeader
  | [] => frameSize data h
  | idx :: rest => do
    let found ← flag data
    let p ← get
    if found then pure { h with width := (p.st.slot idx).width, height := (p.st.slot idx).height }
    else sizeWithRefs h rest

def interpFilter : Parser Unit := do
  let switchable ← flag data
  onlyIf (!switchable) (skip data 2)

def interFrame : Parser FrameHeader := do
  let refresh ← bits data 8
  let refs ← refIndices data 3
  let h ← sizeWithRefs data { h with refreshFrameFlags := refresh, refFrameIdx := refs } refs
  renderSize data
  let p ← get
  require (∀ idx ∈ refs, (p.st.slot idx).surface.isSome) "inter frame references an empty slot"
  skip data 1
  interpFilter data
  pure h

def intraOnlyFlag : Parser Bool :=
  if h.showFrame then pure false else flag data

def predictedFrame (profile : ℕ) (h : FrameHeader) : Parser FrameHeader := do
  let intraOnly ← intraOnlyFlag data h
  onlyIf (!h.errorResilient) (skip data 2)
  if intraOnly then intraFrame data profile { h with intraOnly := true } else interFrame data h

def frameKind (profile : ℕ) (h : FrameHeader) : Parser FrameHeader :=
  if h.isKey then keyFrame data profile h else predictedFrame data profile h

/-- Whether the frame adapts its context, and which context. -/
def contextFlags : Parser Bool :=
  if h.errorResilient then pure true
  else do
    skip data 1
    flag data

def deltaUpdates : Parser Unit := each (fun _ => announced data (skip data 7)) (List.range 6)

def loopFilter : Parser Unit := do
  skip data 9
  announced data (announced data (deltaUpdates data))

def quantization : Parser Unit := do
  skip data 8
  each (fun _ => announced data (skip data 5)) (List.range 3)

def predictionProbs (temporal : Bool) : Parser Unit :=
  onlyIf temporal (each (fun _ => announced data (skip data 8)) (List.range 3))

def segmentMap : Parser Unit := do
  modify fun p => { p with st := { p.st with segUpdateMap := true } }
  each (fun _ => announced data (skip data 8)) (List.range 7)
  let temporal ← flag data
  predictionProbs data temporal

/-- Eight segments with four features each; the first two are signed. -/
def segmentFeatures : Parser Unit := do
  skip data 1
  each (fun _ => each (fun n => announced data (skip data n)) [9, 7, 2, 0]) (List.range 8)

def segmentation : Parser Unit := do
  modify fun p => { p with st := { p.st with segUpdateMap := false } }
  let enabled ← flag data
  modify fun p => { p with st := { p.st with segEnabled := enabled } }
  onlyIf enabled (announced data (segmentMap data))
  onlyIf enabled (announced data (segmentFeatures data))

def minLog2 (sbCols : ℕ) : ℕ := ((List.range 16).find? fun k => sbCols ≤ 64 * 2 ^ k).getD 16

def maxLog2 (sbCols : ℕ) : ℕ := ((List.range 16).find? fun k => sbCols / 2 ^ (k + 1) < 4).getD 16

/-- Increments of the number of tile columns, up to a bound. -/
def tileColumns : ℕ → Parser Unit
  | 0 => pure ()
  | n + 1 => announced data (tileColumns n)

def tileInfo (width : ℕ) : Parser Unit := do
  let sbCols := (width + 63) / 64
  tileColumns data (maxLog2 sbCols - minLog2 sbCols)
  announced data (skip data 1)

/-- The boolean decoder refuses a first byte of 128 or more: its marker bit is set. -/
def compressedHeader : Parser FrameHeader := do
  let size ← bits data 16
  require (size ≠ 0) "compressed header size 0"
  let p ← get
  let start := (p.pos + 7) / 8
  require (start + size ≤ data.length) "compressed header overruns frame"
  require ((data.getD start 0).toNat < 128) "compressed header marker bit set"
  pure { h with headerSize := size, uncompressedSize := start }

def existingFrame : Parser FrameHeader := do
  let idx ← bits data 3
  let p ← get
  require (p.st.slot idx).surface.isSome "show_existing_frame of an empty slot"
  pure { showExistingFrame := true, frameToShow := idx }

def codedFrame (profile : ℕ) : Parser FrameHeader := do
  let frameType ← bit data
  let showFrame ← flag data
  let errorResilient ← flag data
  let h ← frameKind data profile
    { frameType := frameType, showFrame := showFrame, errorResilient := errorResilient }
  let frameParallel ← contextFlags data h
  skip data 2
  loopFilter data
  quantization data
  segmentation data
  tileInfo data h.width
  compressedHeader data { h with frameParallel := frameParallel }

def headerProfile : Parser ℕ := do
  let low ← bit data
  let high ← bit data
  require (low + 2 * high = 0 ∨ low + 2 * high = 2)
    s!"profile {low + 2 * high} unsupported (4:2:0 profiles 0 and 2 only)"
  pure (low + 2 * high)

def parse : Parser FrameHeader := do
  let marker ← bits data 2
  require (marker = 2) "frame marker"
  let profile ← headerProfile data
  let existing ← flag data
  if existing then existingFrame data else codedFrame data profile

end Header

/-! ## The plug-in -/

structure Vp9Decoder where
  st : Vp9State := {}
  frames : List (List UInt8) := []
  current : Option FrameHeader := none
  /-- Size of the last picture that wrote a segment map; it survives a flush. -/
  segExtent : Option (ℕ × ℕ) := none
  segExtentChange : Bool := false
  max : ℕ × ℕ
  bitDepth : ℕ
  deriving DecidableEq, Repr

namespace Vp9Decoder

variable {α : Type}

def onHeader (p : Parser α) : Prog Vp9Decoder VideoError α :=
  focus (fun s => { st := s.st }) (fun p s => { s with st := p.st }) p

/-- Profile from the first byte. -/
def profile : List UInt8 → VResult ℕ
  | [] => .error (.bitstream "VP9: empty frame")
  | b :: _ =>
    if b.toNat / 64 ≠ 2 then .error (.bitstream "VP9: frame marker")
    else .ok (b.toNat / 32 % 2 + 2 * (b.toNat / 16 % 2))

variable (s : Vp9Decoder)

def sessionProfile : ℕ := if s.bitDepth = 8 then 0 else 2

/-- The frames that will be decoded; frames of the other profile are refused. -/
def countFrames (s : Vp9Decoder) : List (List UInt8) → VResult ℕ
  | [] => .ok 0
  | frame :: frames => do
    let profile ← profile frame
    if profile ≠ s.sessionProfile then
      .error (.unsupported (s!"VP9 profile {profile} in a {s.bitDepth}-bit session (profile 0 = " ++
        "8-bit, profile 2 = 10-bit 4:2:0; create the session with the stream's bit depth)"))
    else do
      let n ← countFrames s frames
      .ok (if bitAt frame 4 = some 0 then n + 1 else n)

def surfacesNeeded (data : List UInt8) : VResult ℕ := do
  let frames ← splitSuperframe data
  countFrames s frames

def pushUnit (data : List UInt8) : Prog Vp9Decoder VideoError Unit := do
  let frames ← outcome (splitSuperframe data)
  modify fun s => { s with frames := s.frames ++ frames }

def colorOf : ℕ → ℕ × ℕ × ℕ
  | 1 => (6, 6, 6)
  | 2 => (1, 1, 1)
  | 3 => (6, 6, 6)
  | 4 => (7, 7, 7)
  | 5 => (9, 14, 9)
  | _ => (2, 2, 2)

def info (keyframe : Bool) (width height : ℕ) : PictureInfo :=
  let (primaries, transfer, matrix) := colorOf s.st.color.1
  { width := width
    height := height
    crop := (0, 0, width, height)
    bitDepth := s.st.bitDepth
    colorPrimaries := primaries
    transfer := transfer
    matrix := matrix
    fullRange := s.st.color.2
    keyframe := keyframe }

/-- Symbol counts in the descriptor. -/
def counts : ℕ × ℕ := (0x1800, 0x1800 + 13264)

variable (h : FrameHeader)

def jobOf (frame : List UInt8) : DecodeJob where
  info := s.info h.isKey h.width h.height
  shown := h.showFrame
  displayKey := none
  bitstream := frame.drop (h.uncompressedSize + h.headerSize)
  readback := if h.errorResilient ∨ h.frameParallel then none else some counts

def showExisting : Prog Vp9Decoder VideoError (Option Job) := do
  let s ← get
  match (s.st.slot h.frameToShow).surface with
  | none => throw (.bitstream "VP9: show_existing of an empty slot")
  | some surface => pure (some (.showExisting surface
      (s.info false (s.st.slot h.frameToShow).width (s.st.slot h.frameToShow).height)))

/-- A coded size change after a segment map was written. -/
def extentChanged : Bool := s.segExtent.any (· ≠ (h.width, h.height))

def offer (frame : List UInt8) : Prog Vp9Decoder VideoError (Option Job) := do
  let s ← get
  if h.width > s.max.1 ∨ h.height > s.max.2 then
    throw (tooLarge "VP9" h.width h.height s.max h.isKey)
  else do
    modify fun s => { s with segExtentChange := s.extentChanged h && !h.isKey }
    if s.extentChanged h ∧ h.isKey then
      throw (.resize h.width h.height (s!"VP9 key frame changes the coded size to " ++
        s!"{h.width}x{h.height} after segment maps were written: a new session starts from " ++
        "zeroed maps"))
    else if frame.length < h.uncompressedSize + h.headerSize then
      throw (.bitstream "VP9: headers overrun frame")
    else do
      modify fun s => { s with current := some h }
      pure (some (.decode (s.jobOf h frame)))

def takeFrame (frame : List UInt8) : Prog Vp9Decoder VideoError (Option Job) := do
  let h ← onHeader (parse frame)
  let s ← get
  if s.st.bitDepth ≠ s.bitDepth then
    throw (.unsupported s!"VP9 {s.st.bitDepth}-bit frame in a {s.bitDepth}-bit session")
  else if h.showExistingFrame then showExisting h else offer h frame

/-- One-byte zero frames are skipped. -/
def nextJobFrom : List (List UInt8) → Prog Vp9Decoder VideoError (Option Job)
  | [] => pure none
  | frame :: frames => do
    modify fun s => { s with frames := frames }
    if frame = [0] then nextJobFrom frames else takeFrame frame

def nextJob : Prog Vp9Decoder VideoError (Option Job) := do
  let s ← get
  nextJobFrom s.frames

/-- References of an inter frame are at most twice as large and 16 times as small. -/
def scalable (st : Vp9State) (h : FrameHeader) (idx : ℕ) : Bool :=
  let slot := st.slot idx
  slot.width ≤ 2 * h.width ∧ slot.height ≤ 2 * h.height ∧ h.width ≤ 16 * slot.width ∧
    h.height ≤ 16 * slot.height

def checkScale (st : Vp9State) (h : FrameHeader) : VResult Unit :=
  if h.isIntra then .ok ()
  else
    match h.refFrameIdx.find? fun idx => !scalable st h idx with
    | none => .ok ()
    | some idx =>
      let slot := st.slot idx
      .error (.unsupported (s!"VP9 reference {slot.width}x{slot.height} outside the 2x/16x scale " ++
        s!"range of {h.width}x{h.height}"))

/-- The surfaces of the three references, then the target. -/
def planes (st : Vp9State) (h : FrameHeader) (current : ℕ) : List SurfaceRef :=
  (h.refFrameIdx.map fun idx =>
    .session (if h.isKey then current else (st.slot idx).surface.getD current)) ++ [.session current]

def build (ctx : BuildContext) : Prog Vp9Decoder VideoError (List SurfaceRef) := do
  let s ← get
  match s.current with
  | none => throw (.invalid "VP9 build without a parsed frame")
  | some h => do
    outcome (checkScale s.st h)
    if s.segExtentChange then
      throw (.unsupported ("VP9 coded size change on a non-key picture after segment maps were " ++
        "written (libvpx zeroes both maps at every size change): the engine's handling of a " ++
        "map written at the old extent is not established"))
    else pure (planes s.st h ctx.current)

/-- The frame replaces the slots it refreshes. -/
def refreshSlots (surface : ℕ) (st : Vp9State) : Vp9State :=
  { st with
    slots := st.slots.mapIdx fun i slot =>
      if h.refreshFrameFlags.testBit i then ⟨some surface, h.width, h.height⟩ else slot }

def finish (current : ℕ) (readback : Option (List UInt8)) : Prog Vp9Decoder VideoError Unit := do
  let s ← get
  modify fun s => { s with current := none }
  match s.current with
  | none => throw (.invalid "VP9 finish without a frame")
  | some h => do
    onlyIf (s.st.segEnabled ∧ s.st.segUpdateMap)
      (modify fun s => { s with segExtent := some (h.width, h.height) })
    if !h.errorResilient ∧ !h.frameParallel ∧ !(readback.any fun bytes => 13264 ≤ bytes.length) then
      throw (bad "adaptation needs the engine counts")
    else modify fun s => { s with st := refreshSlots h current s.st }

def flush : Vp9Decoder :=
  { segExtent := s.segExtent, max := s.max, bitDepth := s.bitDepth }

end Vp9Decoder

def codec : Codec (List UInt8) Vp9Decoder where
  dpbSize := 8
  surfacesNeeded := Vp9Decoder.surfacesNeeded
  pushUnit := Vp9Decoder.pushUnit
  nextJob := Vp9Decoder.nextJob
  build := fun _ ctx => Vp9Decoder.build ctx
  finish := fun _ current readback => Vp9Decoder.finish current readback
  referenced := fun s => s.st.referenced
  flush := Vp9Decoder.flush
  backlog := fun s => s.frames.length

/-- A decoder as the session creates it. -/
def fresh (max : ℕ × ℕ) (bitDepth : ℕ) : Vp9Decoder := { max := max, bitDepth := bitDepth }

end NvidiaProlapse.Vp9
