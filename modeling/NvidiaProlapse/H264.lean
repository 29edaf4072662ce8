import NvidiaProlapse.VideoCodec
import Mathlib.Data.List.ReduceOption

/-!
# The H.264 front end

An access unit is a list of NAL units, each given by what the parsers read from it: a
slice header is a function of the parameter sets it names. Positions of the DPB and
colocated slots are list indices. Programs keep what they changed when they fail.
-/
namespace NvidiaProlapse.H264

open Programs Video

/-- Colocated slots: 16 references and the current picture. -/
def maxSlots : ℕ := 17

def dpbPositions : ℕ := 16

structure Vui where
  colourPrimaries : ℕ := 2
  transferCharacteristics : ℕ := 2
  matrixCoefficients : ℕ := 2
  fullRange : Bool := false
  maxNumReorderFrames : Option ℕ := none
  maxDecFrameBuffering : Option ℕ := none
  /-- What the parser accepts. -/
  reorder_le : ∀ n ∈ maxNumReorderFrames, n ≤ 16 := by decide
  buffering_le : ∀ n ∈ maxDecFrameBuffering, n ≤ 16 := by decide

structure Sps where
  id : ℕ
  chromaFormatIdc : ℕ := 1
  bitDepthLumaMinus8 : ℕ := 0
  bitDepthChromaMinus8 : ℕ := 0
  log2MaxFrameNumMinus4 : ℕ := 0
  picOrderCntType : ℕ := 0
  log2MaxPocLsbMinus4 : ℕ := 0
  offsetForNonRefPic : ℤ := 0
  offsetForTopToBottomField : ℤ := 0
  offsetForRefFrame : List ℤ := []
  maxNumRefFrames : ℕ := 0
  gapsInFrameNumAllowed : Bool := false
  picWidthInMbs : ℕ
  picHeightInMapUnits : ℕ
  frameMbsOnly : Bool := true
  crop : ℕ × ℕ × ℕ × ℕ := (0, 0, 0, 0)
  vui : Vui := {}
  /-- What the parser accepts. -/
  refFrames_le : maxNumRefFrames ≤ 16 := by decide

namespace Sps

def maxFrameNum (sps : Sps) : ℕ := 2 ^ (sps.log2MaxFrameNumMinus4 + 4)

def width (sps : Sps) : ℕ := sps.picWidthInMbs * 16

def height (sps : Sps) : ℕ :=
  (if sps.frameMbsOnly then 1 else 2) * sps.picHeightInMapUnits * 16

def dpbFrames (sps : Sps) : ℕ :=
  max (max (sps.vui.maxDecFrameBuffering.getD 16) sps.maxNumRefFrames) 1

/-- Pictures that display may hold back. -/
def maxNumReorder (sps : Sps) : ℕ := sps.vui.maxNumReorderFrames.getD sps.dpbFrames

end Sps

structure Pps where
  id : ℕ
  spsId : ℕ

/-- Memory management control operations. -/
inductive Mmco where
  | shortUnused (differenceMinus1 : ℕ)
  | longUnused (longTermPicNum : ℕ)
  | shortToLong (differenceMinus1 longTermFrameIdx : ℕ)
  | maxLongTermIdx (plus1 : ℕ)
  | reset
  | currentToLong (longTermFrameIdx : ℕ)
  deriving DecidableEq, Repr

structure SliceHeader where
  idr : Bool
  nalRefIdc : ℕ
  frameNum : ℕ
  fieldPic : Bool := false
  bottomField : Bool := false
  picOrderCntLsb : ℕ := 0
  deltaPicOrderCntBottom : ℤ := 0
  deltaPicOrderCnt : ℤ × ℤ := (0, 0)
  redundantPicCnt : ℕ := 0
  longTermReferenceFlag : Bool := false
  mmco : Option (List Mmco) := none
  deriving DecidableEq, Repr

/-- A slice NAL unit: the PPS it names and the header that follows from the parameter sets. -/
structure Slice where
  bytes : List UInt8
  ppsId : VResult ℕ
  header : Sps → Pps → VResult SliceHeader

inductive Nal where
  | sps (parsed : VResult Sps)
  | pps (parsed : (ℕ → Option Sps) → VResult Pps)
  | slice (slice : Slice)
  | subsetSps
  | partition
  | extension
  | other

/-- Is this the type of a slice (1 or 5)? -/
def Nal.isSlice : Nal → Bool
  | .slice _ => true
  | _ => false

structure RefPic where
  surface : Option ℕ
  slot : Option ℕ
  frameNum : ℕ
  longTermIdx : Option ℕ
  poc : ℤ × ℤ
  nonExisting : Bool
  deriving DecidableEq, Repr

def RefPic.frameNumWrap (r : RefPic) (curFrameNum max : ℕ) : ℤ :=
  if r.frameNum > curFrameNum then (r.frameNum : ℤ) - max else r.frameNum

abbrev Dpb := List (Option RefPic)

structure PocState where
  prevMsb : ℤ := 0
  prevLsb : ℤ := 0
  prevFrameNumOffset : ℤ := 0
  prevFrameNum : ℕ := 0
  prevRefFrameNum : ℕ := 0
  prevMmco5 : Bool := false
  deriving DecidableEq, Repr

structure Decoder where
  newH264 : Bool
  sps : ℕ → Option Sps := fun _ => none
  pps : ℕ → Option Pps := fun _ => none
  dpb : Dpb := List.replicate dpbPositions none
  maxLtIdx : Option ℕ := none
  poc : PocState := {}
  prevSlot : ℕ := 0
  errSlot : ℕ := 0
  seenIdr : Bool := false
  slotSurface : List (Option ℕ) := List.replicate maxSlots none
  pictureCount : ℕ := 0
  epoch : ℕ := 0

structure Info where
  width : ℕ
  height : ℕ
  crop : ℕ × ℕ × ℕ × ℕ
  colour : ℕ × ℕ × ℕ × Bool
  keyframe : Bool
  deriving DecidableEq, Repr

/-- The slices of one picture. -/
structure Coded where
  hdr : SliceHeader
  ppsId : ℕ
  sps : Sps
  bitstream : List UInt8

/-- A parsed picture that waits for its surface. -/
structure Begun where
  pic : Coded
  poc : ℤ × ℤ
  msb : ℤ
  displayKey : ℤ
  info : Info

structure PictureJob where
  newH264 : Bool
  slot : ℕ
  surface : ℕ
  pictureIndex : ℕ
  /-- Surface of each colocated slot; the others get the current target. -/
  slotSurfaces : List (Option ℕ)
  errSlot : ℕ
  maxNumReorder : ℕ

namespace Decoder

variable (d : Decoder)

/-- The pictures in the DPB. -/
def refs : List RefPic := d.dpb.reduceOption

def referencedSurfaces : List ℕ := d.refs.filterMap RefPic.surface

def flush : Decoder :=
  { d with dpb := List.replicate dpbPositions none, maxLtIdx := none, seenIdr := false }

/-! ## Parameter sets and slices -/

def tables (ppsId : ℕ) : Option (Sps × Pps) := do
  let pps ← d.pps ppsId
  let sps ← d.sps pps.spsId
  pure (sps, pps)

/-- Parameter sets are stored; `true` when the unit was one. -/
def parameterSet : Nal → Prog Decoder VideoError Bool
  | .sps parsed => do
    let s ← outcome parsed
    modify fun d => { d with sps := Function.update d.sps s.id (some s) }
    pure true
  | .pps parsed => do
    let d ← get
    let p ← outcome (parsed d.sps)
    modify fun d => { d with pps := Function.update d.pps p.id (some p) }
    pure true
  | .subsetSps => throw (.unsupported "H.264 subset SPS (SVC/MVC)")
  | _ => pure false

def configure (nals : List Nal) : Prog Decoder VideoError Unit :=
  each (fun nal => ignore (parameterSet nal)) nals

/-- The header of a slice, with the PPS and the SPS it names. -/
def parseSliceHeader (slice : Slice) : VResult (ℕ × Sps × SliceHeader) := do
  let ppsId ← slice.ppsId
  match d.tables ppsId with
  | none => .error (.bitstream s!"slice references missing PPS {ppsId} (or its SPS)")
  | some (sps, pps) => do
    let hdr ← slice.header sps pps
    pure (ppsId, sps, hdr)

def startCode (bytes : List UInt8) : List UInt8 := [0, 0, 1] ++ bytes

/-- A slice starts the picture of the access unit or continues it. -/
def addSlice (pic : Option Coded) (slice : Slice) : VResult Coded := do
  let (ppsId, sps, hdr) ← d.parseSliceHeader slice
  if hdr.redundantPicCnt > 0 then
    .error (.unsupported "H.264 redundant pictures (redundant_pic_cnt > 0)")
  else match pic with
    | none => pure ⟨hdr, ppsId, sps, startCode slice.bytes⟩
    | some p =>
      if hdr.frameNum ≠ p.hdr.frameNum ∨ ppsId ≠ p.ppsId ∨ hdr.fieldPic ≠ p.hdr.fieldPic ∨
          hdr.bottomField ≠ p.hdr.bottomField ∨ hdr.idr ≠ p.hdr.idr ∨
          hdr.picOrderCntLsb ≠ p.hdr.picOrderCntLsb then
        .error (.unsupported "more than one H.264 picture in one access unit")
      else pure { p with bitstream := p.bitstream ++ startCode slice.bytes }

def collect : List Nal → Option Coded → Prog Decoder VideoError (Option Coded)
  | [], pic => pure pic
  | nal :: nals, pic => do
    if ← parameterSet nal then collect nals pic
    else match nal with
      | .slice slice => do
        let d ← get
        let pic ← outcome (d.addSlice pic slice)
        collect nals (some pic)
      | .partition => throw (.unsupported "H.264 data partitioning (NAL types 2-4)")
      | .extension => throw (.unsupported "H.264 MVC/SVC NAL units")
      | _ => collect nals pic

/-! ## Picture order count -/

variable (h : SliceHeader)

def frameNumOffset (maxFrameNum : ℕ) : ℤ :=
  let prev := if d.poc.prevMmco5 then 0 else d.poc.prevFrameNumOffset
  if h.idr then 0
  else if d.poc.prevFrameNum > h.frameNum then prev + maxFrameNum
  else prev

/-- Expected POC of type 1 from the number of reference frames so far. -/
def expectedPoc (offsets : List ℤ) (abs : ℤ) : ℤ :=
  if abs > 0 then
    let cycle : ℤ := offsets.length
    (abs - 1) / cycle * offsets.sum + (offsets.take (((abs - 1) % cycle).toNat + 1)).sum
  else 0

/-- Field order counts of a frame and PicOrderCntMsb. -/
def computePoc (sps : Sps) : (ℤ × ℤ) × ℤ :=
  match sps.picOrderCntType with
  | 0 =>
    let prevMsb := if h.idr then 0 else d.poc.prevMsb
    let prevLsb := if h.idr then 0 else d.poc.prevLsb
    let maxLsb : ℤ := 2 ^ (sps.log2MaxPocLsbMinus4 + 4)
    let lsb : ℤ := h.picOrderCntLsb
    let msb :=
      if lsb < prevLsb ∧ prevLsb - lsb ≥ maxLsb / 2 then prevMsb + maxLsb
      else if lsb > prevLsb ∧ lsb - prevLsb > maxLsb / 2 then prevMsb - maxLsb
      else prevMsb
    ((msb + lsb, msb + lsb + h.deltaPicOrderCntBottom), msb)
  | 1 =>
    let abs := if sps.offsetForRefFrame = [] then 0
      else d.frameNumOffset h sps.maxFrameNum + h.frameNum
    let abs := if h.nalRefIdc = 0 ∧ abs > 0 then abs - 1 else abs
    let expected := expectedPoc sps.offsetForRefFrame abs
    let expected := if h.nalRefIdc = 0 then expected + sps.offsetForNonRefPic else expected
    let top := expected + h.deltaPicOrderCnt.1
    ((top, top + sps.offsetForTopToBottomField + h.deltaPicOrderCnt.2), 0)
  | _ =>
    let fno := d.frameNumOffset h sps.maxFrameNum
    let t := if h.idr then 0
      else if h.nalRefIdc = 0 then 2 * (fno + h.frameNum) - 1
      else 2 * (fno + h.frameNum)
    ((t, t), 0)

/-! ## References -/

def setDpb (i : ℕ) (entry : Option RefPic) (d : Decoder) : Decoder :=
  { d with dpb := d.dpb.set i entry }

/-- A new reference takes the first free position. -/
def insertRef (r : RefPic) : Prog Decoder VideoError Unit := do
  let d ← get
  match d.dpb.findIdx? Option.isNone with
  | some i => modify (setDpb i (some r))
  | none => throw (.bitstream "H.264 DPB overflow (more than 16 reference frames)")

/-- Short-term references with their position and FrameNumWrap. -/
def shortTerm (curFrameNum max : ℕ) : List (ℕ × ℤ) :=
  d.dpb.zipIdx.filterMap fun (e, i) =>
    (e.filter (·.longTermIdx.isNone)).map fun r => (i, r.frameNumWrap curFrameNum max)

/-- The first one with the smallest FrameNumWrap. -/
def oldest : List (ℕ × ℤ) → Option (ℕ × ℤ)
  | [] => none
  | c :: cs =>
    match oldest cs with
    | some e => if e.2 < c.2 then some e else some c
    | none => some c

def slidingWindow (sps : Sps) (curFrameNum : ℕ) : Prog Decoder VideoError Unit := do
  let d ← get
  if d.refs.length ≥ max sps.maxNumRefFrames 1 then
    match oldest (d.shortTerm curFrameNum sps.maxFrameNum) with
    | some (i, _) => modify (setDpb i none)
    | none => throw (.bitstream "sliding window with no short-term reference to remove")
  else pure ()

/-- An inferred frame has no picture; it moves frame_num and its offset on. -/
def gapFrame (sps : Sps) (f : ℕ) : Prog Decoder VideoError Unit := do
  slidingWindow sps f
  insertRef ⟨none, none, f, none, (0, 0), true⟩
  modify fun d => { d with poc := { d.poc with
    prevRefFrameNum := f
    prevFrameNumOffset :=
      if d.poc.prevFrameNum > f then d.poc.prevFrameNumOffset + sps.maxFrameNum
      else d.poc.prevFrameNumOffset
    prevFrameNum := f
    prevMmco5 := false } }

/-- The frame numbers between the last reference and the picture. -/
def gapFrames (prev frameNum max : ℕ) : List ℕ :=
  (List.range ((frameNum + max - (prev + 1) % max) % max)).map fun i => (prev + 1 + i) % max

def fillFrameNumGap (sps : Sps) : Prog Decoder VideoError Unit := do
  let d ← get
  let prev := d.poc.prevRefFrameNum
  let frameNum := h.frameNum
  if frameNum = prev ∨ frameNum = (prev + 1) % sps.maxFrameNum then pure ()
  else if sps.gapsInFrameNumAllowed then each (gapFrame sps) (gapFrames prev frameNum sps.maxFrameNum)
  else throw (.bitstream (s!"frame_num gap {prev} -> {frameNum} without " ++
    "gaps_in_frame_num_value_allowed_flag (lost pictures)"))

/-! ## First phase -/

/-- What the front end does not support. -/
def checkSupport (sps : Sps) : VResult Unit :=
  let idc := sps.chromaFormatIdc
  let width := sps.width
  let height := sps.height
  if h.fieldPic then
    .error (.unsupported ("H.264 field pictures (PAFF): field-pair DPB marking and the legacy " ++
      "field setup are not implemented"))
  else if idc ≠ 1 then
    .error (.unsupported (s!"H.264 chroma_format_idc {idc} (only 4:2:0: the session's surfaces " ++
      "and copy-out are NV12/P010 4:2:0, so 4:2:2/4:4:4 needs a new surface layout and copy path)"))
  else if sps.bitDepthLumaMinus8 ≠ 0 ∨ sps.bitDepthChromaMinus8 ≠ 0 then
    .error (.unsupported ("H.264 bit depth above 8 (the H.264 codec creates 8-bit surfaces -- the " ++
      "session passes no bit depth to it -- and there is no 10-bit setup path)"))
  else if width > 4096 ∨ height > 4096 then
    .error (.unsupported s!"H.264 picture {width}x{height} above 4096x4096")
  else .ok ()

/-- An IDR picture drops all references and starts an epoch. -/
def startIdr : Decoder :=
  { d with
    dpb := List.replicate dpbPositions none
    maxLtIdx := none
    seenIdr := true
    epoch := d.epoch + 1 }

def prepareRefs (sps : Sps) : Prog Decoder VideoError Unit :=
  if h.idr then modify startIdr else fillFrameNumGap h sps

def hasReset : Bool := h.mmco.any (·.contains .reset)

/-- The picture after its references were prepared: POC, epoch and metadata. -/
def beginPicture (pic : Coded) : Prog Decoder VideoError Begun := do
  let d ← get
  let (poc, msb) := d.computePoc pic.hdr pic.sps
  onlyIf (hasReset pic.hdr) (modify fun d => { d with epoch := d.epoch + 1 })
  let d ← get
  let key := if hasReset pic.hdr then 0 else min poc.1 poc.2
  let vui := pic.sps.vui
  pure {
    pic := pic
    poc := poc
    msb := msb
    displayKey := (d.epoch : ℤ) * 2 ^ 32 + key
    info := {
      width := pic.sps.width
      height := pic.sps.height
      crop := pic.sps.crop
      colour := (vui.colourPrimaries, vui.transferCharacteristics, vui.matrixCoefficients,
        vui.fullRange)
      keyframe := pic.hdr.idr } }

/-- First phase: parse, prepare the references, compute the POC. -/
def begin (au : List Nal) : Prog Decoder VideoError (Option Begun) := do
  match ← collect au none with
  | none => pure none
  | some pic => do
    outcome (checkSupport pic.hdr pic.sps)
    let d ← get
    if pic.hdr.idr = false ∧ d.seenIdr = false then
      throw (.bitstream "H.264 stream does not start with an IDR picture")
    else do
      prepareRefs pic.hdr pic.sps
      let b ← beginPicture pic
      pure (some b)

/-! ## Marking -/

def findShort (picNum : ℤ) (curFrameNum max : ℕ) : Option ℕ :=
  d.dpb.findIdx? fun e =>
    e.any fun r => r.longTermIdx.isNone && r.frameNumWrap curFrameNum max = picNum

def findLong (idx : ℕ) : Option ℕ :=
  d.dpb.findIdx? fun e => e.any fun r => r.longTermIdx = some idx

/-- Entries with the property leave. -/
def dropRefs (p : RefPic → Bool) (d : Decoder) : Decoder :=
  { d with dpb := d.dpb.map fun e => e.filter fun r => !p r }

/-- What the operations decided about the current picture. -/
structure Marking where
  mmco5 : Bool := false
  curLt : Option ℕ := none
  deriving DecidableEq, Repr

def aboveMax (idx : ℕ) : Bool := d.maxLtIdx.all fun m => m < idx

/-- References above a new maximum leave. -/
def capLong (newMax : Option ℕ) (d : Decoder) : Decoder :=
  dropRefs (fun r => r.longTermIdx.any fun i => newMax.all fun m => m < i)
    { d with maxLtIdx := newMax }

def setLong (i idx : ℕ) (d : Decoder) : Decoder :=
  setDpb i ((d.dpb.getD i none).map fun r => { r with longTermIdx := some idx }) d

/-- A long-term index is taken from the reference that has it. -/
def freeLong (idx : ℕ) (target : Option ℕ) : Prog Decoder VideoError Unit := do
  let d ← get
  match d.findLong idx with
  | some j => onlyIf (some j ≠ target) (modify (setDpb j none))
  | none => pure ()

def applyMmco (frameNum max : ℕ) (m : Marking) : Mmco → Prog Decoder VideoError Marking
  | .shortUnused diff => do
    let d ← get
    let x : ℤ := frameNum - (diff + 1)
    match d.findShort x frameNum max with
    | some i => do
      modify (setDpb i none)
      pure m
    | none => throw (.bitstream s!"MMCO1 on missing PicNum {x}")
  | .longUnused n => do
    let d ← get
    match d.findLong n with
    | some i => do
      modify (setDpb i none)
      pure m
    | none => throw (.bitstream s!"MMCO2 on missing LongTermPicNum {n}")
  | .shortToLong diff idx => do
    let d ← get
    let x : ℤ := frameNum - (diff + 1)
    if d.aboveMax idx then
      throw (.bitstream "MMCO3 LongTermFrameIdx above MaxLongTermFrameIdx")
    else do
      let target := d.findShort x frameNum max
      freeLong idx target
      match target with
      | some i => do
        modify (setLong i idx)
        pure m
      | none => throw (.bitstream s!"MMCO3 on missing PicNum {x}")
  | .maxLongTermIdx plus1 => do
    modify (capLong (if plus1 = 0 then none else some (plus1 - 1)))
    pure m
  | .reset => do
    modify fun d => { d with dpb := List.replicate dpbPositions none, maxLtIdx := none }
    pure { m with mmco5 := true }
  | .currentToLong idx => do
    let d ← get
    if d.aboveMax idx then
      throw (.bitstream "MMCO6 LongTermFrameIdx above MaxLongTermFrameIdx")
    else do
      modify (dropRefs fun r => r.longTermIdx = some idx)
      pure { m with curLt := some idx }

def applyMmcos (frameNum max : ℕ) : List Mmco → Marking → Prog Decoder VideoError Marking
  | [], m => pure m
  | op :: ops, m => do
    let m ← applyMmco frameNum max m op
    applyMmcos frameNum max ops m

/-- The decisions about the references before the current picture joins them. -/
def markRefs (sps : Sps) : Prog Decoder VideoError Marking := do
  if h.idr then do
    modify fun d => { d with maxLtIdx := if h.longTermReferenceFlag then some 0 else none }
    pure { curLt := if h.longTermReferenceFlag then some 0 else none }
  else match h.mmco with
    | some ops => applyMmcos h.frameNum sps.maxFrameNum ops {}
    | none => do
      slidingWindow sps h.frameNum
      pure {}

/-- POC of a picture after MMCO5 counts from zero. -/
def rebase (poc : ℤ × ℤ) : ℤ × ℤ := (poc.1 - min poc.1 poc.2, poc.2 - min poc.1 poc.2)

/-- The current picture joins the references. -/
def insertCurrent (sps : Sps) (m : Marking) (poc : ℤ × ℤ) (surface slot : ℕ) :
    Prog Decoder VideoError Unit := do
  let d ← get
  let n := d.refs.length
  let frames := n + 1
  let maximum := sps.maxNumRefFrames
  if n ≥ max sps.maxNumRefFrames 1 then
    throw (.bitstream
      s!"reference marking leaves {frames} frames with max_num_ref_frames {maximum}")
  else
    insertRef ⟨some surface, some slot, if m.mmco5 then 0 else h.frameNum, m.curLt, poc, false⟩

/-- POC and frame_num state for the next picture. -/
def updatePoc (sps : Sps) (m : Marking) (poc : ℤ × ℤ) (msb : ℤ) (d : Decoder) :
    Decoder :=
  let fno := if sps.picOrderCntType = 0 then 0 else d.frameNumOffset h sps.maxFrameNum
  let st := d.poc
  let st := if h.nalRefIdc = 0 then st else { st with
    prevMsb := if m.mmco5 then 0 else msb
    prevLsb := if m.mmco5 then poc.1 else h.picOrderCntLsb
    prevRefFrameNum := if m.mmco5 then 0 else h.frameNum }
  { d with poc := { st with
    prevMmco5 := m.mmco5
    prevFrameNumOffset := if m.mmco5 then 0 else fno
    prevFrameNum := if m.mmco5 then 0 else h.frameNum } }

def mark (sps : Sps) (poc : ℤ × ℤ) (msb : ℤ) (surface slot : ℕ) :
    Prog Decoder VideoError Unit := do
  if h.nalRefIdc = 0 then modify (updatePoc h sps {} poc msb)
  else do
    let m ← markRefs h sps
    let poc := if m.mmco5 then rebase poc else poc
    insertCurrent h sps m poc surface slot
    modify (updatePoc h sps m poc msb)

/-! ## Second phase -/

/-- The slot of a surface stays with it; a new surface takes an unassigned slot, else one
that no reference holds. `none` stands for the panic of the search. -/
def colocatedSlot (surface : ℕ) : Option ℕ :=
  match d.slotSurface.findIdx? (· = some surface) with
  | some s => some s
  | none =>
    match d.slotSurface.findIdx? Option.isNone with
    | some s => some s
    | none => (List.range maxSlots).find? fun s => s ∉ d.refs.filterMap RefPic.slot

def assignSlot (surface slot : ℕ) (d : Decoder) : Decoder :=
  { d with slotSurface := d.slotSurface.set slot (some surface) }

/-- The error concealment reference. -/
def chooseErrSlot (newPath : Bool) (slot : ℕ) (d : Decoder) : Decoder :=
  if newPath then
    let slots := (d.refs.filter fun r => !r.nonExisting).filterMap RefPic.slot
    { d with errSlot := (slots.find? (· ≠ slot)).getD d.errSlot }
  else { d with errSlot := d.prevSlot }

/-- The surface of every slot a reference holds, and of the current one. -/
def programSlots (slot surface : ℕ) : List (Option ℕ) :=
  (d.refs.foldl (fun slots r =>
    match r.slot, r.surface with
    | some s, some surf => slots.set s (some surf)
    | _, _ => slots) (List.replicate maxSlots none)).set slot (some surface)

/-- Second phase: the picture gets its surface, its slot and its job, and is marked. -/
def complete (b : Begun) (surface : ℕ) : Prog Decoder VideoError PictureJob := do
  let h := b.pic.hdr
  let sps := b.pic.sps
  let d ← get
  if surface ∈ d.referencedSurfaces then
    throw (.bitstream s!"target surface {surface} is still a reference")
  else match d.colocatedSlot surface with
    | none => throw (.invalid "17 slots for at most 16 references")
    | some slot => do
      modify (assignSlot surface slot)
      let newPath := d.newH264 && sps.frameMbsOnly
      modify (chooseErrSlot newPath slot)
      let d ← get
      let job : PictureJob := {
        newH264 := newPath
        slot := slot
        surface := surface
        pictureIndex := d.pictureCount
        slotSurfaces := d.programSlots slot surface
        errSlot := d.errSlot
        maxNumReorder := sps.maxNumReorder }
      mark h sps b.poc b.msb surface slot
      modify fun d => { d with
        pictureCount := d.pictureCount + 1
        prevSlot := if h.nalRefIdc = 0 then d.prevSlot else slot }
      pure job

end Decoder

end NvidiaProlapse.H264
