import NvidiaProlapse.VideoCodec

/-!
# HEVC pictures

An access unit is a list of NAL units. The header of a NAL unit is read from its bytes;
what the parsers of parameter sets and slice segments return is part of the unit. The
picture gets its order count from the previous picture of temporal layer 0, the reference
picture set decides which pictures stay in the DPB, and the picture takes the lowest slot
none of them has. Order counts are 32-bit integers that wrap.
-/
namespace NvidiaProlapse.Hevc

open Programs Video

structure Sps where
  id : ℕ
  width : ℕ
  height : ℕ
  confWin : ℕ × ℕ × ℕ × ℕ := (0, 0, 0, 0)
  bitDepthLuma : ℕ := 8
  log2MaxPocLsb : ℕ := 8
  maxNumReorderPics : ℕ := 0
  /-- What the parser accepts. -/
  size_le : width ≤ 16888 ∧ height ≤ 16888 := by decide
  confWin_le : confWin.1 ≤ 16888 ∧ confWin.2.1 ≤ 16888 ∧ confWin.2.2.1 ≤ 16888 ∧
    confWin.2.2.2 ≤ 16888 := by decide
  deriving DecidableEq, Repr

structure Pps where
  id : ℕ
  spsId : ℕ
  deriving DecidableEq, Repr

/-- Relative order counts with the flag whether the current picture uses them. -/
structure StRps where
  s0 : List (ℤ × Bool) := []
  s1 : List (ℤ × Bool) := []
  deriving DecidableEq, Repr

structure SliceHeader where
  firstSliceSegmentInPic : Bool := true
  ppsId : ℕ
  dependent : Bool := false
  picOutput : Bool := true
  pocLsb : ℕ := 0
  rps : StRps := {}
  deriving DecidableEq, Repr

structure Nal where
  bytes : List UInt8
  sps : VResult Sps := .error (.bitstream "")
  pps : VResult Pps := .error (.bitstream "")
  slice : (ℕ → Option Pps) → (ℕ → Option Sps) → VResult SliceHeader :=
    fun _ _ => .error (.bitstream "")

namespace Nal

def byte (nal : Nal) (i : ℕ) : ℕ := (nal.bytes.getD i 0).toNat

def unitType (nal : Nal) : ℕ := nal.byte 0 / 2 % 64

def layer (nal : Nal) : ℕ := nal.byte 0 % 2 * 32 + nal.byte 1 / 8

def temporalIdPlus1 (nal : Nal) : ℕ := nal.byte 1 % 8

end Nal

abbrev AccessUnit := List Nal

/-! ## Picture types -/

def isIdr (t : ℕ) : Bool := t = 19 ∨ t = 20

def isBla (t : ℕ) : Bool := 16 ≤ t ∧ t ≤ 18

def isIrap (t : ℕ) : Bool := 16 ≤ t ∧ t ≤ 23

def isRasl (t : ℕ) : Bool := t = 8 ∨ t = 9

def isRadl (t : ℕ) : Bool := t = 6 ∨ t = 7

/-- Sub-layer non-reference pictures. -/
def isSlnr (t : ℕ) : Bool := t ≤ 14 ∧ t % 2 = 0

def isSlice (t : ℕ) : Bool := t ≤ 9 ∨ (16 ≤ t ∧ t ≤ 21)

def isReservedVcl (t : ℕ) : Bool := (10 ≤ t ∧ t ≤ 15) ∨ t = 22 ∨ t = 23

structure DpbPic where
  slot : ℕ
  poc : ℤ
  id : ℕ
  deriving DecidableEq, Repr

/-- What the descriptor says about the picture. -/
structure PicState where
  streamLen : ℕ
  idr : Bool
  irap : Bool
  currSlot : ℕ
  numPocTotalCurr : ℕ
  list0 : List ℕ
  list1 : List ℕ
  diff : List (ℕ × ℤ)
  deriving DecidableEq, Repr

structure PictureJob where
  picId : ℕ
  poc : ℤ
  slot : ℕ
  /-- Every picture of the DPB that the engine may read. -/
  refs : List (ℕ × ℕ)
  bitstream : List UInt8
  keyframe : Bool
  output : Bool
  width : ℕ
  height : ℕ
  crop : ℕ × ℕ × ℕ × ℕ
  bitDepth : ℕ
  maxNumReorder : ℕ
  /-- History: an IRAP picture with NoRaslOutputFlag. -/
  starts : Bool
  /-- History: the coded video sequence of the picture. -/
  sequence : ℕ
  deriving DecidableEq, Repr

structure Decoder where
  sps : ℕ → Option Sps := fun _ => none
  pps : ℕ → Option Pps := fun _ => none
  dpb : List DpbPic := []
  prevTid0Poc : ℤ := 0
  /-- The next picture starts a coded video sequence. -/
  firstInCvs : Bool := true
  /-- RASL pictures of the last IRAP picture cannot be decoded. -/
  skipRasl : Bool := false
  nextId : ℕ := 0
  /-- The descriptor may not be able to express a picture. -/
  describe : Sps → Pps → PicState → VResult Unit
  /-- History: coded video sequences begun so far. -/
  sequences : ℕ := 0

namespace Decoder

def flush (d : Decoder) : Decoder := { d with dpb := [], firstInCvs := true }

/-! ## Picture order count and references -/

/-- Arithmetic on 32-bit signed integers. -/
def wrap (n : ℤ) : ℤ := Int.bmod n (2 ^ 32)

def pocMsb (d : Decoder) (sps : Sps) (lsb : ℤ) : ℤ :=
  let maxLsb : ℤ := 2 ^ sps.log2MaxPocLsb
  let prevLsb := d.prevTid0Poc % maxLsb
  let prevMsb := d.prevTid0Poc - prevLsb
  if lsb < prevLsb ∧ prevLsb - lsb ≥ maxLsb / 2 then prevMsb + maxLsb
  else if lsb > prevLsb ∧ lsb - prevLsb > maxLsb / 2 then prevMsb - maxLsb
  else prevMsb

def pictureOrderCount (d : Decoder) (sps : Sps) (starts : Bool) (lsb : ℕ) : ℤ :=
  if starts then wrap lsb else wrap (d.pocMsb sps lsb + lsb)

/-- One list of the reference picture set: the pictures that the current one uses and the ids
to keep. -/
def referencePics (dpb : List DpbPic) (poc : ℤ) : List (ℤ × Bool) → VResult (List DpbPic × List ℕ)
  | [] => .ok ([], [])
  | (delta, used) :: rest => do
    match dpb.find? fun p => p.poc = wrap (poc + delta) with
    | some p => do
      let (out, keep) ← referencePics dpb poc rest
      .ok (if used then p :: out else out, p.id :: keep)
    | none =>
      if used then
        .error (.bitstream s!"reference picture POC {wrap (poc + delta)} missing from the DPB")
      else referencePics dpb poc rest

def freeSlot (dpb : List DpbPic) : Option ℕ :=
  (List.range 16).find? fun slot => dpb.all fun p => p.slot ≠ slot

/-- Distances to the pictures in the DPB, which the descriptor stores in 16 bits. -/
def pocDistances (poc : ℤ) : List DpbPic → VResult (List (ℕ × ℤ))
  | [] => .ok []
  | p :: rest =>
    let v := wrap (poc - p.poc)
    if -2 ^ 15 ≤ v ∧ v < 2 ^ 15 then do
      let distances ← pocDistances poc rest
      .ok ((p.slot, v) :: distances)
    else .error (.bitstream s!"POC distance {v} exceeds 16 bits")

/-- An initial list: the slots in turn, over all 16 entries. -/
def cyclic (pics : List DpbPic) : List ℕ :=
  (List.range 16).map fun i => (pics.map DpbPic.slot).getD (i % pics.length) 0

/-! ## Pictures -/

def noRaslOutput (d : Decoder) (t : ℕ) : Bool := isIrap t && (isIdr t || isBla t || d.firstInCvs)

def tables (d : Decoder) (ppsId : ℕ) : VResult (Sps × Pps) :=
  match d.pps ppsId with
  | none => .error (.bitstream "missing PPS")
  | some pps =>
    match d.sps pps.spsId with
    | none => .error (.bitstream "missing SPS")
    | some sps => .ok (sps, pps)

/-- The order count is fixed and a new sequence empties the DPB. -/
def beginPicture (t tid : ℕ) (starts : Bool) (poc : ℤ) (d : Decoder) : Decoder :=
  { d with
    firstInCvs := false
    prevTid0Poc := if tid = 0 ∧ !isRasl t ∧ !isRadl t ∧ !isSlnr t then poc else d.prevTid0Poc
    dpb := if starts then [] else d.dpb
    sequences := if starts then d.sequences + 1 else d.sequences }

/-- The pictures of the reference picture set, before and after the current one. -/
def referenceSet (dpb : List DpbPic) (t : ℕ) (poc : ℤ) (rps : StRps) :
    VResult (List DpbPic × List DpbPic × List ℕ) :=
  if isIdr t then .ok ([], [], [])
  else do
    let (before, keep) ← referencePics dpb poc rps.s0
    let (after, keep') ← referencePics dpb poc rps.s1
    .ok (before, after, keep ++ keep')

def engineBitstream (slices : List (Nal × SliceHeader)) : List UInt8 :=
  (slices.map fun s => [0, 0, 1] ++ s.1.bytes).flatten

/-- The picture takes a slot and joins the DPB. -/
def placePicture (t : ℕ) (starts : Bool) (sps : Sps) (pps : Pps) (h : SliceHeader)
    (slices : List (Nal × SliceHeader)) (poc : ℤ) (before after : List DpbPic) :
    Prog Decoder VideoError PictureJob := do
  let d ← get
  match freeSlot d.dpb with
  | none => throw (.bitstream "DPB holds 16 pictures")
  | some slot => do
    let diff ← outcome (pocDistances poc d.dpb)
    outcome (d.describe sps pps {
      streamLen := (engineBitstream slices).length
      idr := isIdr t
      irap := isIrap t
      currSlot := slot
      numPocTotalCurr := before.length + after.length
      list0 := cyclic (before ++ after)
      list1 := cyclic (after ++ before)
      diff := diff })
    modify fun d => { d with nextId := d.nextId + 1, dpb := d.dpb ++ [⟨slot, poc, d.nextId⟩] }
    let (left, right, top, bottom) := sps.confWin
    pure {
      picId := d.nextId
      poc := poc
      slot := slot
      refs := d.dpb.map fun p => (p.slot, p.id)
      bitstream := engineBitstream slices
      keyframe := isIrap t
      output := h.picOutput
      width := sps.width
      height := sps.height
      crop := (left * 2, right * 2, top * 2, bottom * 2)
      bitDepth := sps.bitDepthLuma
      maxNumReorder := sps.maxNumReorderPics
      starts := starts
      sequence := d.sequences }

def decodePicture (t tid : ℕ) (starts : Bool) (sps : Sps) (pps : Pps) (h : SliceHeader)
    (slices : List (Nal × SliceHeader)) : Prog Decoder VideoError PictureJob := do
  let d ← get
  let poc := d.pictureOrderCount sps starts h.pocLsb
  modify (beginPicture t tid starts poc)
  let d ← get
  let (before, after, keep) ← outcome (referenceSet d.dpb t poc h.rps)
  modify fun d => { d with dpb := d.dpb.filter fun p => p.id ∈ keep }
  placePicture t starts sps pps h slices poc before after

/-- `none` for a RASL picture that is skipped. -/
def picture (t tid : ℕ) (h : SliceHeader) (slices : List (Nal × SliceHeader)) :
    Prog Decoder VideoError (Option PictureJob) := do
  let d ← get
  let (sps, pps) ← outcome (d.tables h.ppsId)
  let starts := d.noRaslOutput t
  let skip := if isIrap t then starts else d.skipRasl
  modify fun d => { d with skipRasl := skip }
  if isRasl t ∧ skip then pure none
  else if d.firstInCvs ∧ !isIrap t then
    throw (.bitstream "coded video sequence does not start with an IRAP picture")
  else some <$> decodePicture t tid starts sps pps h slices

/-! ## Access units -/

/-- The slice segments of the picture so far, with the type and temporal id of its first NAL
unit. -/
structure Coded where
  unitType : ℕ
  tid : ℕ
  hdr : SliceHeader
  slices : List (Nal × SliceHeader)

/-- The header of a dependent segment is that of the last independent one. -/
def completeHeader (hdr : SliceHeader) (slices : List (Nal × SliceHeader)) : VResult SliceHeader :=
  if hdr.dependent then
    match slices.reverse.find? fun s => !s.2.dependent with
    | none => .error (.bitstream "dependent slice segment without an independent one")
    | some s => .ok { s.2 with firstSliceSegmentInPic := false, dependent := true }
  else .ok hdr

def addSlice (nal : Nal) (hdr : SliceHeader) : Option Coded → VResult Coded
  | none =>
    if hdr.firstSliceSegmentInPic then do
      let hdr ← completeHeader hdr []
      .ok ⟨nal.unitType, nal.temporalIdPlus1 - 1, hdr, [(nal, hdr)]⟩
    else .error (.bitstream "access unit starts with a non-first slice segment")
  | some pic =>
    if hdr.firstSliceSegmentInPic then .error (.bitstream "two pictures in one access unit")
    else if nal.unitType ≠ pic.unitType then
      .error (.bitstream "slice segments of one picture with different NAL unit types")
    else do
      let hdr ← completeHeader hdr pic.slices
      .ok { pic with slices := pic.slices ++ [(nal, hdr)] }

def checkHeader (nal : Nal) : VResult Unit :=
  if nal.bytes.length < 2 then .error (.bitstream "NAL unit shorter than its header")
  else if 128 ≤ nal.byte 0 then .error (.bitstream "forbidden_zero_bit set")
  else if nal.temporalIdPlus1 = 0 then .error (.bitstream "nuh_temporal_id_plus1 = 0")
  else .ok ()

/-- One NAL unit of the base layer. -/
def takeNal (nal : Nal) (pic : Option Coded) : Prog Decoder VideoError (Option Coded) := do
  let t := nal.unitType
  if t = 33 then do
    let s ← outcome nal.sps
    modify fun d => { d with sps := Function.update d.sps s.id (some s) }
    pure pic
  else if t = 34 then do
    let p ← outcome nal.pps
    modify fun d => { d with pps := Function.update d.pps p.id (some p) }
    pure pic
  else if t = 36 then do
    modify fun d => { d with firstInCvs := true }
    pure pic
  else if isSlice t then do
    let d ← get
    let hdr ← outcome (nal.slice d.pps d.sps)
    some <$> outcome (addSlice nal hdr pic)
  else if isReservedVcl t then throw (.unsupported s!"HEVC reserved VCL NAL unit type {t}")
  else pure pic

def collect : AccessUnit → Option Coded → Prog Decoder VideoError (Option Coded)
  | [], pic => pure pic
  | nal :: nals, pic => do
    outcome (checkHeader nal)
    if nal.layer ≠ 0 then collect nals pic
    else do
      let pic ← takeNal nal pic
      collect nals pic

def decodeAu (au : AccessUnit) : Prog Decoder VideoError (Option PictureJob) := do
  match ← collect au none with
  | none => pure none
  | some pic => picture pic.unitType pic.tid pic.hdr pic.slices

end Decoder

/-! ## The plug-in -/

/-- A picture that became a job. -/
structure Shot where
  sequence : ℕ
  starts : Bool
  poc : ℤ
  epoch : ℤ
  key : ℤ
  deriving DecidableEq, Repr

structure HevcDecoder where
  dec : Decoder
  units : List AccessUnit := []
  pending : Option PictureJob := none
  max : ℕ × ℕ
  surfaceOf : ℕ → Option ℕ := fun _ => none
  live : List ℕ := []
  reorder : ℕ := 16
  epoch : ℤ := 0
  epochMaxPoc : Option ℤ := none
  bitDepth : ℕ
  /-- History: the pictures that became jobs, oldest first. -/
  history : List Shot := []

namespace HevcDecoder

variable {α : Type}

def onDec (p : Prog Decoder VideoError α) : Prog HevcDecoder VideoError α :=
  focus HevcDecoder.dec (fun dec s => { s with dec := dec }) p

/-- An IRAP picture whose order count is not above the epoch starts the next one. -/
def startsEpoch (s : HevcDecoder) (j : PictureJob) : Bool := j.keyframe && s.epochMaxPoc.any (j.poc ≤ ·)

def enterEpoch (j : PictureJob) (s : HevcDecoder) : HevcDecoder :=
  if s.startsEpoch j then { s with epoch := s.epoch + 1, epochMaxPoc := some j.poc }
  else { s with epochMaxPoc := some (s.epochMaxPoc.elim j.poc fun m => Max.max m j.poc) }

def displayKey (s : HevcDecoder) (j : PictureJob) : ℤ := s.epoch * 2 ^ 32 + j.poc

def sessionInfo (j : PictureJob) : PictureInfo :=
  let (left, right, top, bottom) := j.crop
  { width := j.width
    height := j.height
    crop := (left, top, sub32 (sub32 j.width left) right, sub32 (sub32 j.height top) bottom)
    bitDepth := j.bitDepth
    colorPrimaries := 2
    transfer := 2
    matrix := 2
    fullRange := false
    keyframe := j.keyframe }

def jobOf (s : HevcDecoder) (j : PictureJob) : DecodeJob where
  info := sessionInfo j
  shown := j.output
  displayKey := some (s.displayKey j)
  bitstream := j.bitstream
  readback := none

/-- Pictures that are not referenced any more lose their surface. -/
def takeJob (j : PictureJob) (s : HevcDecoder) : HevcDecoder :=
  let live := j.refs.map Prod.snd
  { s with
    reorder := j.maxNumReorder
    live := live
    surfaceOf := fun id => if id ∈ live then s.surfaceOf id else none
    pending := some j
    history := s.history ++ [{ j with epoch := s.epoch, key := s.displayKey j }] }

def offer (j : PictureJob) : Prog HevcDecoder VideoError (Option Job) := do
  let s ← get
  if j.bitDepth ≠ s.bitDepth then
    throw (.unsupported (s!"HEVC {j.bitDepth}-bit picture in a {s.bitDepth}-bit session (create " ++
      "the session with the stream's bit depth)"))
  else if j.width > nextMultipleOf 8 s.max.1 ∨ j.height > nextMultipleOf 8 s.max.2 then
    throw (tooLarge "HEVC" j.width j.height s.max j.keyframe)
  else do
    modify fun s => takeJob j (enterEpoch j s)
    let s ← get
    pure (some (.decode (s.jobOf j)))

def nextJobFrom : List AccessUnit → Prog HevcDecoder VideoError (Option Job)
  | [] => pure none
  | au :: units => do
    modify fun s => { s with units := units }
    match ← onDec (Decoder.decodeAu au) with
    | none => nextJobFrom units
    | some j => offer j

def nextJob : Prog HevcDecoder VideoError (Option Job) := do
  let s ← get
  nextJobFrom s.units

/-- The surfaces by slot; slots without a reference show the current picture. -/
def slotSurfaces (s : HevcDecoder) : List (ℕ × ℕ) → List ℕ → VResult (List ℕ)
  | [], slots => .ok slots
  | (slot, id) :: refs, slots =>
    match s.surfaceOf id with
    | none => .error (.invalid s!"HEVC reference picture {id} has no surface")
    | some surface => slotSurfaces s refs (slots.set slot surface)

def build (ctx : BuildContext) : Prog HevcDecoder VideoError (List SurfaceRef) := do
  let s ← get
  modify fun s => { s with pending := none }
  match s.pending with
  | none => throw (.invalid "HEVC build without a parsed picture")
  | some j => do
    let slots ← outcome (slotSurfaces s j.refs (List.replicate 17 ctx.current))
    modify fun s => { s with
      surfaceOf := Function.update s.surfaceOf j.picId (some ctx.current)
      live := s.live ++ [j.picId] }
    pure ((slots.set j.slot ctx.current).map .session)

def flush (s : HevcDecoder) : HevcDecoder :=
  { s with
    dec := s.dec.flush
    units := []
    pending := none
    live := []
    surfaceOf := fun _ => none
    epoch := s.epoch + 1
    epochMaxPoc := none }

end HevcDecoder

def codec : Codec AccessUnit HevcDecoder where
  dpbSize := 16
  surfacesNeeded := fun _ data => .ok (if data.any (·.unitType < 32) then 1 else 0)
  pushUnit := fun data => modify fun s => { s with units := s.units ++ [data] }
  nextJob := HevcDecoder.nextJob
  build := fun _ ctx => HevcDecoder.build ctx
  finish := fun _ _ _ => pure ()
  referenced := fun s => s.live.filterMap s.surfaceOf
  bumpReady := fun s pending => s.reorder < pending
  flush := HevcDecoder.flush
  backlog := fun s => s.units.length

/-- A decoder as the session creates it. -/
def fresh (describe : Sps → Pps → PicState → VResult Unit) (max : ℕ × ℕ) (bitDepth : ℕ) :
    HevcDecoder where
  dec := { describe := describe }
  max := max
  bitDepth := bitDepth

end NvidiaProlapse.Hevc
