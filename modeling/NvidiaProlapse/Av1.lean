import NvidiaProlapse.Vp9

/-!
# AV1 temporal units

A temporal unit is split into OBUs, which are parsed one frame at a time. Frame headers
are read by the parser of the sequence they belong to: the show-existing bit is read here,
what else a header says is given by `Headers`. The reference map, the DPB slots and the
context buffers advance when a frame is parsed, the surfaces of the slots when it is built.
-/
namespace NvidiaProlapse.Av1

open Programs Video Vp9

inductive Av1Error where
  | truncated (what : String)
  | invalid (what : String)
  | unsupported (what : String)
  | noSequenceHeader
  deriving DecidableEq, Repr

def Av1Error.toVideo : Av1Error → VideoError
  | .unsupported w => .unsupported s!"AV1: {w}"
  | .truncated w => .bitstream s!"AV1: AV1 bitstream truncated in {w}"
  | .invalid w => .bitstream s!"AV1: AV1 bitstream invalid: {w}"
  | .noSequenceHeader => .bitstream "AV1: AV1 frame before any sequence header"

abbrev AResult (α : Type) := Except Av1Error α

/-! ## OBUs -/

structure Obu where
  obuType : ℕ
  temporalId : ℕ
  spatialId : ℕ
  payload : List UInt8
  deriving DecidableEq, Repr

def obuSequenceHeader : ℕ := 1
def obuFrameHeader : ℕ := 3
def obuTileGroup : ℕ := 4
def obuFrame : ℕ := 6
def obuTileList : ℕ := 8

/-- A little-endian number of at most `n` groups of seven bits, and the bytes after it. -/
def leb128 : ℕ → List UInt8 → AResult (ℕ × List UInt8)
  | 0, _ => .error (.invalid "leb128 longer than 8 bytes")
  | _ + 1, [] => .error (.truncated "leb128")
  | n + 1, b :: rest =>
    if b.toNat < 128 then .ok (b.toNat, rest)
    else do
      let (v, rest) ← leb128 n rest
      .ok (b.toNat % 128 + 128 * v, rest)

/-- Temporal and spatial id, from the extension if there is one. -/
def extension (header : UInt8) (rest : List UInt8) : AResult (ℕ × ℕ × List UInt8) :=
  if header.toNat / 4 % 2 = 1 then
    match rest with
    | [] => .error (.truncated "obu_extension_header")
    | e :: rest => .ok (e.toNat / 32, e.toNat / 8 % 4, rest)
  else .ok (0, 0, rest)

def obuSize (header : UInt8) (rest : List UInt8) : AResult (ℕ × List UInt8) :=
  if header.toNat / 2 % 2 = 1 then leb128 8 rest else .ok (rest.length, rest)

/-- Each OBU takes at least its header byte from the `fuel` that is left. -/
def splitObusFrom : ℕ → List UInt8 → AResult (List Obu)
  | 0, _ => .ok []
  | _ + 1, [] => .ok []
  | fuel + 1, header :: rest =>
    if 128 ≤ header.toNat then .error (.invalid "obu_forbidden_bit")
    else do
      let (temporalId, spatialId, rest) ← extension header rest
      let (size, rest) ← obuSize header rest
      if rest.length < size then .error (.truncated "obu payload")
      else do
        let obus ← splitObusFrom fuel (rest.drop size)
        .ok (⟨header.toNat / 8 % 16, temporalId, spatialId, rest.take size⟩ :: obus)

def splitObus (tu : List UInt8) : AResult (List Obu) := splitObusFrom tu.length tu

/-! ## Headers -/

structure SequenceHeader where
  reducedStillPictureHeader : Bool := false
  bitDepth : ℕ := 8
  monoChrome : Bool := false
  subsamplingX : Bool := true
  subsamplingY : Bool := true
  colorRange : Bool := false
  filmGrainParamsPresent : Bool := false
  deriving DecidableEq, Repr

structure FrameHeader where
  showExistingFrame : Bool := false
  frameToShowMapIdx : ℕ := 0
  frameType : ℕ
  frameIsIntra : Bool
  showFrame : Bool
  showableFrame : Bool := false
  primaryRefFrame : ℕ := 7
  refreshFrameFlags : ℕ
  refFrameIdx : List ℕ := List.replicate 7 0
  frameHeight : ℕ
  upscaledWidth : ℕ
  useSuperres : Bool := false
  applyGrain : Bool := false
  disableFrameEndUpdateCdf : Bool := false
  baseQIdx : ℕ := 0
  headerBytes : ℕ
  deriving DecidableEq, Repr

def FrameHeader.isKey (h : FrameHeader) : Bool := h.frameType = 0

/-- Tile data collected so far, with the tile ranges. -/
structure Tiles where
  bitstream : List UInt8 := []
  ranges : List (ℕ × ℕ) := []
  deriving DecidableEq, Repr

/-- What the parsers return. `ρ` is their record of the eight references. -/
structure Headers (ρ : Type) where
  start : ρ
  sequence : List UInt8 → AResult SequenceHeader
  /-- A header that shows an existing frame. -/
  existing : SequenceHeader → ρ → List UInt8 → AResult FrameHeader
  /-- A header of a coded frame; it may change the references before it fails. -/
  coded : SequenceHeader → ρ → Obu → AResult FrameHeader × ρ
  updateRefs : FrameHeader → ρ → ρ
  /-- The tile groups so far, and whether the last tile is among them. -/
  tileGroup : FrameHeader → List UInt8 → Tiles → AResult (Bool × Tiles)

structure Slot where
  inUse : Bool := false
  savedCdf : Option ℕ := none
  upscaledWidth : ℕ := 0
  frameHeight : ℕ := 0
  deriving DecidableEq, Repr, Inhabited

structure PictureJob where
  seq : SequenceHeader
  hdr : FrameHeader
  tiles : Tiles
  slot : ℕ
  refSlots : List (Option ℕ)
  cdfRead : ℕ
  cdfWrite : ℕ
  /-- The read buffer is filled with these default tables first. -/
  cdfDefaultQctx : Option ℕ
  deriving DecidableEq, Repr

def dpbSlots : ℕ := 9

def cdfBuffers : ℕ := 10

def defaultCdfQctx (baseQIdx : ℕ) : ℕ :=
  if baseQIdx ≤ 20 then 0 else if baseQIdx ≤ 60 then 1 else if baseQIdx ≤ 120 then 2 else 3

structure Av1Codec (ρ : Type) where
  seq : Option SequenceHeader := none
  refs : ρ
  slots : List Slot := List.replicate dpbSlots {}
  refMap : List (Option ℕ) := List.replicate 8 none
  cdfStamp : List ℕ := List.replicate cdfBuffers 0
  stamp : ℕ := 0
  pending : List (List UInt8) := []
  obuPos : ℕ := 0
  cur : Option (FrameHeader × Tiles) := none

inductive Av1Out where
  | decode (job : PictureJob)
  | showExisting (slot : ℕ) (hdr : FrameHeader)

namespace Av1Codec

variable {ρ : Type}

def referencedSlots (c : Av1Codec ρ) : List ℕ := c.refMap.reduceOption.dedup

/-- The free buffer that was given out longest ago. -/
def oldestBuffer (stamps : List ℕ) : List ℕ → Option ℕ
  | [] => none
  | i :: rest =>
    match oldestBuffer stamps rest with
    | none => some i
    | some j => if stamps.getD j 0 < stamps.getD i 0 then some j else some i

def allocCdf (free : List ℕ) : Prog (Av1Codec ρ) Av1Error ℕ := do
  let c ← get
  match oldestBuffer c.cdfStamp free with
  | none => throw (.invalid "no free CDF buffer")
  | some i => do
    modify fun c => { c with stamp := c.stamp + 1, cdfStamp := c.cdfStamp.set i (c.stamp + 1) }
    pure i

/-- Slots that are not referenced any more are released. -/
def releaseSlots (c : Av1Codec ρ) : Av1Codec ρ :=
  { c with
    slots := c.slots.mapIdx fun i slot =>
      if some i ∈ c.refMap then { slot with inUse := true }
      else { slot with inUse := false, savedCdf := none } }

def freeCdf (c : Av1Codec ρ) : List ℕ :=
  (List.range cdfBuffers).filter fun i => c.slots.all fun slot => slot.savedCdf ≠ some i

def readCdf (h : FrameHeader) (saved : Option ℕ) (free : List ℕ) :
    Prog (Av1Codec ρ) Av1Error (ℕ × Option ℕ) :=
  match saved.filter fun _ => h.frameType % 2 = 1 with
  | some c => pure (c, none)
  | none => do
    let c ← allocCdf free
    pure (c, some (defaultCdfQctx h.baseQIdx))

def refSlotsOf (c : Av1Codec ρ) (h : FrameHeader) : List (Option ℕ) :=
  if h.frameIsIntra then List.replicate 7 none
  else h.refFrameIdx.map fun idx => c.refMap.getD idx none

def takeSlot (h : FrameHeader) (slot cdfRead cdfWrite : ℕ) (c : Av1Codec ρ) : Av1Codec ρ :=
  { c with
    slots := c.slots.set slot
      { inUse := true
        savedCdf := some (if h.disableFrameEndUpdateCdf then cdfRead else cdfWrite)
        upscaledWidth := h.upscaledWidth
        frameHeight := h.frameHeight }
    refMap := c.refMap.mapIdx fun i r => if h.refreshFrameFlags.testBit i then some slot else r }

section

variable (headers : Headers ρ)

/-- The frame takes a slot and its context buffers, and refreshes the references. -/
def finishFrame (h : FrameHeader) (tiles : Tiles) : Prog (Av1Codec ρ) Av1Error PictureJob := do
  let c ← get
  match c.seq with
  | none => throw .noSequenceHeader
  | some seq => do
    modify releaseSlots
    let c ← get
    match c.slots.findIdx? fun slot => !slot.inUse with
    | none => throw (.invalid "DPB full")
    | some slot => do
      let cdfWrite ← allocCdf c.freeCdf
      let refSlots := c.refSlotsOf h
      let primary := if h.primaryRefFrame = 7 then none else refSlots.getD h.primaryRefFrame none
      let saved := primary.bind fun i => (c.slots.getD i default).savedCdf
      let (cdfRead, cdfDefaultQctx) ← readCdf h saved (c.freeCdf.erase cdfWrite)
      modify fun c => { takeSlot h slot cdfRead cdfWrite c with refs := headers.updateRefs h c.refs }
      pure ⟨seq, h, tiles, slot, refSlots, cdfRead, cdfWrite, cdfDefaultQctx⟩

def showExisting (h : FrameHeader) (c : Av1Codec ρ) : Av1Codec ρ :=
  { c with
    refMap := if h.isKey then List.replicate 8 (c.refMap.getD h.frameToShowMapIdx none) else c.refMap
    refs := headers.updateRefs h c.refs }

def codedHeader (seq : SequenceHeader) (o : Obu) : Prog (Av1Codec ρ) Av1Error FrameHeader := do
  let c ← get
  let (result, refs) := headers.coded seq c.refs o
  modify fun c => { c with refs := refs }
  let h ← outcome result
  pure { h with showExistingFrame := false }

def parseFrameHeader (o : Obu) : Prog (Av1Codec ρ) Av1Error FrameHeader := do
  let c ← get
  match c.seq with
  | none => throw .noSequenceHeader
  | some seq =>
    if seq.reducedStillPictureHeader then codedHeader headers seq o
    else
      match bitAt o.payload 0 with
      | none => throw (.truncated "f(n)")
      | some 0 => codedHeader headers seq o
      | some _ => do
        let h ← outcome (headers.existing seq c.refs o.payload)
        pure { h with showExistingFrame := true }

/-- The frame is complete, or waits for its next tile group. -/
def collectTiles (h : FrameHeader) (payload : List UInt8) (tiles : Tiles) :
    Prog (Av1Codec ρ) Av1Error (Option Av1Out) := do
  let (done, tiles) ← outcome (headers.tileGroup h payload tiles)
  if done then do
    let job ← finishFrame headers h tiles
    pure (some (.decode job))
  else do
    modify fun c => { c with cur := some (h, tiles) }
    pure none

def frameObu (o : Obu) : Prog (Av1Codec ρ) Av1Error (Option Av1Out) := do
  let h ← parseFrameHeader headers o
  if h.showExistingFrame then do
    let c ← get
    match c.refMap.getD h.frameToShowMapIdx none with
    | none => throw (.invalid "show_existing_frame of an empty slot")
    | some slot => do
      modify (showExisting headers h)
      pure (some (.showExisting slot h))
  else if o.obuType = obuFrame then collectTiles headers h (o.payload.drop h.headerBytes) {}
  else do
    modify fun c => { c with cur := some (h, {}) }
    pure none

def tileGroupObu (o : Obu) : Prog (Av1Codec ρ) Av1Error (Option Av1Out) := do
  let c ← get
  modify fun c => { c with cur := none }
  match c.cur with
  | none => throw (.invalid "tile group without header")
  | some (h, tiles) => collectTiles headers h o.payload tiles

/-- One OBU; a header repeated within a frame in progress is skipped. -/
def takeObu (o : Obu) : Prog (Av1Codec ρ) Av1Error (Option Av1Out) := do
  let c ← get
  if o.obuType = obuSequenceHeader then do
    let seq ← outcome (headers.sequence o.payload)
    modify fun c => { c with seq := some seq }
    pure none
  else if o.obuType = obuFrameHeader ∧ c.cur.isSome then pure none
  else if o.obuType = obuFrameHeader ∨ o.obuType = obuFrame then frameObu headers o
  else if o.obuType = obuTileGroup then tileGroupObu headers o
  else if o.obuType = obuTileList then throw (.unsupported "large scale tile (OBU_TILE_LIST)")
  else pure none

/-- At the end of a unit no frame may be in progress. -/
def finishUnit : Prog (Av1Codec ρ) Av1Error (Option Av1Out) := do
  let c ← get
  if c.cur.isSome then do
    modify fun c => { c with cur := none }
    throw (.truncated "frame without all tile groups")
  else do
    modify fun c => { c with pending := c.pending.tail, obuPos := 0 }
    pure none

def takeObus : List Obu → Prog (Av1Codec ρ) Av1Error (Option Av1Out)
  | [] => finishUnit
  | o :: obus => do
    modify fun c => { c with obuPos := c.obuPos + 1 }
    match ← takeObu headers o with
    | some out => pure (some out)
    | none => takeObus obus

def nextOutFrom : List (List UInt8) → Prog (Av1Codec ρ) Av1Error (Option Av1Out)
  | [] => pure none
  | tu :: units => do
    let c ← get
    let obus ← outcome (splitObus tu)
    match ← takeObus headers (obus.drop c.obuPos) with
    | some out => pure (some out)
    | none => nextOutFrom units

def nextOut : Prog (Av1Codec ρ) Av1Error (Option Av1Out) := do
  let c ← get
  nextOutFrom headers c.pending

/-- All but the sequence header is dropped. -/
def flush (c : Av1Codec ρ) : Av1Codec ρ := { seq := c.seq, refs := headers.start }

end

end Av1Codec

/-! ## The plug-in -/

/-- Where the pictures of a slot live: in a session surface, or, with film grain, in a private
one next to the surface that is displayed. -/
inductive Surf where
  | session (surface : ℕ)
  | grain (display : Option ℕ)
  deriving DecidableEq, Repr

structure Av1Decoder (ρ : Type) where
  c : Av1Codec ρ
  max : ℕ × ℕ
  grainCapable : Bool := false
  slotSurface : List (Option Surf) := List.replicate dpbSlots none
  current : Option PictureJob := none
  pendingRefs : List ℕ := []
  /-- Context buffers that stand for the default tables. -/
  cdfAlias : List (Option ℕ) := List.replicate cdfBuffers none
  bitDepth : ℕ

namespace Av1Decoder

variable {ρ α : Type}

/-- A parser error as the plug-in reports it. -/
def onCodec (p : Prog (Av1Codec ρ) Av1Error α) : Prog (Av1Decoder ρ) VideoError α :=
  ExceptT.mk fun s => ((exec p s.c).1.mapError Av1Error.toVideo, { s with c := (exec p s.c).2 })

variable (s : Av1Decoder ρ)

def surfaceAt (slot : ℕ) : Option Surf := s.slotSurface.getD slot none

/-- The session surface that a later picture may show or refer to. -/
def shownSurface : Surf → Option ℕ
  | .session x => some x
  | .grain display => display

def sessionSurface : Surf → Option ℕ
  | .session x => some x
  | .grain _ => none

def info (seq : SequenceHeader) (width height : ℕ) (keyframe : Bool) : PictureInfo where
  width := width
  height := height
  crop := (0, 0, width, height)
  bitDepth := seq.bitDepth
  colorPrimaries := 2
  transfer := 2
  matrix := 2
  fullRange := seq.colorRange
  keyframe := keyframe

/-- The frames a unit decodes, by the first bit of each header. -/
def isCounted (o : Obu) : Bool :=
  (o.obuType = obuFrame ∨ o.obuType = obuFrameHeader) && bitAt o.payload 0 == some 0

def framesInUnit (data : List UInt8) : VResult ℕ := do
  let obus ← (splitObus data).mapError Av1Error.toVideo
  .ok (obus.countP isCounted)

def shownSlot (slot : ℕ) (grain : Bool) : VResult ℕ :=
  match s.surfaceAt slot, grain with
  | some (.session x), false => .ok x
  | some (.grain (some x)), true => .ok x
  | some (.grain none), _ =>
    .error (.bitstream "AV1: show_existing_frame of a frame that is not showable")
  | some _, _ => .error (.invalid "AV1: film-grain state of the shown slot differs from its decode")
  | none, _ => .error (.bitstream "AV1: show_existing of an undecoded slot")

def showExisting (seq : SequenceHeader) (slot : ℕ) (h : FrameHeader) :
    Prog (Av1Decoder ρ) VideoError (Option Job) := do
  let s ← get
  let surface ← outcome (s.shownSlot slot h.applyGrain)
  let record := s.c.slots.getD slot default
  pure (some (.showExisting surface (info seq record.upscaledWidth record.frameHeight h.isKey)))

def checkJob (j : PictureJob) : VResult Unit :=
  let h := j.hdr
  if h.useSuperres ∧ !h.frameIsIntra then .error (.unsupported "AV1 superres on inter frames")
  else if h.upscaledWidth > s.max.1 ∨ h.frameHeight > s.max.2 then
    .error (tooLarge "AV1" h.upscaledWidth h.frameHeight s.max (h.isKey && h.showFrame))
  else if h.applyGrain ∧ !s.grainCapable then
    .error (.unsupported ("AV1 film grain: pass the sequence header as codec_config (reference " ++
      "surfaces are allocated at session creation)"))
  else .ok ()

/-- Surfaces the picture refers to stay referenced until it is finished. -/
def takeJob (j : PictureJob) (s : Av1Decoder ρ) : Av1Decoder ρ :=
  { s with
    pendingRefs := j.refSlots.reduceOption.filterMap fun i => (s.surfaceAt i).bind sessionSurface
    slotSurface := s.slotSurface.set j.slot none
    current := some j }

def offer (seq : SequenceHeader) (j : PictureJob) : Prog (Av1Decoder ρ) VideoError (Option Job) := do
  let s ← get
  outcome (s.checkJob j)
  modify (takeJob j)
  pure (some (.decode {
    info := info seq j.hdr.upscaledWidth j.hdr.frameHeight j.hdr.isKey
    shown := j.hdr.showFrame
    displayKey := none
    bitstream := j.tiles.bitstream
    readback := none }))

def checkSequence : VResult SequenceHeader :=
  match s.c.seq with
  | none => .error (.bitstream "AV1: no sequence header")
  | some seq =>
    if seq.bitDepth ≠ s.bitDepth ∨ seq.monoChrome ∨ !(seq.subsamplingX && seq.subsamplingY) then
      .error (.unsupported (s!"AV1 bit depth {seq.bitDepth} / mono {seq.monoChrome} / subsampling " ++
        s!"{seq.subsamplingX.toNat}{seq.subsamplingY.toNat} in a {s.bitDepth}-bit 4:2:0 session " ++
        "(8- or 10-bit 4:2:0, session created with the stream's bit depth)"))
    else .ok seq

def nextJob (headers : Headers ρ) : Prog (Av1Decoder ρ) VideoError (Option Job) := do
  match ← onCodec (Av1Codec.nextOut headers) with
  | none => pure none
  | some out => do
    let s ← get
    let seq ← outcome s.checkSequence
    match out with
    | .showExisting slot h => showExisting seq slot h
    | .decode j => offer seq j

def slotRef (slot : ℕ) : SurfaceRef :=
  match s.surfaceAt slot with
  | some (.session x) => .session x
  | _ => .side slot

/-- Seven references, the target, and with film grain the surface that is displayed. -/
def planes (j : PictureJob) (current : ℕ) : List SurfaceRef :=
  let target := s.slotRef j.slot
  (j.refSlots.map fun slot => slot.elim target s.slotRef) ++ [target] ++
    if j.hdr.applyGrain then [.session current] else []

def aliasDefaults (j : PictureJob) : List (Option ℕ) :=
  match j.cdfDefaultQctx with
  | some q => s.cdfAlias.set j.cdfRead (some q)
  | none => s.cdfAlias

def build (ctx : BuildContext) : Prog (Av1Decoder ρ) VideoError (List SurfaceRef) := do
  let s ← get
  modify fun s => { s with current := none }
  match s.current with
  | none => throw (.invalid "AV1 build without a parsed frame")
  | some j =>
    if ctx.bitstreamLen ≠ j.tiles.bitstream.length then
      throw (.invalid "AV1 bitstream length mismatch")
    else do
      let surf := if j.hdr.applyGrain then
          Surf.grain (if j.hdr.showableFrame then some ctx.current else none)
        else .session ctx.current
      modify fun s => { s with
        slotSurface := s.slotSurface.set j.slot (some surf)
        cdfAlias := (s.aliasDefaults j).set j.cdfWrite none }
      let s ← get
      pure (s.planes j ctx.current)

def referenced : List ℕ :=
  ((s.c.referencedSlots.filterMap fun i => (s.surfaceAt i).bind shownSurface) ++ s.pendingRefs).dedup

def flush (headers : Headers ρ) (s : Av1Decoder ρ) : Av1Decoder ρ :=
  { s with
    c := s.c.flush headers
    slotSurface := List.replicate dpbSlots none
    current := none
    pendingRefs := []
    cdfAlias := List.replicate cdfBuffers none }

/-- OBUs of the queued units that were not taken yet. -/
def backlog : ℕ :=
  (s.c.pending.map fun tu => ((splitObus tu).toOption.getD []).length).sum - s.c.obuPos

end Av1Decoder

def codec {ρ : Type} (headers : Headers ρ) : Codec (List UInt8) (Av1Decoder ρ) where
  dpbSize := 8
  surfacesNeeded := fun _ data => Av1Decoder.framesInUnit data
  pushUnit := fun data =>
    modify fun s => { s with c := { s.c with pending := s.c.pending ++ [data] } }
  nextJob := Av1Decoder.nextJob headers
  build := fun _ ctx => Av1Decoder.build ctx
  finish := fun _ _ _ => modify fun s => { s with pendingRefs := [] }
  referenced := Av1Decoder.referenced
  flush := Av1Decoder.flush headers
  maxReferenced := fun _ => some 8
  statusOffset := some 0x4700
  backlog := Av1Decoder.backlog

/-- The last sequence header among the OBUs of the configuration. -/
def configured {ρ : Type} (headers : Headers ρ) (obus : List Obu) : AResult (Option SequenceHeader) :=
  obus.foldlM
    (fun seq o =>
      if o.obuType = obuSequenceHeader then some <$> headers.sequence o.payload else .ok seq) none

def fresh {ρ : Type} (headers : Headers ρ) (seq : Option SequenceHeader) (max : ℕ × ℕ)
    (bitDepth : ℕ) : Av1Decoder ρ where
  c := { seq := seq, refs := headers.start }
  max := max
  grainCapable := seq.any SequenceHeader.filmGrainParamsPresent
  bitDepth := bitDepth

/-- The configuration is a sequence of OBUs, or an `av1C` record that holds one. -/
def newAv1 {ρ : Type} (headers : Headers ρ) (max : ℕ × ℕ) (bitDepth : ℕ)
    (codecConfig : List UInt8) : VResult (Av1Decoder ρ) := do
  let config := if codecConfig.head? = some 0x81 then codecConfig.drop 4 else codecConfig
  let obus ← (splitObus config).mapError Av1Error.toVideo
  let seq ← (configured headers obus).mapError Av1Error.toVideo
  .ok (fresh headers seq max bitDepth)

end NvidiaProlapse.Av1
