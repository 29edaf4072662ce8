import NvidiaProlapse.VideoCodec

/-!
# Copies into the caller's buffers

The target says where each plane goes: a buffer, an offset, a pitch or a block-linear
layout. The bound of a plane is computed from these in 64-bit arithmetic, and the copy
engine is programmed from the crop window. 32- and 64-bit operations wrap around.
-/
namespace NvidiaProlapse.Video.CopyOut

def w32 (n : ℕ) : ℕ := n % 2 ^ 32

def w64 (n : ℕ) : ℕ := n % 2 ^ 64

def formatNv12 : ℕ := 1
def formatP010 : ℕ := 2
def formatYuv420p : ℕ := 3

/-- Target description; planes are Y and CbCr, or Y, Cb and Cr. -/
structure Target where
  dmabufFd : ℕ → ℤ
  offset : ℕ → UInt64
  pitch : ℕ → UInt32
  modifier : UInt64
  format : ℕ
  width : ℕ
  height : ℕ

/-- Destination layout: pitch, or block linear with log2 block height and GOB kinds per plane. -/
structure TargetLayout where
  block : Option (ℕ × ℕ × ℕ)
  pitch : ℕ → UInt32
  planar : Bool

/-- The engine's surfaces. -/
structure SurfaceLayout where
  pitch : ℕ
  lumaRows : ℕ
  chromaRows : ℕ
  bytesPerSample : ℕ
  pitch_lt : pitch < 2 ^ 32 := by decide
  lumaRows_lt : lumaRows < 2 ^ 32 := by decide

/-- An imported buffer. -/
structure Buffer where
  size : ℕ
  address : ℕ
  size_lt : size < 2 ^ 64 := by decide

/-- What the copy engine is programmed with for one plane. -/
structure PlaneCopy where
  srcBlockSize : ℕ
  srcSize : ℕ × ℕ
  srcOrigin : ℕ × ℕ
  /-- Component of the source element, with remapping. -/
  remap : Option ℕ
  /-- Block size, width and rows of a block-linear destination. -/
  dstBlock : Option (ℕ × ℕ × ℕ)
  src : ℕ
  dst : ℕ
  pitchIn : ℕ
  pitchOut : ℕ
  lineLength : ℕ
  lineCount : ℕ
  launch : ℕ

def hex (n : ℕ) : String := "0x" ++ String.ofList (Nat.toDigits 16 n)

/-! ## Target layout -/

/-- GOB kinds of Blackwell by bytes per sample. -/
def blackwellGobKinds (bytesPerSample : ℕ) : ℕ × ℕ := if bytesPerSample = 1 then (1, 2) else (2, 0)

def badPitch (t : Target) (p : ℕ) : Bool := t.pitch p = 0 || (t.pitch p).toNat % 4 ≠ 0

def parseLinear (t : Target) (planar : Bool) : VResult TargetLayout :=
  match (List.range (if planar then 3 else 2)).find? (badPitch t) with
  | some p =>
    let pitch := (t.pitch p).toNat
    .error (.invalid s!"LINEAR plane {p} pitch {pitch}")
  | none => .ok ⟨none, t.pitch, planar⟩

def gobKinds (g copyClass bytesPerSample : ℕ) : Option (ℕ × ℕ) :=
  if g = 3 ∧ 0xc9b5 ≤ copyClass then some (blackwellGobKinds bytesPerSample)
  else if g = 2 then some (0, 0)
  else none

/-- The bits of an NVIDIA block-linear modifier: `0x10 | h | k << 12 | g << 20 | s << 22 | c << 23`. -/
def parseBlockLinear (modifier copyClass bytesPerSample : ℕ) : VResult TargetLayout :=
  let text := hex modifier
  let v := modifier % 2 ^ 56
  let h := v % 16
  let g := v / 2 ^ 20 % 4
  let c := v / 2 ^ 23 % 8
  if modifier / 2 ^ 56 ≠ 3 ∨ v / 16 % 2 = 0 ∨ v / 2 ^ 26 ≠ 0 then
    .error (.unsupported s!"modifier {text}: only LINEAR and NVIDIA 2D block-linear")
  else if c ≠ 0 ∨ 5 < h then
    .error (.unsupported s!"modifier {text}: compressed or block height > 32 GOBs")
  else
    match gobKinds g copyClass bytesPerSample with
    | none =>
      let cls := hex copyClass
      .error (.unsupported s!"modifier {text}: GOB generation {g} not writable by copy class {cls}")
    | some (luma, chroma) => .ok ⟨some (h, luma, chroma), fun _ => 0, false⟩

namespace TargetLayout

def parse (t : Target) (copyClass bytesPerSample : ℕ) : VResult TargetLayout :=
  let planar := t.format = formatYuv420p
  let text := hex t.modifier.toNat
  if planar ∧ t.modifier ≠ 0 then
    .error (.unsupported s!"planar YUV 4:2:0 target with modifier {text} (LINEAR only)")
  else if t.modifier = 0 then parseLinear t planar
  else if bytesPerSample ≠ 1 then
    .error (.unsupported (s!"P010 block-linear target (modifier {text}): the copy engine's 16-bit " ++
      "block-linear write is not verified end to end; use a LINEAR P010 target"))
  else parseBlockLinear t.modifier.toNat copyClass bytesPerSample

def planes (dst : TargetLayout) : ℕ := if dst.planar then 3 else 2

/-- The bytes a plane may cover, from the rows and the width of the picture. -/
def planeBytes (dst : TargetLayout) (p rows width bps : ℕ) : ℕ :=
  let line :=
    if p = 0 then w32 (width * bps)
    else if dst.planar then w32 ((width + 1) / 2 * bps)
    else w32 ((width + 1) / 2 * 2 * bps)
  match dst.block with
  | none => w64 ((dst.pitch p).toNat * (rows - 1) + line)
  | some (h, _) => w64 (w32 (nextMultipleOf 64 line) * w32 (nextMultipleOf (8 * 2 ^ h) rows))

end TargetLayout

/-! ## The call -/

/-- Bytes per sample of a picture that the target format can carry. -/
def sampleBytes (format depth : ℕ) : VResult ℕ :=
  if (format = formatNv12 ∨ format = formatYuv420p) ∧ depth = 8 then .ok 1
  else if format = formatP010 ∧ depth = 10 then .ok 2
  else if format = formatYuv420p then
    .error (.unsupported s!"planar YUV 4:2:0 target for a {depth}-bit picture (8-bit only)")
  else if format = formatNv12 ∨ format = formatP010 then
    let name := if format = formatNv12 then "NV12" else "P010"
    .error (.unsupported (s!"{name} target for a {depth}-bit picture (NV12 carries 8-bit, P010 10-bit " ++
      "pictures; the copy engine does not convert depth)"))
  else .error (.invalid s!"unknown target format {format}")

def rowsOf (p ch : ℕ) : ℕ := if p = 0 then ch else (ch + 1) / 2

/-- The buffer of a plane, if the plane fits it. -/
def placePlane (t : Target) (dst : TargetLayout) (imported : ℤ → VResult Buffer) (cw ch bps p : ℕ) :
    VResult Buffer :=
  let fd := t.dmabufFd p
  if fd < 0 then .error (.invalid s!"plane {p} dma-buf fd {fd}")
  else do
    let buffer ← imported fd
    let need := w64 ((t.offset p).toNat + dst.planeBytes p (rowsOf p ch) cw bps)
    let size := buffer.size
    if size < need then .error (.invalid s!"plane {p} needs {need} bytes, dma-buf has {size}")
    else .ok buffer

/-- Registers of the copy of plane `p` to address `dstVa`. -/
def programPlane (t : Target) (dst : TargetLayout) (layout : SurfaceLayout) (copyClass : ℕ)
    (srcKinds : ℕ × ℕ) (surface : ℕ × ℕ) (crop : ℕ × ℕ × ℕ × ℕ) (bps dstVa p : ℕ) : PlaneCopy :=
  let (cl, ct, cw, ch) := crop
  let remap := if 0 < p ∧ dst.planes = 3 then some (if p = 1 then 0 else 1) else none
  let (src, rowsAlloc, rows, line, ox, oy) :=
    if p = 0 then (surface.1, layout.lumaRows, ch, w32 (cw * bps), w32 (cl * bps), ct)
    else if remap.isSome then
      (surface.2, layout.chromaRows, (ch + 1) / 2, (cw + 1) / 2, cl / 2, ct / 2)
    else
      (surface.2, layout.chromaRows, (ch + 1) / 2, w32 ((cw + 1) / 2 * 2 * bps), w32 (cl / 2 * 2 * bps),
        ct / 2)
  let blackwell := decide (0xc9b5 ≤ copyClass)
  let kind (kinds : ℕ × ℕ) := if blackwell then (if p = 0 then kinds.1 else kinds.2) * 2 ^ 16 else 0
  { srcBlockSize := 2 ^ 4 + 2 ^ 12 + kind srcKinds
    srcSize := (if remap.isSome then layout.pitch / 2 else layout.pitch, rowsAlloc)
    srcOrigin := (ox, oy)
    remap := remap
    dstBlock := dst.block.map fun (h, kinds) =>
      (h * 2 ^ 4 + 2 ^ 12 + kind kinds, w32 (nextMultipleOf 64 line),
        w32 (nextMultipleOf (8 * 2 ^ h) rows))
    src := src
    dst := dstVa
    pitchIn := layout.pitch
    pitchOut := (t.pitch p).toNat
    lineLength := line
    lineCount := rows
    launch := 2 + 2 ^ 2 + 2 ^ 9 + (if remap.isSome then 2 ^ 10 else 0) +
      if dst.block.isNone then 2 ^ 8 else 0 }

/-- A copy as it is launched, with the buffer it goes to and its offset there. -/
structure Launched where
  buffer : Buffer
  offset : ℕ
  plane : PlaneCopy

def launchPlanes (t : Target) (dst : TargetLayout) (layout : SurfaceLayout) (copyClass : ℕ)
    (srcKinds surface : ℕ × ℕ) (crop : ℕ × ℕ × ℕ × ℕ) (bps : ℕ) (imported : ℤ → VResult Buffer) :
    List ℕ → VResult (List Launched)
  | [] => .ok []
  | p :: ps => do
    let buffer ← placePlane t dst imported crop.2.2.1 crop.2.2.2 bps p
    let rest ← launchPlanes t dst layout copyClass srcKinds surface crop bps imported ps
    let dstVa := w64 (buffer.address + (t.offset p).toNat)
    .ok (⟨buffer, (t.offset p).toNat,
      programPlane t dst layout copyClass srcKinds surface crop bps dstVa p⟩ :: rest)

/-- The copies of a picture, one for each plane. -/
def copyOut (t : Target) (layout : SurfaceLayout) (copyClass : ℕ) (srcKinds surface : ℕ × ℕ)
    (info : PictureInfo) (imported : ℤ → VResult Buffer) : VResult (List Launched) := do
  let bps ← sampleBytes t.format info.bitDepth
  let (depth, bytes) := (info.bitDepth, layout.bytesPerSample)
  if bps ≠ bytes then .error (.invalid s!"{depth}-bit picture on {bytes}-byte engine surfaces")
  else
    let (_, _, cw, ch) := info.crop
    let (width, height) := (t.width, t.height)
    if width < cw ∨ height < ch then
      .error (.invalid s!"target {width}x{height} smaller than the display window {cw}x{ch}")
    else do
      let dst ← TargetLayout.parse t copyClass bps
      launchPlanes t dst layout copyClass srcKinds surface info.crop bps imported (List.range dst.planes)

/-! ## What a copy writes -/

namespace PlaneCopy

/-- The bytes a copy can write, counted from its destination address: lines at pitch distance, or
the padded blocks. -/
def Writes (c : PlaneCopy) (b : ℕ) : Prop :=
  match c.dstBlock with
  | none => ∃ row < c.lineCount, ∃ x < c.lineLength, b = c.pitchOut * row + x
  | some (_, width, rows) => b < width * rows

def extent (c : PlaneCopy) : ℕ :=
  match c.dstBlock with
  | none => if c.lineCount = 0 ∨ c.lineLength = 0 then 0
      else c.pitchOut * (c.lineCount - 1) + c.lineLength
  | some (_, width, rows) => width * rows

variable {c : PlaneCopy}

lemma Writes.lt_extent {b : ℕ} (h : c.Writes b) : b < c.extent := by
  unfold Writes at h
  unfold extent
  cases hblock : c.dstBlock with
  | some block =>
    rw [hblock] at h
    exact h
  | none =>
    rw [hblock] at h
    obtain ⟨row, hrow, x, hx, rfl⟩ := h
    have hmul : c.pitchOut * row ≤ c.pitchOut * (c.lineCount - 1) := Nat.mul_le_mul_left _ (by omega)
    dsimp only
    rw [if_neg (by omega)]
    omega

lemma writes_last (h : 0 < c.extent) : c.Writes (c.extent - 1) := by
  unfold extent at h ⊢
  unfold Writes
  cases hblock : c.dstBlock with
  | some block =>
    rw [hblock] at h
    dsimp only at h ⊢
    omega
  | none =>
    rw [hblock] at h
    dsimp only at h ⊢
    split_ifs at h ⊢ with hempty
    · omega
    · exact ⟨c.lineCount - 1, by omega, c.lineLength - 1, by omega, by omega⟩

/-- All that is written lies in the buffer exactly if the extent does. -/
lemma inside_iff (c : PlaneCopy) (offset size : ℕ) :
    (∀ b, c.Writes b → offset + b < size) ↔ c.extent = 0 ∨ offset + c.extent ≤ size := by
  constructor
  · intro h
    rcases Nat.eq_zero_or_pos c.extent with hzero | hpos
    · exact .inl hzero
    · have hlast := h _ (writes_last hpos)
      exact .inr (by omega)
  · rintro (hzero | hle) b hb
    all_goals
      have hlt := hb.lt_extent
      omega

end PlaneCopy

/-! ## The bound and the registers -/

/-- The crop window lies in the surface. -/
def CropInside (layout : SurfaceLayout) (crop : ℕ × ℕ × ℕ × ℕ) : Prop :=
  crop.1 + crop.2.2.1 ≤ layout.pitch / layout.bytesPerSample ∧ crop.2.1 + crop.2.2.2 ≤ layout.lumaRows

variable {t : Target} {dst : TargetLayout} {layout : SurfaceLayout} {copyClass bps p : ℕ}
  {srcKinds surface : ℕ × ℕ} {crop : ℕ × ℕ × ℕ × ℕ}

lemma w32_lt (n : ℕ) : w32 n < 2 ^ 32 := Nat.mod_lt _ (by decide)

variable {n : ℕ} {copies : List Launched} {imported : ℤ → VResult Buffer}

lemma w32_of_lt (h : n < 2 ^ 32) : w32 n = n := Nat.mod_eq_of_lt h

lemma w64_of_lt (h : n < 2 ^ 64) : w64 n = n := Nat.mod_eq_of_lt h

/-- A layout for pitch destinations has the pitches of the target; a planar one is for planar
targets. -/
lemma parse_ok (h : TargetLayout.parse t copyClass bps = .ok dst) :
    (dst.block = none → dst.pitch = t.pitch) ∧ (dst.planar = true → t.format = formatYuv420p) := by
  unfold TargetLayout.parse at h
  dsimp only at h
  split_ifs at h with hplanar hlinear hbytes
  · unfold parseLinear at h
    split at h
    · cases h
    · cases h
      exact ⟨fun _ => rfl, by simp⟩
  · unfold parseBlockLinear at h
    dsimp only at h
    split_ifs at h
    split at h
    · cases h
    cases h
    constructor
    · rintro ⟨⟩
    · rintro ⟨⟩

lemma sampleBytes_planar {format depth : ℕ} (h : sampleBytes format depth = .ok bps)
    (hplanar : format = formatYuv420p) : bps = 1 := by
  subst hplanar
  unfold sampleBytes at h
  split_ifs at h with h8 h10
  · cases h
    rfl
  · exact absurd h10.1 (by decide)

/-- The bytes of a line as the bound takes them. -/
def lineOf (dst : TargetLayout) (p width bps : ℕ) : ℕ :=
  if p = 0 then w32 (width * bps)
  else if dst.planar then w32 ((width + 1) / 2 * bps)
  else w32 ((width + 1) / 2 * 2 * bps)

lemma lineOf_lt : lineOf dst p crop.2.2.1 bps < 2 ^ 32 := by
  unfold lineOf
  split_ifs
  all_goals exact w32_lt _

lemma CropInside.width_lt (hcrop : CropInside layout crop) : crop.2.2.1 < 2 ^ 32 := by
  have hdiv := Nat.div_le_self layout.pitch layout.bytesPerSample
  have hpitch := layout.pitch_lt
  have hwidth := hcrop.1
  omega

lemma CropInside.rows_lt (hcrop : CropInside layout crop) : rowsOf p crop.2.2.2 < 2 ^ 32 := by
  have hrows := layout.lumaRows_lt
  have hheight := hcrop.2
  unfold rowsOf
  split_ifs
  · omega
  · omega

/-- Registers that take lines, rows and pitch from the quantities of the bound. -/
structure Programmed (t : Target) (dst : TargetLayout) (crop : ℕ × ℕ × ℕ × ℕ) (bps p : ℕ)
    (c : PlaneCopy) : Prop where
  line : c.lineLength = lineOf dst p crop.2.2.1 bps
  rows : c.lineCount = rowsOf p crop.2.2.2
  pitch : c.pitchOut = (t.pitch p).toNat
  block : c.dstBlock.map Prod.snd = dst.block.map fun b =>
    (w32 (nextMultipleOf 64 c.lineLength), w32 (nextMultipleOf (8 * 2 ^ b.1) c.lineCount))

lemma programPlane_programmed (hcrop : CropInside layout crop) (hplanar : dst.planar = true → bps = 1)
    (dstVa : ℕ) :
    Programmed t dst crop bps p (programPlane t dst layout copyClass srcKinds surface crop bps dstVa p) := by
  have hwidth := hcrop.width_lt
  obtain ⟨cl, ct, cw, ch⟩ := crop
  have hblock : ∀ f : ℕ × ℕ × ℕ → ℕ × ℕ × ℕ, ∀ g : ℕ × ℕ × ℕ → ℕ × ℕ, (∀ b, (f b).2 = g b) →
      (dst.block.map f).map Prod.snd = dst.block.map g := by
    intro f g h
    rw [Option.map_map]
    exact congrArg (dst.block.map ·) (funext h)
  by_cases hp : p = 0
  · subst hp
    exact ⟨rfl, rfl, rfl, hblock _ _ fun _ => rfl⟩
  have hpos : 0 < p := Nat.pos_of_ne_zero hp
  have hhalf : (cw + 1) / 2 < 2 ^ 32 := by
    have hwidth' : cw < 2 ^ 32 := hwidth
    omega
  cases hplane : dst.planar with
  | false =>
    refine ⟨?_, ?_, rfl, hblock _ _ fun _ => rfl⟩
    · simp [programPlane, lineOf, TargetLayout.planes, hp, hplane]
    · simp [programPlane, rowsOf, TargetLayout.planes, hp, hplane]
  | true =>
    refine ⟨?_, ?_, rfl, hblock _ _ fun _ => rfl⟩
    · simp [programPlane, lineOf, TargetLayout.planes, hp, hpos, hplane, hplanar hplane, w32_of_lt hhalf]
    · simp [programPlane, rowsOf, TargetLayout.planes, hp, hpos, hplane]

lemma mul_add_lt {a b c : ℕ} (ha : a < 2 ^ 32) (hb : b < 2 ^ 32) (hc : c < 2 ^ 32) :
    a * b + c < 2 ^ 64 := by
  have hmul : a * b ≤ (2 ^ 32 - 1) * (2 ^ 32 - 1) := Nat.mul_le_mul (by omega) (by omega)
  omega

/-- What the copy of a plane covers is what its bound was computed from. -/
lemma Programmed.extent_eq {c : PlaneCopy} (hc : Programmed t dst crop bps p c)
    (hcrop : CropInside layout crop) (hpitch : dst.block = none → dst.pitch = t.pitch)
    (hpos : 0 < c.extent) : c.extent = dst.planeBytes p (rowsOf p crop.2.2.2) crop.2.2.1 bps := by
  have hline : lineOf dst p crop.2.2.1 bps < 2 ^ 32 := lineOf_lt
  have hrows : rowsOf p crop.2.2.2 < 2 ^ 32 := hcrop.rows_lt
  have hblock := hc.block
  have hbytes : dst.planeBytes p (rowsOf p crop.2.2.2) crop.2.2.1 bps = match dst.block with
      | none => w64 ((dst.pitch p).toNat * (rowsOf p crop.2.2.2 - 1) + lineOf dst p crop.2.2.1 bps)
      | some (h, _) => w64 (w32 (nextMultipleOf 64 (lineOf dst p crop.2.2.1 bps)) *
          w32 (nextMultipleOf (8 * 2 ^ h) (rowsOf p crop.2.2.2))) := rfl
  rw [hbytes]
  unfold PlaneCopy.extent at hpos ⊢
  cases hdst : dst.block with
  | none =>
    rw [hdst, Option.map_none, Option.map_eq_none_iff] at hblock
    rw [hblock] at hpos ⊢
    dsimp only at hpos ⊢
    split_ifs at hpos ⊢ with hempty
    · omega
    · rw [hpitch hdst, w64_of_lt (mul_add_lt (UInt32.toNat_lt _) (by omega) hline), hc.pitch, hc.line,
        hc.rows]
  | some block =>
    rw [hdst, Option.map_some, Option.map_eq_some_iff] at hblock
    obtain ⟨⟨size, width, rows⟩, hblock, heq⟩ := hblock
    cases heq
    rw [hblock]
    rw [hc.line, hc.rows]
    exact (w64_of_lt (mul_add_lt (w32_lt _) (w32_lt _) (by decide : 0 < 2 ^ 32))).symm

/-! ## Accepted targets -/

lemma launchPlanes_ok {ps : List ℕ}
    (h : launchPlanes t dst layout copyClass srcKinds surface crop bps imported ps = .ok copies) :
    ∀ l ∈ copies, ∃ p dstVa, placePlane t dst imported crop.2.2.1 crop.2.2.2 bps p = .ok l.buffer ∧
      l.offset = (t.offset p).toNat ∧
      l.plane = programPlane t dst layout copyClass srcKinds surface crop bps dstVa p := by
  induction ps generalizing copies with
  | nil =>
    cases h
    simp
  | cons p ps ih =>
    rw [launchPlanes] at h
    cases hplace : placePlane t dst imported crop.2.2.1 crop.2.2.2 bps p with
    | error e =>
      rw [hplace] at h
      cases h
    | ok buffer =>
      cases hrest : launchPlanes t dst layout copyClass srcKinds surface crop bps imported ps with
      | error e =>
        rw [hplace, hrest] at h
        cases h
      | ok rest =>
        rw [hplace, hrest] at h
        cases h
        rw [List.forall_mem_cons]
        exact ⟨⟨p, _, hplace, rfl, rfl⟩, ih hrest⟩

lemma placePlane_ok {cw ch : ℕ} {buffer : Buffer}
    (h : placePlane t dst imported cw ch bps p = .ok buffer) :
    w64 ((t.offset p).toNat + dst.planeBytes p (rowsOf p ch) cw bps) ≤ buffer.size := by
  unfold placePlane at h
  dsimp only at h
  split_ifs at h with hfd
  cases himport : imported (t.dmabufFd p) with
  | error e =>
    rw [himport] at h
    cases h
  | ok b =>
    rw [himport] at h
    have h' : (if b.size < w64 ((t.offset p).toNat + dst.planeBytes p (rowsOf p ch) cw bps) then _
      else Except.ok b) = Except.ok buffer := h
    split_ifs at h' with hsmall
    cases h'
    exact not_lt.mp hsmall

lemma copyOut_ok {info : PictureInfo}
    (h : copyOut t layout copyClass srcKinds surface info imported = .ok copies) :
    ∃ bps dst, sampleBytes t.format info.bitDepth = .ok bps ∧
      TargetLayout.parse t copyClass bps = .ok dst ∧
      launchPlanes t dst layout copyClass srcKinds surface info.crop bps imported
        (List.range dst.planes) = .ok copies := by
  unfold copyOut at h
  cases hbytes : sampleBytes t.format info.bitDepth with
  | error e =>
    rw [hbytes] at h
    cases h
  | ok bps =>
    rw [hbytes] at h
    dsimp only [bind, Except.bind] at h
    split_ifs at h
    cases hparse : TargetLayout.parse t copyClass bps with
    | error e =>
      rw [hparse] at h
      cases h
    | ok dst =>
      rw [hparse] at h
      exact ⟨bps, dst, rfl, hparse, h⟩

/-- A copy that was accepted stays inside its buffer exactly if it writes nothing or the offset does
not wrap around when its extent is added. -/
theorem copy_inside_buffer_iff {info : PictureInfo} {imported : ℤ → VResult Buffer}
    {copies : List Launched} (hcrop : CropInside layout info.crop)
    (h : copyOut t layout copyClass srcKinds surface info imported = .ok copies) :
    ∀ l ∈ copies, (∀ b, l.plane.Writes b → l.offset + b < l.buffer.size) ↔
      l.plane.extent = 0 ∨ l.offset + l.plane.extent < 2 ^ 64 := by
  intro l hl
  obtain ⟨bps, dst, hbytes, hparse, hlaunch⟩ := copyOut_ok h
  obtain ⟨p, dstVa, hplace, hoffset, hplane⟩ := launchPlanes_ok hlaunch l hl
  obtain ⟨hpitch, hformat⟩ := parse_ok hparse
  have hprogrammed : Programmed t dst info.crop bps p l.plane := by
    rw [hplane]
    exact programPlane_programmed hcrop (fun hplanar => sampleBytes_planar hbytes (hformat hplanar)) dstVa
  have hbound := placePlane_ok hplace
  have hsize := l.buffer.size_lt
  rw [PlaneCopy.inside_iff]
  rcases Nat.eq_zero_or_pos l.plane.extent with hzero | hpos
  · exact iff_of_true (.inl hzero) (.inl hzero)
  · rw [← hoffset, ← hprogrammed.extent_eq hcrop hpitch hpos] at hbound
    refine or_congr Iff.rfl ⟨fun hle => by omega, fun hlt => ?_⟩
    rwa [w64_of_lt hlt] at hbound

/-- A linear NV12 target for a picture of 64x64, with plane 0 at `offset`. -/
def linearTarget (offset : UInt64) : Target where
  dmabufFd := fun _ => 3
  offset := fun p => if p = 0 then offset else 0
  pitch := fun _ => 64
  modifier := 0
  format := formatNv12
  width := 64
  height := 64

def smallPicture : PictureInfo :=
  ⟨64, 64, (0, 0, 64, 64), 8, 2, 2, 2, false, true⟩

def smallLayout : SurfaceLayout := { pitch := 64, lumaRows := 64, chromaRows := 64, bytesPerSample := 1 }

/-- The copies of the small picture to a buffer of a page. -/
def pageCopies (offset : UInt64) : VResult (List Launched) :=
  copyOut (linearTarget offset) smallLayout 0xc7b5 (0, 0) (0x1000, 0x2000) smallPicture
    fun _ => .ok { size := 4096, address := 0x100000 }

theorem copy_inside_buffer_start :
    ∃ copies, pageCopies 0 = .ok copies ∧
      copies.length = 2 ∧ ∀ l ∈ copies, ∀ b, l.plane.Writes b → l.offset + b < l.buffer.size := by
  have hcrop : CropInside smallLayout smallPicture.crop := by
    unfold CropInside
    decide
  refine ⟨_, rfl, rfl, fun l hl => ?_⟩
  have hcopies : pageCopies 0 = .ok _ := rfl
  refine (copy_inside_buffer_iff hcrop hcopies l hl).mpr (.inr ?_)
  revert l
  decide +kernel

/-- An offset 4096 bytes below `2 ^ 64`: the bound of plane 0 comes out as 0, and its copy goes to
the bytes in front of the buffer. -/
theorem wrapped_offset_accepted :
    ∃ copies, pageCopies 0xfffffffffffff000 = .ok copies ∧
      ∃ l ∈ copies, l.plane.Writes 0 ∧ l.buffer.size ≤ l.offset ∧
        l.plane.dst = l.buffer.address - 4096 := by
  refine ⟨_, rfl, _, List.mem_cons_self, ?_, by decide +kernel, by decide +kernel⟩
  exact ⟨0, by decide, 0, by decide, rfl⟩

end NvidiaProlapse.Video.CopyOut
