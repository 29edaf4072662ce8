import NvidiaProlapse.PushFlushes

/-!
# Texture pools of a GL context

Texture headers and samplers are written by the CPU into the pool of the current slot of
the batch ring, as nvrm_texture.c does. A table that remembers what was written for
the open batch is forgotten when the pool rotates. A draw makes its handles after it has
opened its push, and a launch before it.

A descriptor is the eight words of a texture header with the eight words of a sampler.
Both go to the same slot of their pools, which is the handle.
-/
namespace NvidiaProlapse.TexturePools
open Programs PushChunks

def texPoolSlots : ℕ := 4096
def texSlotHash : ℕ := 8192
def maxTexUnits : ℕ := 16
def maxImages : ℕ := 32
def gfxStages : ℕ := 3

abbrev Words := List UInt32

/-- An entry of the table: valid while `gen` is the generation of the pool. -/
structure TexSlot where
  words : Words
  slot : ℕ
  gen : UInt32
  deriving DecidableEq, Repr

/-- A handle and the descriptor it was made for. -/
structure Handle where
  slot : ℕ
  words : Words
  deriving DecidableEq, Repr

/-- A handle that a draw or launch of a batch uses, with the pool that is bound in this
batch. Batches are numbered in the order of their submission. -/
structure Use where
  batch : ℕ
  pool : Option (Fin batchRing)
  handle : Handle
  deriving DecidableEq, Repr

/-- A context with its texture state. `pools` is the memory of the pools; `bound` are the
descriptors of the units that the graphics shaders use, and `table` the handles last
loaded for them. `gfxPools` and `csPools` are the pools that were last bound for draws and
for launches, with the batch that did it. `uses` is a history. -/
structure Textures where
  gl : Context
  pools : Fin batchRing → ℕ → Words
  texSlots : ℕ → TexSlot
  texSlotGen : UInt32
  bound : List Words
  dirtyTextures : Bool
  dirtyPools : Bool
  table : List Handle
  csTable : List Handle
  gfxPools : Option (ℕ × Fin batchRing)
  csPools : Option (ℕ × Fin batchRing)
  csPoolsSeq : ℕ
  uses : List Use

namespace Textures

def start (pace : List Tick) : Textures where
  gl := .start pace
  pools := fun _ _ => List.replicate 16 0
  texSlots := fun _ => ⟨List.replicate 16 0, 0, 0⟩
  texSlotGen := 1
  bound := []
  dirtyTextures := false
  dirtyPools := false
  table := []
  csTable := []
  gfxPools := none
  csPools := none
  csPoolsSeq := 0
  uses := []

variable (s : Textures)

/-- The number of the open batch. -/
def batch : ℕ := s.gl.submitted.length

/-! ## Slots -/

def hash (words : Words) : UInt32 :=
  words.foldl (fun h word => (h ^^^ word) * 16777619) 2166136261

inductive Probe where
  | hit (slot : ℕ)
  | free (index : ℕ)
  | full

/-- The next entries of the table, up to one that is not valid. -/
def probe (texSlots : ℕ → TexSlot) (gen : UInt32) (words : Words) : UInt32 → ℕ → Probe
  | _, 0 => .full
  | h, remaining + 1 =>
    let index := h.toNat % texSlotHash
    let e := texSlots index
    if e.gen ≠ gen then .free index
    else if e.words = words then .hit e.slot
    else probe texSlots gen words (h + 1) remaining

/-- The pool rotated: forget its entries. -/
def forget : Textures :=
  if s.gl.texPoolNext = 0 then { s with texSlotGen := s.texSlotGen + 1 } else s

/-- Write a descriptor into the next slot of the pool. -/
def addSlot (words : Words) (s : Textures) : Textures := { s with
  gl := { s.gl with texPoolNext := s.gl.texPoolNext + 1 }
  pools := Function.update s.pools s.gl.ringCur
    (Function.update (s.pools s.gl.ringCur) s.gl.texPoolNext words) }

def texSlot (words : Words) (s : Textures) : ℕ × Textures :=
  let s := s.forget
  let slot := s.gl.texPoolNext
  match probe s.texSlots s.texSlotGen words (hash words) 32 with
  | .hit slot => (slot, s)
  | .free index => (slot, { s.addSlot words with
      texSlots := Function.update s.texSlots index ⟨words, slot, s.texSlotGen⟩ })
  | .full => (slot, s.addSlot words)

def texHandles : List Words → Textures → List Handle × Textures
  | [], s => ([], s)
  | words :: rest, s =>
    let r := texSlot words s
    let t := texHandles rest r.2
    (⟨r.1, words⟩ :: t.1, t.2)

/-! ## Programs -/

/-- A program of the push memory. -/
def onGl (p : Prog Context Abort Unit) : Prog Textures Abort Unit :=
  focus gl (fun c s => { s with gl := c }) p

variable (sizes : Sizes)

/-- A flush that a push or the driver itself makes. -/
def flush : Prog Textures Abort Unit := onGl (Context.flush sizes false)

def textureReserve (slots : ℕ) : Prog Textures Abort Unit := do
  let s ← get
  onlyIf (s.gl.texPoolNext + slots > texPoolSlots) (flush sizes)

/-- Local memory that has to grow is replaced after a flush. -/
def slmEnsure (grow : Bool) : Prog Textures Abort Unit :=
  onlyIf grow (do
    flush sizes
    modify fun s => { s with dirtyPools := true })

/-- The use of a handle with a pool that is bound in the open batch. -/
def use (pools : Option (ℕ × Fin batchRing)) (handle : Handle) : Use where
  batch := s.batch
  pool := pools.bind fun bound => if bound.1 = s.batch then some bound.2 else none
  handle := handle

/-! ## Draws -/

/-- A draw. `grow`, `resume` and `load` tell of what it needs before its push: more local
memory, the counters of stream output that the open batch writes, and copies into render
shadows; `rendered` and `captured` of what it emits. -/
structure Draw where
  grow : Bool
  resume : Bool
  load : Bool
  rendered : Bool
  captured : Bool
  command : Command
  writes : 0 < (command.body.map Part.count).sum

def dirty : Bool := s.gl.dirtyBatch || s.dirtyTextures

def emitTexPools : Textures :=
  if s.gl.dirtyBatch || s.dirtyPools then { s with gfxPools := some (s.batch, s.gl.ringCur) } else s

def emitTextures : Textures :=
  if s.dirty then
    let r := texHandles s.bound s
    { r.2 with table := r.1 }
  else s

/-- The draw itself, with the handles that are loaded. -/
def emitDraw (rendered captured : Bool) (s : Textures) : Textures := { s with
  gl := { s.gl with
    dirtyBatch := false
    shadowWritten := s.gl.shadowWritten || rendered
    soActive := s.gl.soActive || captured }
  dirtyTextures := false
  dirtyPools := false
  uses := s.uses ++ s.table.map (s.use s.gfxPools) }

def draw (d : Draw) : Prog Textures Abort Unit := do
  slmEnsure sizes d.grow
  let s ← get
  onlyIf s.dirty (textureReserve sizes s.bound.length)
  onlyIf d.resume (flush sizes)
  onlyIf d.load (onGl (Context.fbShadowCopy sizes (Context.flush sizes false)))
  onGl (Context.pushBegin (Context.flush sizes false) d.command.dw)
  modify fun s => s.emitTexPools.emitTextures.emitDraw d.rendered d.captured
  onGl (each Context.emit d.command.body)

/-! ## Launches -/

def launchDw : ℕ := 96

/-- A launch of a shader whose units have these descriptors. -/
structure Launch where
  grow : Bool
  units : List Words
  units_le : units.length ≤ maxTexUnits + maxImages
  body : List Part
  fits : (body.map Part.count).sum ≤ launchDw
  writes : 0 < (body.map Part.count).sum

/-- The handles of a launch, in upload memory. -/
def uploadTexHandles (units : List Words) (s : Textures) : Textures :=
  let r := texHandles units s
  { r.2 with csTable := r.1 }

/-- The pools for launches are bound once for each batch. -/
def bindCsPools : Textures :=
  if s.csTable ≠ [] ∧ s.csPoolsSeq ≠ s.gl.flushSeq + 1 then
    { s with csPools := some (s.batch, s.gl.ringCur), csPoolsSeq := s.gl.flushSeq + 1 }
  else s

def emitLaunch : Textures :=
  { s with uses := s.uses ++ s.csTable.map (s.use s.csPools) }

def launchGrid (l : Launch) : Prog Textures Abort Unit := do
  slmEnsure sizes l.grow
  onGl (Context.pushReserve (Context.flush sizes false) launchDw)
  textureReserve sizes l.units.length
  modify (uploadTexHandles l.units)
  onGl (Context.pushBegin (Context.flush sizes false) launchDw)
  modify fun s => s.bindCsPools.emitLaunch
  onGl (each Context.emit l.body)

end Textures

/-! ## Steps -/

/-- `bind` gives the graphics units other descriptors, and `other` is everything else that
records commands or flushes. -/
inductive Action where
  | draw (d : Textures.Draw)
  | launch (l : Textures.Launch)
  | bind (units : List Words) (fits : units.length ≤ gfxStages * (maxTexUnits + maxImages))
  | other (action : PushChunks.Action)

namespace Textures

def act (sizes : Sizes) : Action → Prog Textures Abort Unit
  | .draw d => draw sizes d
  | .launch l => launchGrid sizes l
  | .bind units _ => modify fun s => { s with bound := units, dirtyTextures := true }
  | .other action => onGl (Context.act sizes action)

/-- The state after an action that does not stop the process. -/
def step (sizes : Sizes) (s : Textures) (action : Action) : Option Textures :=
  match exec (act sizes action) s with
  | (.ok _, t) => some t
  | (.error _, _) => none

end Textures

end NvidiaProlapse.TexturePools
