import NvidiaProlapse.LastWrites

/-!
# The compute state of a command buffer, and its shadow

The decoder of compressed textures records its own dispatch into the application's
command buffer. The shadow keeps the commands that made up the application's compute
state and replays them after the decode. Handles are numbers, 0 is the null handle, and
the writes of push descriptors are copied with what they point to.
-/
namespace NvidiaProlapse.CommandState

open LastWrites

def maxSets : ℕ := 32

def maxPush : ℕ := 32

/-- The position of the compute stage in a set of stages. -/
def computeStage : ℕ := 5

/-- The push constants of the decoder are for the compute stage alone. -/
def computeBit : ℕ := 2 ^ computeStage

/-! ## What Vulkan records -/

inductive Bound
  | pipeline (p : ℕ)
  | shader (s : ℕ)
  deriving DecidableEq, Repr

/-- A descriptor's place. -/
structure Slot where
  set : ℕ
  binding : ℕ
  element : ℕ
  deriving DecidableEq, Repr

/-- A byte of the push constants that a stage sees. -/
structure Byte where
  stage : ℕ
  offset : ℕ
  deriving DecidableEq, Repr

inductive WriteKind
  | image
  | texelBuffer
  | buffer
  | inlineBlock
  | other
  deriving DecidableEq, Repr

/-- What hangs at a `pNext`. -/
inductive Chain
  | empty
  /-- The data of an inline uniform block and nothing else. -/
  | inlineBlock
  | other
  deriving DecidableEq, Repr

structure DescriptorWrite where
  binding : ℕ
  /-- The first array element. -/
  element : ℕ
  kind : WriteKind
  chain : Chain := .empty
  /-- The image, view, buffer or byte for each element. -/
  infos : List ℕ
  deriving DecidableEq, Repr

/-- A descriptor is known by what put it there. -/
inductive Descriptor
  | inSet (layout : ℕ) (sets dyn : List ℕ) (position binding element : ℕ)
  | pushed (kind : WriteKind) (info : ℕ)
  | inBuffer (layout : ℕ) (index offset binding element : ℕ)
  | sampler (layout binding element : ℕ)
  deriving DecidableEq, Repr

/-- A write names consecutive elements of one binding. -/
def DescriptorWrite.value (w : DescriptorWrite) (x : Slot) : Option Descriptor :=
  if x.binding = w.binding ∧ w.element ≤ x.element then
    (w.infos[x.element - w.element]?).map (.pushed w.kind)
  else none

inductive Payload
  | bind (sets dyn : List ℕ)
  | pushDesc (writes : List DescriptorWrite)
  | dbOffsets (indices offsets : List ℕ)
  | dbSamplers
  deriving DecidableEq, Repr

/-- A command that binds descriptors at the set indices from `first` on. -/
structure Content where
  layout : ℕ
  first : ℕ
  count : ℕ
  payload : Payload
  deriving DecidableEq, Repr

/-- A binding replaces all descriptors of its sets; push descriptors replace those they name. -/
def Content.value (c : Content) (x : Slot) : Option Descriptor :=
  if c.first ≤ x.set ∧ x.set < c.first + c.count then
    match c.payload with
    | .bind sets dyn => some (.inSet c.layout sets dyn (x.set - c.first) x.binding x.element)
    | .pushDesc writes => latest DescriptorWrite.value writes x
    | .dbOffsets indices offsets =>
      some (.inBuffer c.layout (indices.getD (x.set - c.first) 0) (offsets.getD (x.set - c.first) 0)
        x.binding x.element)
    | .dbSamplers => some (.sampler c.layout x.binding x.element)
  else none

structure Push where
  layout : ℕ
  /-- A set of stages, by bits. -/
  stages : ℕ
  offset : ℕ
  data : List UInt8
  deriving DecidableEq, Repr

/-- Push constants change the bytes of the named stages. -/
def Push.value (p : Push) (x : Byte) : Option UInt8 :=
  if p.stages.testBit x.stage ∧ p.offset ≤ x.offset then p.data[x.offset - p.offset]? else none

/-- What the compute bind point holds. `none` is what nobody has set. -/
structure ComputeState where
  bound : Option Bound := none
  sets : Slot → Option Descriptor := fun _ => none
  push : Byte → Option UInt8 := fun _ => none

namespace ComputeState

def bind (g : ComputeState) (b : Bound) : ComputeState := { g with bound := some b }

def describe (g : ComputeState) (c : Content) : ComputeState :=
  { g with sets := write Content.value g.sets c }

def pushConstants (g : ComputeState) (p : Push) : ComputeState :=
  { g with push := write Push.value g.push p }

end ComputeState

/-! ## The shadow -/

/-- A recorded command with the number of set indices it still owns. -/
structure Call where
  /-- Calls are told apart by their addresses. -/
  id : ℕ
  content : Content
  refs : ℕ
  deriving DecidableEq, Repr

structure Tracker where
  bound : Option Bound := none
  owner : ℕ → Option ℕ := fun _ => none
  /-- In recording order. -/
  calls : List Call := []
  /-- The most recent last. -/
  push : List Push := []
  /-- An update reached the compute stage: from then on every update is kept. -/
  pushCompute : Bool := false
  conditional : Bool := false
  /-- The first thing that cannot be replayed. -/
  lost : Option String := none
  nextId : ℕ := 0

/-- What the allocator answers. -/
structure Answer where
  shadow : Bool := true
  call : Bool := true
  deriving DecidableEq, Repr

namespace Tracker

variable (t : Tracker)

def lose (why : String) : Tracker := { t with lost := t.lost.or (some why) }

/-- A call owns one index less, and is dropped with the last. -/
def release (id : ℕ) : Tracker :=
  { t with
    calls := (t.calls.map fun c => if c.id = id then { c with refs := c.refs - 1 } else c).filter
      fun c => !(c.id = id && c.refs = 0) }

def takeOver (id : ℕ) (t : Tracker) (k : ℕ) : Tracker :=
  let old := t.owner k
  let t := { t with owner := Function.update t.owner k (some id) }
  match old with
  | none => t
  | some o => t.release o

/-- `add_call`: the call owns its indices now. -/
def addCall (content : Content) : Tracker :=
  let id := t.nextId
  let t := (List.range' content.first content.count).foldl (takeOver id) { t with nextId := id + 1 }
  { t with calls := t.calls ++ [⟨id, content, content.count⟩] }

/-- `new_call`, and then `add_call`. -/
def newCall (a : Answer) (content : Content) : Tracker :=
  if content.count = 0 ∨ maxSets ≤ content.first ∨ maxSets - content.first < content.count then
    t.lose "a descriptor set index beyond 32"
  else if a.call = false then t.lose "out of host memory"
  else t.addCall content

/-- A binding with a pipeline layout that can be named again. -/
def record (a : Answer) (dynamicLayout : String) (content : Content) : Tracker :=
  if content.layout = 0 then t.lose dynamicLayout else t.newCall a content

def recordBind (a : Answer) (layout first : ℕ) (sets dyn : List ℕ) : Tracker :=
  t.record a "a descriptor-set binding with a dynamic pipeline layout (VkPipelineLayoutCreateInfo in pNext)"
    ⟨layout, first, sets.length, .bind sets dyn⟩

def recordDbOffsets (a : Answer) (layout first : ℕ) (indices offsets : List ℕ) : Tracker :=
  t.record a "descriptor buffer offsets with a dynamic pipeline layout"
    ⟨layout, first, indices.length, .dbOffsets indices offsets⟩

def recordDbSamplers (a : Answer) (layout set : ℕ) : Tracker :=
  t.record a "embedded descriptor buffer samplers with a dynamic pipeline layout"
    ⟨layout, set, 1, .dbSamplers⟩

end Tracker

/-- `write_payload`: whether the shadow can copy the write. -/
def DescriptorWrite.copyable (w : DescriptorWrite) : Bool :=
  match w.kind with
  | .inlineBlock => w.chain = .inlineBlock
  | .other => false
  | .image | .texelBuffer | .buffer => w.chain = .empty

namespace Tracker

def recordPushDesc (t : Tracker) (a : Answer) (fn : Bool) (layout set : ℕ)
    (writes : List DescriptorWrite) : Tracker :=
  if fn = false then
    t.lose "push descriptors without a vkCmdPushDescriptorSet entry point to replay them"
  else if layout = 0 then t.lose "push descriptors with a dynamic pipeline layout"
  else if writes.all DescriptorWrite.copyable = false then
    t.lose "push descriptors of a type or with a pNext structure the shadow does not copy"
  else t.newCall a ⟨layout, set, 1, .pushDesc writes⟩

end Tracker

/-- The same layout, stages and range. -/
def Push.sameRange (p q : Push) : Bool :=
  p.layout = q.layout && p.stages = q.stages && p.offset = q.offset && p.data.length = q.data.length

namespace Tracker

/-- `record_push` where it keeps the update. -/
def keepPush (t : Tracker) (a : Answer) (p : Push) : Tracker :=
  if p.layout = 0 then t.lose "push constants with a dynamic pipeline layout"
  else
    let t := { t with pushCompute := t.pushCompute || p.stages.testBit computeStage }
    if t.push.any p.sameRange then { t with push := t.push.eraseP p.sameRange ++ [p] }
    else if t.push.length = maxPush then t.lose "more than 32 distinct push-constant updates"
    else if a.call = false then t.lose "out of host memory"
    else { t with push := t.push ++ [p] }

end Tracker

/-- `cs_of`: the shadow is allocated with the first command that needs it. -/
def csOf (cs : Option Tracker) (a : Answer) : Option Tracker :=
  cs.or (if a.shadow then some {} else none)

/-! ## Commands -/

inductive Command
  | bindPipeline (compute : Bool) (pipeline : ℕ)
  /-- Stages by their positions; no list of shaders unbinds them. -/
  | bindShaders (stages : List ℕ) (shaders : Option (List ℕ))
  | bindDescriptorSets (compute : Bool) (layout first : ℕ) (sets dyn : List ℕ)
  | bindDescriptorSets2 (stages : ℕ) (next : Bool) (layout first : ℕ) (sets dyn : List ℕ)
  | pushConstants (p : Push)
  | pushConstants2 (next : Bool) (p : Push)
  | pushDescriptorSet (compute : Bool) (layout set : ℕ) (writes : List DescriptorWrite)
  /-- With an entry point for the replay or without. -/
  | pushDescriptorSet2 (stages : ℕ) (next fn : Bool) (layout set : ℕ) (writes : List DescriptorWrite)
  | pushDescriptorSetWithTemplate (compute : Bool) (layout set : ℕ) (writes : List DescriptorWrite)
  | setDescriptorBufferOffsets (compute : Bool) (layout first : ℕ) (indices offsets : List ℕ)
  | setDescriptorBufferOffsets2 (stages : ℕ) (next : Bool) (layout first : ℕ) (indices offsets : List ℕ)
  | bindEmbeddedSamplers (compute : Bool) (layout set : ℕ)
  | bindEmbeddedSamplers2 (stages : ℕ) (next : Bool) (layout set : ℕ)
  | beginConditionalRendering
  | endConditionalRendering
  /-- A sampler or resource heap, or push data. -/
  | heap
  deriving DecidableEq, Repr

/-- The shaders that the command binds at the compute stage, in order. -/
def computeShaders (stages : List ℕ) (shaders : Option (List ℕ)) : List ℕ :=
  stages.zipIdx.filterMap fun s =>
    if s.1 = computeStage then some ((shaders.getD []).getD s.2 0) else none

namespace Command

/-- The descriptors that the command binds for compute. -/
def content : Command → Option Content
  | .bindDescriptorSets compute layout first sets dyn =>
    if compute then some ⟨layout, first, sets.length, .bind sets dyn⟩ else none
  | .bindDescriptorSets2 stages _ layout first sets dyn =>
    if stages.testBit computeStage then some ⟨layout, first, sets.length, .bind sets dyn⟩ else none
  | .pushDescriptorSet compute layout set writes =>
    if compute then some ⟨layout, set, 1, .pushDesc writes⟩ else none
  | .pushDescriptorSet2 stages _ _ layout set writes =>
    if stages.testBit computeStage then some ⟨layout, set, 1, .pushDesc writes⟩ else none
  | .pushDescriptorSetWithTemplate compute layout set writes =>
    if compute then some ⟨layout, set, 1, .pushDesc writes⟩ else none
  | .setDescriptorBufferOffsets compute layout first indices offsets =>
    if compute then some ⟨layout, first, indices.length, .dbOffsets indices offsets⟩ else none
  | .setDescriptorBufferOffsets2 stages _ layout first indices offsets =>
    if stages.testBit computeStage then
      some ⟨layout, first, indices.length, .dbOffsets indices offsets⟩
    else none
  | .bindEmbeddedSamplers compute layout set =>
    if compute then some ⟨layout, set, 1, .dbSamplers⟩ else none
  | .bindEmbeddedSamplers2 stages _ layout set =>
    if stages.testBit computeStage then some ⟨layout, set, 1, .dbSamplers⟩ else none
  | _ => none

/-- What the command does to the state of the compute bind point. -/
def effect (g : ComputeState) (c : Command) : ComputeState :=
  match c with
  | .bindPipeline compute p => if compute then g.bind (.pipeline p) else g
  | .bindShaders stages shaders =>
    (computeShaders stages shaders).foldl (fun g s => g.bind (.shader s)) g
  | .pushConstants p => g.pushConstants p
  | .pushConstants2 _ p => g.pushConstants p
  | c => c.content.elim g g.describe

variable (cs : Option Tracker)

/-- A command that concerns the shadow. -/
def shadowIf (a : Answer) (concerned : Bool) (keep : Tracker → Tracker) :
    Option Tracker :=
  if concerned then (csOf cs a).map keep else cs

/-- A command of the second kind is shadowed for the compute stage and without a `pNext`. -/
def shadow2 (a : Answer) (stages : ℕ) (next : Bool) (why : String)
    (keep : Tracker → Tracker) : Option Tracker :=
  shadowIf cs a (stages.testBit computeStage) fun t => if next then t.lose why else keep t

/-- The update reaches the compute stage, or one before it did. -/
def keepsPush (stages : ℕ) : Bool :=
  stages.testBit computeStage || cs.any (·.pushCompute)

/-- What the shadow keeps of the command. -/
def shadow (a : Answer) : Command → Option Tracker
  | .bindPipeline compute p => shadowIf cs a compute fun t => { t with bound := some (.pipeline p) }
  | .bindShaders stages shaders =>
    (computeShaders stages shaders).foldl
      (fun cs s => shadowIf cs a true fun t => { t with bound := some (.shader s) }) cs
  | .bindDescriptorSets compute layout first sets dyn =>
    shadowIf cs a compute fun t => t.recordBind a layout first sets dyn
  | .bindDescriptorSets2 stages next layout first sets dyn =>
    shadow2 cs a stages next "vkCmdBindDescriptorSets2 with a pNext structure"
      fun t => t.recordBind a layout first sets dyn
  | .pushConstants p => shadowIf cs a (keepsPush cs p.stages) fun t => t.keepPush a p
  | .pushConstants2 next p =>
    shadowIf cs a (keepsPush cs p.stages) fun t =>
      if next then t.lose "vkCmdPushConstants2 with a pNext structure" else t.keepPush a p
  | .pushDescriptorSet compute layout set writes =>
    shadowIf cs a compute fun t => t.recordPushDesc a true layout set writes
  | .pushDescriptorSet2 stages next fn layout set writes =>
    shadow2 cs a stages next "vkCmdPushDescriptorSet2 with a pNext structure"
      fun t => t.recordPushDesc a fn layout set writes
  | .pushDescriptorSetWithTemplate _ _ _ _ =>
    shadowIf cs a true fun t => t.lose "push descriptors through a descriptor update template"
  | .setDescriptorBufferOffsets compute layout first indices offsets =>
    shadowIf cs a compute fun t => t.recordDbOffsets a layout first indices offsets
  | .setDescriptorBufferOffsets2 stages next layout first indices offsets =>
    shadow2 cs a stages next "vkCmdSetDescriptorBufferOffsets2EXT with a pNext structure"
      fun t => t.recordDbOffsets a layout first indices offsets
  | .bindEmbeddedSamplers compute layout set =>
    shadowIf cs a compute fun t => t.recordDbSamplers a layout set
  | .bindEmbeddedSamplers2 stages next layout set =>
    shadow2 cs a stages next "vkCmdBindDescriptorBufferEmbeddedSamplers2EXT with a pNext structure"
      fun t => t.recordDbSamplers a layout set
  | .beginConditionalRendering => shadowIf cs a true fun t => { t with conditional := true }
  | .endConditionalRendering => cs.map fun t => { t with conditional := false }
  | .heap =>
    shadowIf cs a true fun t =>
      t.lose "descriptor heap state (VK_EXT_descriptor_heap), which the decode's descriptor-set binding invalidates"

end Command

/-! ## Decode and restore -/

/-- The command that a call replays. -/
def Content.command (c : Content) : Command :=
  match c.payload with
  | .bind sets dyn => .bindDescriptorSets true c.layout c.first sets dyn
  | .pushDesc writes => .pushDescriptorSet true c.layout c.first writes
  | .dbOffsets indices offsets => .setDescriptorBufferOffsets true c.layout c.first indices offsets
  | .dbSamplers => .bindEmbeddedSamplers true c.layout c.first

def Bound.command : Bound → Command
  | .pipeline p => .bindPipeline true p
  | .shader s => .bindShaders [computeStage] (some [s])

/-- `nvhal_cs_restore`: the updates from the first one on that names the compute stage. -/
def Tracker.restore (t : Tracker) : List Command :=
  t.bound.toList.map Bound.command ++ t.calls.map (·.content.command) ++
    (t.push.dropWhile fun p => !p.stages.testBit computeStage).map .pushConstants

/-- The decode of one region: its pipeline, its descriptor set, and the bytes it pushes. -/
structure Job where
  pipeline : ℕ
  layout : ℕ
  set : ℕ
  values : List UInt8
  deriving DecidableEq, Repr

/-- `record_decode`. -/
def Job.commands (j : Job) : List Command :=
  [.bindPipeline true j.pipeline, .bindDescriptorSets true j.layout 0 [j.set] [],
    .pushConstants ⟨j.layout, computeBit, 0, j.values⟩]

/-- `decode_jobs`: the decodes, and the application's state again. -/
def decodeJobs (cs : Option Tracker) (jobs : List Job) : List Command :=
  if jobs = [] then [] else jobs.flatMap Job.commands ++ (cs.map Tracker.restore).getD []

/-- A command buffer that records: the state that the application's own commands leave, the state
with the decodes between them, and the shadow. -/
structure Recording where
  app : ComputeState := {}
  gpu : ComputeState := {}
  cs : Option Tracker := none

namespace Recording

def lost (r : Recording) : Option String := r.cs.bind (·.lost)

inductive Action
  | record (c : Command) (a : Answer)
  | decode (jobs : List Job)

def step (r : Recording) : Action → Recording
  | .record c a => ⟨c.effect r.app, c.effect r.gpu, c.shadow r.cs a⟩
  | .decode jobs => { r with gpu := (decodeJobs r.cs jobs).foldl Command.effect r.gpu }

end Recording

end NvidiaProlapse.CommandState
