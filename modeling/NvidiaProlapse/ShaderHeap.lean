import NvidiaProlapse.Runs

/-!
# The shader heap of a screen

Shader code lives in one growable arena (nvrm_screen.c) that all contexts of a share
group allocate from. A deleted shader's range waits in the deleting context until its
next flush, then in `shader_pending` with the last token of the channel, and goes back to
`shader_vma` once that token is done (nvrm_context.c). A flush is cut at its locks, so that
other contexts can run between its parts. Addresses are offsets from `shader_base`.
-/
namespace NvidiaProlapse.ShaderHeap

def arenaMinSizeLog2 : ℕ := 16
def arenaMaxMems : ℕ := 17
def prefetchPad : ℕ := 2048
def alignment : ℕ := 0x80

/-- A shader and its range of the heap; `id` tells apart the shaders that used one range. -/
structure Shader where
  id : ℕ
  addr : ℕ
  size : ℕ
  deriving DecidableEq, Repr

/-- A submitted batch: its token and the shaders of each recorded draw or launch. -/
structure Batch where
  token : ℕ
  draws : List (List Shader)
  deriving DecidableEq, Repr

/-- Where a context stands in `nvrm_flush`. -/
inductive Phase where
  /-- Not flushing. -/
  | recording
  /-- Its batch is queued and `last_token` not yet stored. -/
  | queued
  | submitted
  /-- `last_token` was read for the deleted ranges. -/
  | retiring (last : ℕ)
  | reclaiming
  deriving DecidableEq, Repr

structure Context where
  recording : List (List Shader) := []
  shaderFrees : List Shader := []
  phase : Phase := .recording
  deriving DecidableEq, Repr

/-- `submitting` is the context that holds `submit_mutex`, with its batch between queueing and
publishing. `batches`, `created` and `returned` are histories. -/
structure Screen where
  contexts : List Context
  committed : ℕ
  memCount : ℕ
  live : List Shader := []
  pending : List (Shader × ℕ) := []
  submitting : Option (ℕ × Batch) := none
  lastToken : ℕ := 0
  issued : ℕ := 0
  done : ℕ := 0
  batches : List Batch := []
  created : List Shader := []
  returned : List Shader := []
  deriving DecidableEq, Repr

/-- The ranges have no common address. -/
def Shader.Apart (r r' : Shader) : Prop := r.addr + r.size ≤ r'.addr ∨ r'.addr + r'.size ≤ r.addr

instance (r r' : Shader) : Decidable (r.Apart r') := inferInstanceAs (Decidable (_ ∨ _))

def Batch.Addresses (batch : Batch) (shader : Shader) : Prop :=
  ∃ draw ∈ batch.draws, shader ∈ draw

instance (batch : Batch) (shader : Shader) : Decidable (batch.Addresses shader) :=
  inferInstanceAs (Decidable (∃ draw ∈ batch.draws, shader ∈ draw))

namespace Screen

variable (s : Screen)

/-- `nvrm_shader_heap_grow`. -/
def heapGrow : Option Screen :=
  if arenaMaxMems ≤ s.memCount then none
  else
    let min := 2 ^ arenaMinSizeLog2
    let size := if s.memCount = 0 then min else min / 2 * 2 ^ s.memCount
    some { s with committed := s.committed + size, memCount := s.memCount + 1 }

/-- The ranges that are not in `shader_vma`. -/
def allocated : List Shader :=
  s.live ++ s.contexts.flatMap Context.shaderFrees ++ s.pending.map Prod.fst

/-- `nvrm_shader_upload`: `util_vma_heap_alloc` hands out an aligned range of the arena that
overlaps none it has handed out before and not got back. -/
def create (addr size : ℕ) : Option Screen :=
  let shader : Shader := ⟨s.created.length, addr, size⟩
  if addr % alignment = 0 ∧ size % alignment = 0 ∧ 0 < size ∧
      addr + size + prefetchPad ≤ s.committed ∧ ∀ r ∈ s.allocated, r.Apart shader then
    some { s with live := s.live ++ [shader], created := s.created ++ [shader] }
  else none

/-- The copy-engine upload of a screen with a small BAR: a batch of its own that is waited for. -/
def upload : Option Screen :=
  if s.submitting = none then
    some { s with
      lastToken := s.issued + 1
      issued := s.issued + 1
      done := s.issued + 1
      batches := s.batches ++ [⟨s.issued + 1, []⟩] }
  else none

/-- A context of the screen takes a step. -/
def within (c : ℕ) (body : Context → Option Screen) : Option Screen :=
  match s.contexts[c]? with
  | none => none
  | some ctx => body ctx

/-- A draw or launch with live shaders is recorded. -/
def draw (c : ℕ) (shaders : List Shader) : Option Screen :=
  s.within c fun ctx =>
    if ctx.phase = .recording ∧ ∀ shader ∈ shaders, shader ∈ s.live then
      some { s with contexts := s.contexts.set c { ctx with recording := ctx.recording ++ [shaders] } }
    else none

/-- `nvrm_free_shader`. -/
def freeShader (c : ℕ) (shader : Shader) : Option Screen :=
  s.within c fun ctx =>
    if ctx.phase = .recording ∧ shader ∈ s.live then
      some { s with
        live := s.live.erase shader
        contexts := s.contexts.set c { ctx with shaderFrees := ctx.shaderFrees ++ [shader] } }
    else none

/-- `nvrm_flush` up to the queueing in `nvrm_submit_async`; with nothing pending and no fence
asked for, no batch is made. -/
def submit (c : ℕ) (fence : Bool) : Option Screen :=
  s.within c fun ctx =>
    if ctx.phase ≠ .recording then none
    else if ctx.recording = [] ∧ ¬ fence then
      some { s with contexts := s.contexts.set c { ctx with phase := .submitted } }
    else if s.submitting ≠ none then none
    else
      let batch : Batch := ⟨s.issued + 1, ctx.recording⟩
      some { s with
        submitting := some (c, batch)
        issued := s.issued + 1
        batches := s.batches ++ [batch]
        contexts := s.contexts.set c { ctx with recording := [], phase := .queued } }

/-- `p_atomic_set(&screen->last_token, token)` and the unlock after it. -/
def publish (c : ℕ) : Option Screen :=
  s.within c fun ctx =>
    match s.submitting with
    | some (holder, batch) =>
      if holder = c then
        some { s with
          submitting := none
          lastToken := batch.token
          contexts := s.contexts.set c { ctx with phase := .submitted } }
      else none
    | none => none

/-- The read of `last_token` if there are deleted ranges. -/
def readLast (c : ℕ) : Option Screen :=
  s.within c fun ctx =>
    match ctx.phase with
    | .submitted =>
      let next := if ctx.shaderFrees = [] then Phase.reclaiming else .retiring s.lastToken
      some { s with contexts := s.contexts.set c { ctx with phase := next } }
    | _ => none

/-- The deleted ranges join `shader_pending`. -/
def retire (c : ℕ) : Option Screen :=
  s.within c fun ctx =>
    match ctx.phase with
    | .retiring last =>
      some { s with
        pending := s.pending ++ ctx.shaderFrees.map (·, last)
        contexts := s.contexts.set c { ctx with shaderFrees := [], phase := .reclaiming } }
    | _ => none

/-- The channel completes batches in submission order. -/
def progress (n : ℕ) : Screen := { s with done := max s.done (min s.issued (s.done + n)) }

/-- The loop of `nvrm_reclaim_shader_ranges` over the entries that are left; `ticks` is the
progress of the channel before each poll. -/
def reclaimRanges (s : Screen) : List ℕ → List (Shader × ℕ) → Screen
  | _, [] => s
  | ticks, (shader, token) :: entries =>
    let s := s.progress (ticks.headD 0)
    if token ≤ s.done then
      reclaimRanges { s with returned := s.returned ++ [shader] } ticks.tail entries
    else
      reclaimRanges { s with pending := s.pending ++ [(shader, token)] } ticks.tail entries

def reclaim (c : ℕ) (ticks : List ℕ) : Option Screen :=
  s.within c fun ctx =>
    if ctx.phase = .reclaiming then
      some (reclaimRanges { s with
        pending := []
        contexts := s.contexts.set c { ctx with phase := .recording } } ticks s.pending)
    else none

/-- A new screen with the first memory of the arena. -/
def new (contexts : ℕ) : Screen where
  contexts := List.replicate contexts {}
  committed := 2 ^ arenaMinSizeLog2
  memCount := 1

end Screen

inductive Action where
  | heapGrow
  | create (addr size : ℕ)
  | upload
  | draw (c : ℕ) (shaders : List Shader)
  | freeShader (c : ℕ) (shader : Shader)
  | submit (c : ℕ) (fence : Bool)
  | publish (c : ℕ)
  | readLast (c : ℕ)
  | retire (c : ℕ)
  | reclaim (c : ℕ) (ticks : List ℕ)
  | progress (n : ℕ)
  deriving DecidableEq, Repr

def step (s : Screen) : Action → Option Screen
  | .heapGrow => s.heapGrow
  | .create addr size => s.create addr size
  | .upload => s.upload
  | .draw c shaders => s.draw c shaders
  | .freeShader c shader => s.freeShader c shader
  | .submit c fence => s.submit c fence
  | .publish c => s.publish c
  | .readLast c => s.readLast c
  | .retire c => s.retire c
  | .reclaim c ticks => s.reclaim c ticks
  | .progress n => some (s.progress n)

/-- There is work with the shader that `last_token` does not cover: recorded and not submitted, or
queued and not yet published. -/
def Screen.Uncovered (s : Screen) (shader : Shader) : Prop :=
  (∃ ctx ∈ s.contexts, ∃ draw ∈ ctx.recording, shader ∈ draw) ∨
    ∃ p ∈ s.submitting, p.2.Addresses shader

instance (s : Screen) (shader : Shader) : Decidable (s.Uncovered shader) :=
  inferInstanceAs (Decidable (_ ∨ ∃ p ∈ s.submitting, _))

/-- When the token for deleted ranges is read, it covers all work with them. -/
def Meets (s : Screen) : Action → Prop
  | .readLast c => ∀ ctx ∈ s.contexts[c]?, ∀ shader ∈ ctx.shaderFrees, ¬ s.Uncovered shader
  | _ => True

instance (s : Screen) (a : Action) : Decidable (Meets s a) :=
  match a with
  | .readLast c => inferInstanceAs (Decidable (∀ ctx ∈ s.contexts[c]?, _))
  | .heapGrow | .create .. | .upload | .draw .. | .freeShader .. | .submit .. | .publish _
  | .retire _ | .reclaim .. | .progress _ => .isTrue trivial

/-- Work that has not completed addresses the shader's range. -/
def Screen.Addressed (s : Screen) (shader : Shader) : Prop :=
  (∃ ctx ∈ s.contexts, ∃ draw ∈ ctx.recording, shader ∈ draw) ∨
    ∃ batch ∈ s.batches, s.done < batch.token ∧ batch.Addresses shader

end NvidiaProlapse.ShaderHeap
