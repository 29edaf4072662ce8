import NvidiaProlapse.Programs
import NvidiaProlapse.Runs

/-!
# Push memory of a GL context

The chunks a context records its commands in, as nvrm_context.c keeps them. A command
opens a push, which may submit the open batch first, writes its words and closes
the push. A flush records commands of its own before it submits: the copies out of
render shadows and the pause of stream output, whose pushes may flush again.

Offsets are counted in words of four bytes. Chunks are numbered in the order of
their allocation, and tokens by the channel all contexts of the screen submit to.
-/
namespace NvidiaProlapse.PushChunks
open Programs

/-! ## Limits -/

def pushSizeB : ℕ := 256 * 1024
def pushMemMaxB : ℕ := 16 * 1024 * 1024
def pushBatchMaxChunks : ℕ := pushMemMaxB / pushSizeB / 2
def maxExecs : ℕ := 1000
def execHeadroom : ℕ := 64
abbrev batchRing : ℕ := 4
def maxSo : ℕ := 4

/-- The words of a chunk. -/
def pushSize : ℕ := pushSizeB / 4

/-- The chunks a context may own. -/
def maxChunks : ℕ := pushMemMaxB / pushSizeB

@[simp] lemma maxChunks_eq : maxChunks = 64 := rfl
@[simp] lemma pushBatchMaxChunks_eq : pushBatchMaxChunks = 32 := rfl

/-! ## Data -/

/-- The places where the driver stops the process. -/
inductive Abort where
  | pushTooLarge
  | budget
  | indirectRange
  | indirectEntries
  | incompleteBatch
  deriving DecidableEq, Repr

/-- `token` is the last submission with words in the chunk, zero for none. -/
structure Chunk where
  id : ℕ
  token : ℕ
  deriving DecidableEq, Repr

/-- A GPFIFO entry: the words of a chunk from `first` up to `last`, or a range of
memory that is read when the entry is executed. -/
inductive Entry where
  | segment (chunk first last : ℕ) (incomplete : Bool)
  | indirect (addr range : ℕ)
  deriving DecidableEq, Repr

/-- What the channel reads, one word or one indirect range at a time. -/
inductive Item where
  | word (chunk position : ℕ)
  | indirect (addr range : ℕ)
  deriving DecidableEq, Repr

namespace Entry

def items : Entry → List Item
  | segment chunk first last _ => (List.range' first (last - first)).map (Item.word chunk)
  | indirect addr range => [.indirect addr range]

def isIncomplete : Entry → Bool
  | segment _ _ _ incomplete => incomplete
  | indirect _ _ => false

/-- Some word of the chunk from `first` up to `last` is read by the entry. -/
def overlaps (chunk first last : ℕ) : Entry → Bool
  | segment c a b _ => c = chunk && a < last && first < b
  | indirect _ _ => false

end Entry

/-- `recorded` is the history: what was recorded since the previous submission. -/
structure Submission where
  token : ℕ
  entries : List Entry
  recorded : List Entry
  deriving DecidableEq, Repr

/-- What happens on the channel between two looks at it: other contexts submit, and
the oldest submissions complete. -/
structure Tick where
  others : ℕ
  completed : ℕ
  deriving DecidableEq, Repr

/-- The words that the commands of a flush itself take: the wait for idle rendering, the
copy of one render shadow and the pause of stream output. -/
structure Sizes where
  renderWfi : Fin 3
  imageCopy : Fin 41
  soPause : Fin (8 + 6 * maxSo + 1)

/-- One part of an open push. -/
inductive Part where
  | words (count : ℕ)
  | indirect (addr range : ℕ)
  deriving DecidableEq, Repr

namespace Part

def count : Part → ℕ
  | words n => n
  | indirect _ _ => 0

def indirects : Part → ℕ
  | words _ => 0
  | indirect _ _ => 1

end Part

/-- A push of at most the reserved words. -/
structure Command where
  dw : ℕ
  body : List Part
  fits : (body.map Part.count).sum ≤ dw

def Command.indirects (command : Command) : ℕ := (command.body.map Part.indirects).sum

/-- A command of some words and no indirect range. -/
def Command.plain (dw : ℕ) (words : Fin (dw + 1)) : Command where
  dw := dw
  body := [.words words]
  fits := by simpa [Part.count] using Nat.le_of_lt_succ words.isLt

/-- A context and, of its screen, the tokens of the channel. `issued` is the newest
token and `done` the newest completed one; `pace` is what is going to happen there.
`dirtyBatch` tells that no draw was recorded since the last flush, and `shadows` counts the
colour buffers that render through shadows.

`submitted` and `recorded` are histories, and `overwritten` tells that a word was
written where a submission that has not completed reads. -/
structure Context where
  pushChunk : Chunk
  pushStart : ℕ
  pushCur : ℕ
  pushBatchChunks : List Chunk
  pushFreeChunks : List Chunk
  pushChunkCount : ℕ
  execs : List Entry
  ring : Fin batchRing → ℕ
  ringCur : Fin batchRing
  texPoolNext : ℕ
  flushSeq : ℕ
  dirtyBatch : Bool
  shadows : ℕ
  shadowWritten : Bool
  soActive : Bool
  issued : ℕ
  done : ℕ
  pace : List Tick
  recorded : List Entry
  submitted : List Submission
  overwritten : Bool

namespace Context

/-- A new context. -/
def start (pace : List Tick) : Context where
  pushChunk := ⟨0, 0⟩
  pushStart := 0
  pushCur := 0
  pushBatchChunks := []
  pushFreeChunks := []
  pushChunkCount := 1
  execs := []
  ring := fun _ => 0
  ringCur := 0
  texPoolNext := 0
  flushSeq := 0
  dirtyBatch := true
  shadows := 0
  shadowWritten := false
  soActive := false
  issued := 0
  done := 0
  pace := pace
  recorded := []
  submitted := []
  overwritten := false

/-! ## The channel -/

variable (s : Context)

/-- Time passes on the channel. -/
def poll : Context :=
  match s.pace with
  | [] => s
  | tick :: pace => { s with
      pace := pace
      issued := s.issued + tick.others
      done := max s.done (min (s.issued + tick.others) (s.done + tick.completed)) }

def tokenDone (token : ℕ) : Bool := token ≤ s.done

/-- Wait until a submission has completed. -/
def waitToken (token : ℕ) (s : Context) : Context := { s.poll with done := max s.poll.done token }

/-! ## Chunks -/

def hasPending : Bool := s.pushCur ≠ s.pushStart || !s.execs.isEmpty

def closeSegment (incomplete : Bool) (s : Context) : Context :=
  if s.pushCur = s.pushStart then s
  else { s with
    execs := s.execs ++ [.segment s.pushChunk.id s.pushStart s.pushCur incomplete]
    pushStart := s.pushCur }

def atBudget : Bool := (s.pushChunkCount + 1) * pushSizeB > pushMemMaxB

/-- A new chunk. -/
def allocChunk : Prog Context Abort Chunk := do
  let s ← get
  if s.atBudget then throw .budget
  else do
    modify fun s => { s with pushChunkCount := s.pushChunkCount + 1 }
    pure ⟨s.pushChunkCount, 0⟩

/-- The oldest free chunk, once its submission has completed. -/
def recycleChunk (oldest : Chunk) (rest : List Chunk) : Prog Context Abort Chunk := do
  modify fun s => { s.waitToken oldest.token with pushFreeChunks := rest }
  pure ⟨oldest.id, 0⟩

def pushGetChunk : Prog Context Abort Chunk := do
  let s ← get
  match s.pushFreeChunks with
  | [] => allocChunk
  | oldest :: rest =>
    if s.atBudget then recycleChunk oldest rest
    else do
      modify poll
      let s ← get
      if s.tokenDone oldest.token then recycleChunk oldest rest else allocChunk

def pushUseChunk (chunk : Chunk) (s : Context) : Context :=
  { s with pushChunk := chunk, pushStart := 0, pushCur := 0 }

/-- The full chunk belongs to the open batch from here on. -/
def fileChunk : Context :=
  { s with pushBatchChunks := s.pushBatchChunks ++ [s.pushChunk] }

def pushNextChunk : Prog Context Abort Unit := do
  modify fun s => (s.closeSegment false).fileChunk
  let chunk ← pushGetChunk
  modify (pushUseChunk chunk)

/-! ## Commands

`flush` is what a push calls where the batch has reached a limit. -/

/-- The batch is submitted before the next command. -/
def full : Bool :=
  s.execs.length + execHeadroom > maxExecs || s.pushBatchChunks.length ≥ pushBatchMaxChunks

/-- The current chunk has no room for so many words. -/
def short (dw : ℕ) : Bool := s.pushCur + dw > pushSize

def pushReserve (flush : Prog Context Abort Unit) (dw : ℕ) : Prog Context Abort Unit := do
  let s ← get
  onlyIf s.full flush
  let s ← get
  onlyIf (s.short dw) pushNextChunk

def pushBegin (flush : Prog Context Abort Unit) (dw : ℕ) : Prog Context Abort Unit := do
  if dw > pushSize then throw .pushTooLarge
  else pushReserve flush dw

/-- Write the next words of the open push. -/
def write (words : ℕ) (s : Context) : Context := { s with
  pushCur := s.pushCur + words
  recorded := s.recorded ++ [.segment s.pushChunk.id s.pushCur (s.pushCur + words) false]
  overwritten := s.overwritten || s.submitted.any fun sub =>
    s.done < sub.token && sub.entries.any (Entry.overlaps s.pushChunk.id s.pushCur (s.pushCur + words)) }

def addIndirect (addr range : ℕ) (s : Context) : Context := { s with
  execs := s.execs ++ [.indirect addr range]
  recorded := s.recorded ++ [.indirect addr range] }

def pushIndirect (addr range : ℕ) : Prog Context Abort Unit := do
  let s ← get
  if range = 0 ∨ addr % 4 ≠ 0 ∨ range % 4 ≠ 0 then throw .indirectRange
  else if s.execs.length + 2 > maxExecs then throw .indirectEntries
  else modify fun s => (s.closeSegment true).addIndirect addr range

def emit : Part → Prog Context Abort Unit
  | .words n => modify (write n)
  | .indirect addr range => pushIndirect addr range

/-- A whole command, from the opening of the push to its end. -/
def push (flush : Prog Context Abort Unit) (command : Command) : Prog Context Abort Unit := do
  pushBegin flush command.dw
  each emit command.body

/-! ## Flushes -/

/-- The batch goes to the channel and its chunks to the free list. Recording continues
in the current chunk, whose submitted words the token protects, too. -/
def submitAsync : Context :=
  let token := s.issued + 1
  { s with
    issued := token
    submitted := s.submitted ++ [Submission.mk token s.execs s.recorded]
    execs := []
    recorded := []
    ring := Function.update s.ring s.ringCur token
    pushFreeChunks := s.pushFreeChunks ++ s.pushBatchChunks.map fun c => { c with token := token }
    pushBatchChunks := []
    pushChunk := { s.pushChunk with token := token } }

/-- The next slot of the batch ring, once the batch that last used it has completed. -/
def nextSlot : Context :=
  { s.waitToken (s.ring (s.ringCur + 1)) with ringCur := s.ringCur + 1, texPoolNext := 0 }

/-- The next batch starts from an unknown state of the channel. -/
def endFlush : Context := { s with flushSeq := s.flushSeq + 1, dirtyBatch := true }

def submitBatch : Prog Context Abort Unit := do
  modify (closeSegment false)
  let s ← get
  if s.execs.getLast?.any Entry.isIncomplete then throw .incompleteBatch
  else modify fun s => s.poll.submitAsync.nextSlot

/-- A flush after the commands it records itself. -/
def flushBatch (fence : Bool) : Prog Context Abort Unit := do
  let s ← get
  onlyIf (s.hasPending || fence) submitBatch
  modify endFlush

variable (sizes : Sizes)

def soPause (flush : Prog Context Abort Unit) : Prog Context Abort Unit := do
  let s ← get
  onlyIf s.soActive (do
    modify fun s => { s with soActive := false }
    push flush (.plain (8 + 6 * maxSo) sizes.soPause))

/-- Copies between the linear colour buffers and their render shadows. -/
def fbShadowCopy (flush : Prog Context Abort Unit) : Prog Context Abort Unit := do
  push flush (.plain 2 sizes.renderWfi)
  let s ← get
  each (push flush) (List.replicate s.shadows (.plain 40 sizes.imageCopy))

def fbShadowEnd (flush : Prog Context Abort Unit) : Prog Context Abort Unit := do
  let s ← get
  onlyIf s.shadowWritten (do
    modify fun s => { s with shadowWritten := false }
    fbShadowCopy sizes flush)

/-- A flush of a context whose shadows are copied out. A flush inside of the pause finds
stream output inactive. -/
def flushCopied (fence : Bool) : Prog Context Abort Unit := do
  soPause sizes (flushBatch false)
  flushBatch fence

/-- A flush inside of the copies finds the shadows copied out. -/
def flush (fence : Bool) : Prog Context Abort Unit := do
  fbShadowEnd sizes (flushCopied sizes false)
  flushCopied sizes fence

end Context

/-! ## Steps -/

/-- What the rest of the driver does with the push memory. `framebuffer` binds colour
buffers of which so many go through shadows, `rendered` emits them as render targets, and
`captured` emits stream output. -/
inductive Action where
  | command (command : Command)
  | reserve (dw : ℕ) (fits : dw ≤ pushSize)
  | framebuffer (shadows : ℕ)
  | shadowBegin
  | rendered
  | shadowEnd
  | captured
  | soPause
  | flush (fence : Bool)

namespace Context

def act (sizes : Sizes) : Action → Prog Context Abort Unit
  | .command command => push (flush sizes false) command
  | .reserve dw _ => pushReserve (flush sizes false) dw
  | .framebuffer shadows => do
    fbShadowEnd sizes (flush sizes false)
    modify fun s => { s with shadows := shadows }
  | .shadowBegin => fbShadowCopy sizes (flush sizes false)
  | .rendered => modify fun s => { s with shadowWritten := true }
  | .shadowEnd => fbShadowEnd sizes (flush sizes false)
  | .captured => modify fun s => { s with soActive := true }
  | .soPause => soPause sizes (flush sizes false)
  | .flush fence => flush sizes fence

/-- The state after an action that does not stop the process. -/
def step (sizes : Sizes) (s : Context) (action : Action) : Option Context :=
  match exec (act sizes action) s with
  | (.ok _, t) => some t
  | (.error _, _) => none

end Context

end NvidiaProlapse.PushChunks
