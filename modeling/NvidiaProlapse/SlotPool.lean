import NvidiaProlapse.Fences

/-!
# The semaphore slot pool

Slots are 16-byte cells of installed 64 KiB pages (slots.rs). The pool is a
free stack, one reference count per slot and the two 64-bit words of each slot.
The stack is a list with its top first. Reference counts are natural numbers;
the source keeps them in 32 bits and asserts that no free slot is retained or
released. Every CPU access to a slot word first checks that the device is open.
-/
namespace NvidiaProlapse

abbrev Slot := ℕ

inductive TimelineView where
  | native64
  | split32
  deriving DecidableEq, Repr

/-- CPU and GPU addresses of one installed page. -/
structure Page where
  cpu : ℕ
  gpu : ℕ
  deriving DecidableEq, Repr

/-- The 16 bytes of a slot: the words at `+0` and at `+8`. -/
structure SlotWords where
  word0 : ℕ
  word8 : ℕ
  deriving DecidableEq, Repr

structure SlotPool where
  pages : List Page
  free : List Slot
  refs : Slot → ℕ
  words : Slot → SlotWords
  closed : Bool
  view : TimelineView

namespace SlotPool

def slotBytes : ℕ := 16
def pageBytes : ℕ := 64 * 1024
def slotsPerPage : ℕ := pageBytes / slotBytes
def maxPages : ℕ := 256

def new (view : TimelineView) : SlotPool where
  pages := []
  free := []
  refs := fun _ => 0
  words := fun _ => ⟨0, 0⟩
  closed := false
  view := view

variable (pool : SlotPool)

def nextPage : Option ℕ :=
  if pool.pages.length < maxPages then some pool.pages.length else none

def hasFree : Bool := !pool.free.isEmpty

/-- Register a mapped page and stack its slots, lowest index on top. The page
index is always the next unset one, so it is never installed twice. -/
def installPage (cpu gpu : ℕ) : Result SlotPool :=
  if cpu = 0 ∨ cpu % 4096 ≠ 0 ∨ gpu % 4096 ≠ 0 then
    .error (.contract "unaligned semaphore pool page")
  else if maxPages ≤ pool.pages.length then
    .error (.contract "semaphore slot pool exhausted (1M live slots)")
  else
    let base := pool.pages.length * slotsPerPage
    .ok { pool with
      pages := pool.pages ++ [⟨cpu, gpu⟩]
      free := (List.range slotsPerPage).map (base + ·) ++ pool.free }

/-- Pop a zeroed slot with one reference. -/
def tryAllocate : Option (Slot × SlotPool) :=
  match pool.free with
  | [] => none
  | slot :: free =>
    some (slot, { pool with
      free := free
      refs := Function.update pool.refs slot 1
      words := Function.update pool.words slot ⟨0, 0⟩ })

def retain (slot : Slot) : SlotPool :=
  { pool with refs := Function.update pool.refs slot (pool.refs slot + 1) }

/-- Drop one reference; the last one returns the slot to the free stack. -/
def release (slot : Slot) : SlotPool :=
  { pool with
    refs := Function.update pool.refs slot (pool.refs slot - 1)
    free := if pool.refs slot = 1 then slot :: pool.free else pool.free }

/-- GPU address of a slot of an installed page. -/
def gpu (slot : Slot) : ℕ :=
  ((pool.pages[slot / slotsPerPage]?).map Page.gpu).getD 0 + slot % slotsPerPage * slotBytes

def close : SlotPool := { pool with closed := true }

def live : Result Unit :=
  if pool.closed then .error (.deviceLost "synchronization payload used after device close")
  else .ok ()

/-- The 32-bit word at `+0`. -/
def word32 (slot : Slot) : ℕ := (pool.words slot).word0 % 2 ^ 32

/-- The 64-bit split-view shadow at `+8`. -/
def shadow (slot : Slot) : ℕ := (pool.words slot).word8

def setWords (slot : Slot) (words : SlotWords) : SlotPool :=
  { pool with words := Function.update pool.words slot words }

/-- A 32-bit store keeps the upper half of the word at `+0`. -/
def setWord32 (slot : Slot) (value : ℕ) : SlotPool :=
  let words := pool.words slot
  pool.setWords slot { words with word0 := words.word0 / 2 ^ 32 * 2 ^ 32 + value % 2 ^ 32 }

def setWord64 (slot : Slot) (value : ℕ) : SlotPool :=
  pool.setWords slot { pool.words slot with word0 := value }

def setShadow (slot : Slot) (value : ℕ) : SlotPool :=
  pool.setWords slot { pool.words slot with word8 := value }

/-- A GPU semaphore release of a 32-bit or a 64-bit payload. -/
def gpuWrite32 (slot : Slot) (value : ℕ) : SlotPool := pool.setWord32 slot value
def gpuWrite64 (slot : Slot) (value : ℕ) : SlotPool := pool.setWord64 slot value

def read32 (slot : Slot) : Result ℕ :=
  match pool.live with
  | .error e => .error e
  | .ok () => .ok (pool.word32 slot)

def store32 (slot : Slot) (value : ℕ) : Result SlotPool :=
  match pool.live with
  | .error e => .error e
  | .ok () => .ok (pool.setWord32 slot value)

def read64Raw (slot : Slot) : Result ℕ :=
  match pool.live with
  | .error e => .error e
  | .ok () => .ok (pool.words slot).word0

/-- Reconstruct a full-width value from the low word and the shadow. -/
def splitValue (low shadow : ℕ) : Result ℕ := Fences.extendPayload low shadow

/-- The second half of a split-view read: the shadow is loaded after `low`. -/
def timelineFinish (slot : Slot) (low : ℕ) : Result ℕ :=
  splitValue low (pool.shadow slot)

/-- Full-width timeline value; the split view loads the low word strictly
before the shadow. -/
def timelineValue (slot : Slot) : Result ℕ :=
  match pool.live with
  | .error e => .error e
  | .ok () =>
    match pool.view with
    | .native64 => .ok (pool.words slot).word0
    | .split32 => pool.timelineFinish slot (pool.word32 slot)

/-- Initial value of a fresh timeline slot. -/
def initTimeline (slot : Slot) (value : ℕ) : Result SlotPool :=
  match pool.live with
  | .error e => .error e
  | .ok () =>
    match pool.view with
    | .native64 => .ok (pool.setWord64 slot value)
    | .split32 => .ok ((pool.setShadow slot value).setWord32 slot value)

/-- Monotonic host signal; the flag says whether the value increased. The split
view reconstructs against the shadow as it was, refuses a step of half a word
range and raises the shadow before the low word. -/
def hostSignal (slot : Slot) (value : ℕ) : Result (Bool × SlotPool) :=
  match pool.live with
  | .error e => .error e
  | .ok () =>
    match pool.view with
    | .native64 =>
      let previous := (pool.words slot).word0
      .ok (decide (previous < value), pool.setWord64 slot (max previous value))
    | .split32 =>
      match splitValue (pool.word32 slot) (pool.shadow slot) with
      | .error e => .error e
      | .ok current =>
        if value ≤ current then .ok (false, pool)
        else if 0x80000000 ≤ value - current then
          .error (.contract s!"32-bit host semaphore cannot represent timeline step {current} -> {value} (2^31 window)")
        else
          .ok (true, (pool.setShadow slot (max (pool.shadow slot) value)).setWord32 slot value)

/-- Split view only: raise the shadow before the GPU release of `value`. -/
def raiseShadow (slot : Slot) (value : ℕ) : Result SlotPool :=
  match pool.live with
  | .error e => .error e
  | .ok () =>
    match pool.view with
    | .native64 => .ok pool
    | .split32 => .ok (pool.setShadow slot (max (pool.shadow slot) value))

/-- Split view: the distance test of timeline waits and signals, made against
the shadow. -/
def checkSplitDistance (slot : Slot) (target : ℕ) : Result Unit :=
  match pool.view with
  | .native64 => .ok ()
  | .split32 =>
    let shadow := pool.shadow slot
    if 0x80000000 ≤ (target - shadow) + (shadow - target) then
      .error (.contract s!"32-bit host semaphore cannot order timeline wait {target} against pending {shadow} (2^31 window)")
    else .ok ()

/-! ## Word access -/

@[simp] lemma word32_setWord32 (slot : Slot) (value : ℕ) :
    (pool.setWord32 slot value).word32 slot = value % 2 ^ 32 := by
  simp only [word32, setWord32, setWords, Function.update_self]
  omega

@[simp] lemma shadow_setWord32 (slot other : Slot) (value : ℕ) :
    (pool.setWord32 slot value).shadow other = pool.shadow other := by
  by_cases h : other = slot
  · subst h
    simp [shadow, setWord32, setWords]
  · simp [shadow, setWord32, setWords, h]

@[simp] lemma word32_setShadow (slot other : Slot) (value : ℕ) :
    (pool.setShadow slot value).word32 other = pool.word32 other := by
  by_cases h : other = slot
  · subst h
    simp [word32, setShadow, setWords]
  · simp [word32, setShadow, setWords, h]

@[simp] lemma shadow_setShadow (slot : Slot) (value : ℕ) :
    (pool.setShadow slot value).shadow slot = value := by
  simp [shadow, setShadow, setWords]

lemma live_eq_ok {pool : SlotPool} : pool.live = .ok () ↔ pool.closed = false := by
  cases h : pool.closed <;> simp [live, h]

/-- The distance test passes exactly when target and shadow are less than half
a word range apart. -/
lemma checkSplitDistance_eq_ok {pool : SlotPool} {slot : Slot} {target : ℕ}
    (hview : pool.view = .split32) :
    pool.checkSplitDistance slot target = .ok () ↔
      target < pool.shadow slot + 2 ^ 31 ∧ pool.shadow slot < target + 2 ^ 31 := by
  simp only [checkSplitDistance, hview]
  split_ifs with h
  · simp only [false_iff, not_and]
    omega
  · simp only [true_iff]
    omega

/-- An accepted host signal of the split view leaves the pool as it is or raises
the shadow to at least the value and stores its low word. -/
lemma hostSignal_split32 {pool next : SlotPool} {slot : Slot} {value : ℕ} {changed : Bool}
    (hview : pool.view = .split32) (h : pool.hostSignal slot value = .ok (changed, next)) :
    (changed = false ∧ next = pool) ∨ (changed = true ∧
        next = (pool.setShadow slot (max (pool.shadow slot) value)).setWord32 slot value) := by
  simp only [hostSignal, hview] at h
  split at h
  · cases h
  split at h
  · cases h
  · split_ifs at h <;> cases h
    · exact .inl ⟨rfl, rfl⟩
    · exact .inr ⟨rfl, rfl⟩

end SlotPool

end NvidiaProlapse
