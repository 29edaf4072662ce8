import NvidiaProlapse.Fences
import NvidiaProlapse.RingLayout
import NvidiaProlapse.Runs

/-!
# The submission ledger and the GPFIFO ring

The ledger of gpu.rs counts ring entries, issues completion tokens and assigns
the command slot of each batch. `Option` around a result stands for the
`unwrap` on the oldest pending batch. The ring is written entry by entry from
the put index; `cells` remembers which ring cells a batch was written to.
-/
namespace NvidiaProlapse
open Runs RingLayout List

structure PendingSubmission where
  token : ℕ
  entries : ℕ
  slot : ℕ
  deriving DecidableEq, Repr

/-- `overflow` keeps the token of each retained overflow command segment. -/
structure SubmissionLedger where
  sequence : ℕ
  retired : ℕ
  usedEntries : ℕ
  pending : List PendingSubmission
  overflow : List ℕ
  deriving DecidableEq, Repr

/-- A batch gets its token and command slot, or waits for the oldest token. -/
inductive Prepared where
  | ready (token slot : ℕ)
  | full (oldest : ℕ)
  deriving DecidableEq, Repr

namespace SubmissionLedger

def queueEntries : ℕ := 1024

def empty : SubmissionLedger where
  sequence := 0
  retired := 0
  usedEntries := 0
  pending := []
  overflow := []

variable (ledger : SubmissionLedger)

/-- `Full` with the token of the oldest pending batch. -/
def fullAtFront : Option (Result Prepared) :=
  ledger.pending.head?.map fun p => .ok (.full p.token)

def nextSlot : ℕ :=
  match ledger.pending.getLast? with
  | none => 0
  | some p => (p.slot + 1) % queueEntries

/-- One ring entry stays unused: equal put and get never describe a full ring. -/
def prepare (entries waits : ℕ) : Option (Result Prepared) :=
  if entries = 0 ∨ queueEntries ≤ entries ∨ 1024 < waits then
    some (.error (.contract "batch exceeds queue capacity"))
  else if queueEntries ≤ ledger.usedEntries + entries then ledger.fullAtFront
  else if 2 ^ 64 ≤ ledger.sequence + waits + 1 then
    some (.error (.contract "GPU completion sequence exhausted"))
  else some (.ok (.ready (ledger.sequence + waits + 1) ledger.nextSlot))

/-- With 32-bit retirement words the token must stay in the epoch and within
half a word range of the retired one, or the queue drains first. -/
def prepareForMode (entries waits : ℕ) (native64 : Bool) :
    Option (Result Prepared) :=
  match ledger.prepare entries waits with
  | some (.ok (.ready token slot)) =>
    if native64 then some (.ok (.ready token slot))
    else
      let wraps := token >>> 32 ≠ ledger.sequence >>> 32
      let tooFar := 0x7fffffff < token - ledger.retired
      if (wraps ∨ tooFar) ∧ ledger.pending ≠ [] then ledger.fullAtFront
      else if tooFar then some (.error (.contract "sem32 submission exceeds half range"))
      else some (.ok (.ready token slot))
  | other => other

def commit (token entries slot : ℕ) : SubmissionLedger :=
  { ledger with
    sequence := token
    usedEntries := ledger.usedEntries + entries
    pending := ledger.pending ++ [⟨token, entries, slot⟩] }

/-- Pop batches from the front while their token is completed. -/
def retirePending (completed : ℕ) :
    List PendingSubmission → ℕ → ℕ → List PendingSubmission × ℕ × ℕ
  | [], used, retired => ([], used, retired)
  | p :: rest, used, retired =>
    if p.token ≤ completed then retirePending completed rest (used - p.entries) p.token
    else (p :: rest, used, retired)

def retire (completed : ℕ) : Result SubmissionLedger :=
  if ledger.sequence < completed ∨ completed < ledger.retired then
    .error (.contract "GPU completion outside issued timeline")
  else
    let (pending, used, retired) :=
      retirePending completed ledger.pending ledger.usedEntries ledger.retired
    .ok { ledger with
      retired := retired
      usedEntries := used
      pending := pending
      overflow := ledger.overflow.dropWhile (· ≤ retired) }

/-- Retirement pops a front part of the pending batches, all of them completed,
and stops at the first one that is not. -/
lemma retirePending_spec (completed : ℕ) (pending : List PendingSubmission) (used retired : ℕ) :
    ∃ popped, pending = popped ++ (retirePending completed pending used retired).1 ∧
      (∀ p ∈ popped, p.token ≤ completed) ∧
      (∀ p ∈ (retirePending completed pending used retired).1.head?, completed < p.token) ∧
      (retirePending completed pending used retired).2.1 =
        used - (popped.map PendingSubmission.entries).sum ∧
      (retirePending completed pending used retired).2.2 =
        (popped.getLast?.map PendingSubmission.token).getD retired := by
  induction pending generalizing used retired with
  | nil => exact ⟨[], by simp [retirePending]⟩
  | cons p rest ih =>
    by_cases hp : p.token ≤ completed
    · obtain ⟨popped, hsplit, hdone, hstop, hused, hretired⟩ := ih (used - p.entries) p.token
      simp only [retirePending, if_pos hp]
      refine ⟨p :: popped, by simp [← hsplit], ?_, hstop, ?_, ?_⟩
      · exact forall_mem_cons.mpr ⟨hp, hdone⟩
      · rw [hused, map_cons, sum_cons]
        omega
      · rw [hretired, getLast?_cons]
        cases popped.getLast? <;> rfl
    · refine ⟨[], ?_⟩
      simp only [retirePending, if_neg hp]
      simp
      omega

variable {ledger : SubmissionLedger}

variable {completed : ℕ} {ledger' : SubmissionLedger}

/-- An accepted retirement leaves a back part of the pending batches; the retired
token is that of the last batch popped, or stays where it was. -/
lemma retire_spec (h : ledger.retire completed = .ok ledger') :
    ∃ popped, ledger.pending = popped ++ ledger'.pending ∧ (∀ p ∈ popped, p.token ≤ completed) ∧
      ledger.retired ≤ completed ∧ completed ≤ ledger.sequence ∧
      ledger'.sequence = ledger.sequence ∧
      ledger'.usedEntries = ledger.usedEntries - (popped.map PendingSubmission.entries).sum ∧
      (ledger'.retired = ledger.retired ∨ ∃ q ∈ popped, ledger'.retired = q.token) := by
  simp only [retire] at h
  split_ifs at h with hrange
  · cases h
    obtain ⟨popped, hsplit, hdone, _, hused, hretired⟩ :=
      retirePending_spec completed ledger.pending ledger.usedEntries ledger.retired
    refine ⟨popped, hsplit, hdone, by omega, by omega, rfl, hused, ?_⟩
    cases hq : popped.getLast? with
    | none => exact .inl (by simp [hretired, hq])
    | some q => exact .inr ⟨q, mem_of_getLast? hq, by simp [hretired, hq]⟩

/-- Pending tokens increase strictly inside the issued and unretired range. -/
structure Ordered (ledger : SubmissionLedger) : Prop where
  tokens_increase : ledger.pending.Pairwise fun p q => p.token < q.token
  tokens_issued : ∀ p ∈ ledger.pending, ledger.retired < p.token ∧ p.token ≤ ledger.sequence
  retired_le : ledger.retired ≤ ledger.sequence

lemma empty_ordered : Ordered empty where
  tokens_increase := List.Pairwise.nil
  tokens_issued := by simp [empty]
  retired_le := le_rfl

lemma Ordered.commit {token entries slot : ℕ} (h : Ordered ledger)
    (htoken : ledger.sequence < token) : Ordered (ledger.commit token entries slot) := by
  have hle := h.retired_le
  constructor
  · refine pairwise_append.mpr ⟨h.tokens_increase, pairwise_singleton _ _, fun p hp => ?_⟩
    rw [forall_mem_singleton]
    exact lt_of_le_of_lt (h.tokens_issued p hp).2 htoken
  · simp only [SubmissionLedger.commit]
    refine forall_mem_append.mpr ⟨fun p hp => ?_, forall_mem_singleton.mpr ?_⟩
    · have := h.tokens_issued p hp
      omega
    · exact ⟨by simp only; omega, le_rfl⟩
  · simp only [SubmissionLedger.commit]
    omega

/-- Retirement keeps the order and moves the retired token up, never past the
completed value. -/
lemma Ordered.retire (h : Ordered ledger) (hretire : ledger.retire completed = .ok ledger') :
    Ordered ledger' ∧ ledger.retired ≤ ledger'.retired ∧ ledger'.retired ≤ completed := by
  obtain ⟨popped, hsplit, hdone, hlow, _, hseq, _, hlast⟩ := retire_spec hretire
  have hpairs := h.tokens_increase
  rw [hsplit] at hpairs
  obtain ⟨_, hrest, hcross⟩ := pairwise_append.mp hpairs
  have hold : ∀ p ∈ popped, ledger.retired < p.token ∧ p.token ≤ ledger.sequence := by
    intro p hp
    exact h.tokens_issued p (by rw [hsplit]; exact mem_append_left _ hp)
  have hnew : ∀ p ∈ ledger'.pending, ledger.retired < p.token ∧ p.token ≤ ledger.sequence := by
    intro p hp
    exact h.tokens_issued p (by rw [hsplit]; exact mem_append_right _ hp)
  have hle := h.retired_le
  rcases hlast with hsame | ⟨q, hq, heq⟩
  · refine ⟨⟨hrest, ?_, ?_⟩, ?_, ?_⟩
    · rw [hsame, hseq]
      exact hnew
    · rw [hsame, hseq]
      exact hle
    · exact hsame.ge
    · exact hsame.trans_le hlow
  · refine ⟨⟨hrest, ?_, ?_⟩, ?_, ?_⟩
    · intro p hp
      rw [heq, hseq]
      exact ⟨hcross q hq p hp, (hnew p hp).2⟩
    · rw [heq, hseq]
      exact (hold q hq).2
    · rw [heq]
      exact (hold q hq).1.le
    · rw [heq]
      exact hdone q hq

end SubmissionLedger

/-! ## Ring entries of a batch -/

namespace Gpfifo
open SubmissionLedger

def tailStride : ℕ := 512
def tailPrefixBytes : ℕ := 256
def tailIrqBytes : ℕ := 8

structure Push where
  address : ℕ
  size : ℕ
  flags : ℕ
  deriving DecidableEq, Repr

/-- Lengths, in words, of the encoded methods of a batch and the addresses of
the overflow segments that hold what does not fit its command slot. -/
structure Encoded where
  prefixWords : ℕ
  signalWords : ℕ
  finalWords : ℕ
  prefixOverflow : ℕ
  signalOverflow : ℕ
  deriving DecidableEq, Repr

namespace Encoded

def prefixInline (e : Encoded) : Prop := e.prefixWords * 4 ≤ tailPrefixBytes

def signalsInline (e : Encoded) : Prop :=
  (e.signalWords + e.finalWords) * 4 ≤ tailStride - tailIrqBytes - tailPrefixBytes

instance (e : Encoded) : Decidable e.prefixInline := inferInstanceAs (Decidable (_ ≤ _))
instance (e : Encoded) : Decidable e.signalsInline := inferInstanceAs (Decidable (_ ≤ _))

/-- Words of the completion tail: the final methods and inline signals. -/
def tailWords (e : Encoded) : ℕ :=
  if e.signalsInline then e.signalWords + e.finalWords else e.finalWords

end Encoded

/-- The number of ring entries `submit_encoded` asks the ledger for. -/
def entryCount (pushes : List Push) (e : Encoded) : ℕ :=
  pushes.length + 1 + (if e.prefixWords ≠ 0 then 1 else 0) + (if e.signalsInline then 0 else 1)

structure Segment where
  address : ℕ
  bytes : ℕ
  syncWait : Bool
  deriving DecidableEq, Repr

/-- The segments of a batch in the order they are written: wait methods, pushes,
overflowing signals, completion tail. `tailGpu` is the command slot storage. -/
def segments (tailGpu slot : ℕ) (pushes : List Push) (e : Encoded) : List Segment :=
  let base := slot * tailStride
  (if e.prefixWords ≠ 0 then
    [⟨if e.prefixInline then tailGpu + base else e.prefixOverflow, e.prefixWords * 4, true⟩]
    else []) ++
  pushes.map (fun p => ⟨p.address, p.size, p.flags % 2 ≠ 0⟩) ++
  (if e.signalsInline then [] else [⟨e.signalOverflow, e.signalWords * 4, true⟩]) ++
  [⟨tailGpu + base + (tailStride - tailIrqBytes - e.tailWords * 4),
    e.tailWords * 4 + tailIrqBytes, true⟩]

lemma segments_length (tailGpu slot : ℕ) (pushes : List Push) (e : Encoded) :
    (segments tailGpu slot pushes e).length = entryCount pushes e := by
  simp only [segments, entryCount]
  split_ifs <;> simp

/-- GP_ENTRY: address, level bit 41, length in words from bit 42, wait bit 63. -/
def gpEntry (s : Segment) : ℕ :=
  s.address ||| ((s.bytes / 4) <<< 42) ||| (1 <<< 41) ||| (if s.syncWait then 1 <<< 63 else 0)

structure Ring where
  put : ℕ
  cells : ℕ → ℕ

def writeEntry (ring : Ring) (s : Segment) : Ring where
  put := (ring.put + 1) % queueEntries
  cells := Function.update ring.cells ring.put (gpEntry s)

/-- Write the segments of a batch; the list names the ring cells written. -/
def writeEntries : Ring → List Segment → Ring × List ℕ
  | ring, [] => (ring, [])
  | ring, s :: rest =>
    let (final, written) := writeEntries (writeEntry ring s) rest
    (final, ring.put :: written)

lemma writeEntries_spec (ring : Ring) (batch : List Segment) (position : ℕ)
    (hput : ring.put = position % queueEntries) :
    (writeEntries ring batch).1.put = (position + batch.length) % queueEntries ∧
      (writeEntries ring batch).2 = window queueEntries position batch.length := by
  induction batch generalizing ring position with
  | nil => exact ⟨hput, by simp [writeEntries, window]⟩
  | cons s rest ih =>
    have hnext : (writeEntry ring s).put = (position + 1) % queueEntries := by
      simp [writeEntry, hput]
    obtain ⟨h1, h2⟩ := ih (writeEntry ring s) (position + 1) hnext
    constructor
    · simp only [writeEntries, h1, length_cons]
      congr 1
      omega
    · simp [writeEntries, h2, hput, window_cons]

/-! ## Runs of submissions and retirements -/

/-- A queue's ledger and ring. `written` keeps the ring cells each token's batch
was written to. -/
structure QueueRing where
  ledger : SubmissionLedger
  ring : Ring
  written : ℕ → List ℕ

def QueueRing.empty : QueueRing where
  ledger := .empty
  ring := ⟨0, fun _ => 0⟩
  written := fun _ => []

inductive RingAction where
  | submit (pushes : List Push) (encoded : Encoded)
  | retire (completed : ℕ)

/-- A batch is prepared, committed and written, or refused with nothing changed.
Retirement is enabled with values inside the issued timeline. -/
def ringStep (native64 : Bool) (tailGpu : ℕ) (s : QueueRing) : RingAction → Option QueueRing
  | .submit pushes encoded =>
    match s.ledger.prepareForMode (entryCount pushes encoded) 0 native64 with
    | none => none
    | some (.ok (.ready token slot)) =>
      let (ring, cells) := writeEntries s.ring (segments tailGpu slot pushes encoded)
      some {
        ledger := s.ledger.commit token (entryCount pushes encoded) slot
        ring := ring
        written := Function.update s.written token cells }
    | some _ => some s
  | .retire completed =>
    match s.ledger.retire completed with
    | .error _ => none
    | .ok ledger => some { s with ledger := ledger }

/-- The four counters of a queue agree: entries in use, tokens, command slots
around their ring and batches around theirs. -/
structure Consistent (s : QueueRing) : Prop where
  used_eq : s.ledger.usedEntries = (s.ledger.pending.map PendingSubmission.entries).sum
  used_lt : s.ledger.usedEntries < queueEntries
  entries_pos : ∀ p ∈ s.ledger.pending, 0 < p.entries
  ordered : Ordered s.ledger
  slots_laid : ∃ start stop, Laid queueEntries (fun _ => 1)
    (fun p : PendingSubmission => [p.slot]) start s.ledger.pending stop
  batches_laid : ∃ start stop, s.ring.put = stop % queueEntries ∧
    Laid queueEntries PendingSubmission.entries
      (fun p : PendingSubmission => s.written p.token) start s.ledger.pending stop

lemma empty_consistent : Consistent QueueRing.empty where
  used_eq := rfl
  used_lt := by decide
  entries_pos := by simp [QueueRing.empty, SubmissionLedger.empty]
  ordered := empty_ordered
  slots_laid := ⟨0, 0, rfl⟩
  batches_laid := ⟨0, 0, rfl, rfl⟩

variable {ledger : SubmissionLedger} {native64 : Bool} {s : QueueRing}

variable {entries slot token waits tailGpu : ℕ} {s' : QueueRing}

/-- An admitted batch has a positive entry count that leaves the ring short of
full, the next token and the command slot after the newest pending batch. -/
lemma prepare_ready (h : ledger.prepare entries waits = some (.ok (.ready token slot))) :
    0 < entries ∧ ledger.usedEntries + entries < queueEntries ∧
      token = ledger.sequence + waits + 1 ∧ slot = ledger.nextSlot := by
  simp only [SubmissionLedger.prepare] at h
  split_ifs at h with hcap hfull hseq
  · cases h
  · simp only [fullAtFront, Option.map_eq_some_iff] at h
    obtain ⟨p, _, hp⟩ := h
    cases hp
  · cases h
  · cases h
    exact ⟨by omega, by omega, rfl, rfl⟩

lemma prepareForMode_ready
    (h : ledger.prepareForMode entries waits native64 = some (.ok (.ready token slot))) :
    ledger.prepare entries waits = some (.ok (.ready token slot)) ∧
      (native64 = false → token ≤ ledger.retired + 0x7fffffff) := by
  simp only [SubmissionLedger.prepareForMode] at h
  split at h
  · rename_i token' slot' hp
    rw [hp]
    split_ifs at h with hmode hwrap hfar
    · exact ⟨h, by simp [hmode]⟩
    · simp only [fullAtFront, Option.map_eq_some_iff] at h
      obtain ⟨p, _, hq⟩ := h
      cases hq
    · cases h
    · cases h
      exact ⟨rfl, fun _ => by omega⟩
  · rename_i hne
    exact absurd h (hne token slot)

/-- The command slot after the newest one continues the ring of slots. -/
lemma nextSlot_laid {start stop : ℕ}
    (h : Laid queueEntries (fun _ => 1)
      (fun p : PendingSubmission => [p.slot]) start ledger.pending stop) :
    ∃ start' stop', Laid queueEntries (fun _ => 1) (fun p : PendingSubmission => [p.slot])
      start' ledger.pending stop' ∧ ledger.nextSlot = stop' % queueEntries := by
  cases hlast : ledger.pending.getLast? with
  | none =>
    have hnil : ledger.pending = [] := getLast?_eq_none_iff.mp hlast
    exact ⟨0, 0, by rw [hnil]; rfl, by simp [nextSlot, hlast]⟩
  | some p =>
    obtain ⟨position, hstop, hcells⟩ := h.getLast hlast
    refine ⟨start, stop, h, ?_⟩
    rw [window_one] at hcells
    have hslot : p.slot = position % queueEntries := by simpa using hcells
    simp [nextSlot, hlast, hslot, ← hstop]

lemma submit_consistent {pushes : List Push} {encoded : Encoded} (h : Consistent s)
    (hstep : ringStep native64 tailGpu s (.submit pushes encoded) = some s') : Consistent s' := by
  simp only [ringStep] at hstep
  split at hstep
  · cases hstep
  · rename_i token slot hready
    obtain ⟨hpos, hroom, htoken, hslot⟩ := prepare_ready (prepareForMode_ready hready).1
    obtain ⟨start, stop, hput, hlaid⟩ := h.batches_laid
    obtain ⟨hput', hcells⟩ :=
      writeEntries_spec s.ring (segments tailGpu slot pushes encoded) stop hput
    rw [segments_length] at hput' hcells
    simp only [Option.some.injEq] at hstep
    subst hstep
    have hnew : ∀ p ∈ s.ledger.pending, p.token ≠ token := by
      intro p hp
      have := (h.ordered.tokens_issued p hp).2
      omega
    constructor
    · simp [commit, h.used_eq]
    · exact hroom
    · exact forall_mem_append.mpr ⟨h.entries_pos, forall_mem_singleton.mpr hpos⟩
    · exact h.ordered.commit (by omega)
    · obtain ⟨first, last, hslots⟩ := h.slots_laid
      obtain ⟨first', last', hslots', hnext⟩ := nextSlot_laid hslots
      exact ⟨first', last' + 1, hslots'.append (by simp [window_one, hslot, hnext])⟩
    · refine ⟨start, stop + entryCount pushes encoded, hput', ?_⟩
      have hold := hlaid.congr (fun p => Function.update s.written token
        (writeEntries s.ring (segments tailGpu slot pushes encoded)).2 p.token)
        (fun p hp => by simp [Function.update_of_ne (hnew p hp)])
      exact hold.append (by simp [hcells])
  · cases hstep
    exact h

lemma retire_consistent {completed : ℕ} (h : Consistent s)
    (hstep : ringStep native64 tailGpu s (.retire completed) = some s') : Consistent s' := by
  simp only [ringStep] at hstep
  split at hstep
  · cases hstep
  rename_i ledger hretire
  simp only [Option.some.injEq] at hstep
  subst hstep
  obtain ⟨popped, hsplit, -, -, -, -, hused, -⟩ := retire_spec hretire
  have hsum := h.used_eq
  rw [hsplit, map_append, sum_append] at hsum
  have hless : ledger.usedEntries < queueEntries := lt_of_le_of_lt (by omega) h.used_lt
  refine ⟨?_, hless, ?_, (h.ordered.retire hretire).1, ?_, ?_⟩
  · simp only
    omega
  · intro p hp
    exact h.entries_pos p (by rw [hsplit]; exact mem_append_right _ hp)
  · obtain ⟨start, stop, hlaid⟩ := h.slots_laid
    rw [hsplit] at hlaid
    obtain ⟨middle, hlaid'⟩ := hlaid.of_append
    exact ⟨middle, stop, hlaid'⟩
  · obtain ⟨start, stop, hput, hlaid⟩ := h.batches_laid
    rw [hsplit] at hlaid
    obtain ⟨middle, hlaid'⟩ := hlaid.of_append
    exact ⟨middle, stop, hput, hlaid'⟩

lemma ringStep_consistent (native64 : Bool) (tailGpu : ℕ) (s : QueueRing) (action : RingAction)
    (s' : QueueRing) (h : Consistent s) (hstep : ringStep native64 tailGpu s action = some s') :
    Consistent s' := by
  cases action with
  | submit pushes encoded => exact submit_consistent h hstep
  | retire completed => exact retire_consistent h hstep

/-- With nothing pending no entry is in use, so a batch that fits the ring is
never told to wait for an oldest batch that does not exist. -/
lemma prepareForMode_ne_none (h : Consistent s) (entries waits : ℕ) (native64 : Bool) :
    s.ledger.prepareForMode entries waits native64 ≠ none := by
  have hfull : s.ledger.pending ≠ [] → s.ledger.fullAtFront ≠ none := by
    intro hne
    simpa [fullAtFront] using hne
  have hprepare : s.ledger.prepare entries waits ≠ none := by
    simp only [SubmissionLedger.prepare]
    split_ifs with hcap hroom hseq
    · simp
    · apply hfull
      intro hnil
      have := h.used_eq
      rw [hnil] at this
      simp only [map_nil, sum_nil] at this
      omega
    · simp
    · simp
  simp only [SubmissionLedger.prepareForMode]
  split
  · split_ifs with hmode hwrap hfar
    · simp
    · exact hfull hwrap.2
    · simp
    · simp
  · exact hprepare

/-- In every run of submissions and retirements the ledger and the ring agree:
the entries in use are those of the pending batches and leave the ring short of
full; pending tokens increase strictly inside the issued and unretired range; no
two pending batches share a command slot or a ring cell; and the queue never
looks for an oldest batch when there is none. -/
theorem ledger_and_ring_agree {native64 : Bool} {tailGpu : ℕ} {actions : List RingAction}
    {s : QueueRing} (hrun : run (ringStep native64 tailGpu) QueueRing.empty actions = some s) :
    s.ledger.usedEntries = (s.ledger.pending.map PendingSubmission.entries).sum ∧
      s.ledger.usedEntries < 1024 ∧
      (s.ledger.pending.Pairwise fun p q => p.token < q.token) ∧
      (∀ p ∈ s.ledger.pending, s.ledger.retired < p.token ∧ p.token ≤ s.ledger.sequence) ∧
      (s.ledger.pending.Pairwise fun p q => p.slot ≠ q.slot) ∧
      (s.ledger.pending.Pairwise fun p q => (s.written p.token).Disjoint (s.written q.token)) ∧
      ∀ entries waits mode, s.ledger.prepareForMode entries waits mode ≠ none := by
  have h := run_invariant (ringStep_consistent native64 tailGpu) empty_consistent hrun
  have hused : s.ledger.usedEntries < 1024 := h.used_lt
  refine ⟨h.used_eq, hused, h.ordered.tokens_increase, h.ordered.tokens_issued, ?_, ?_, ?_⟩
  · obtain ⟨start, stop, hlaid⟩ := h.slots_laid
    have hlen : s.ledger.pending.length ≤ s.ledger.usedEntries := by
      have hsum := length_le_sum_of_one_le (s.ledger.pending.map PendingSubmission.entries)
      rw [h.used_eq]
      simpa using hsum (by simpa [Nat.one_le_iff_ne_zero, Nat.pos_iff_ne_zero] using h.entries_pos)
    have hstop := hlaid.stop_eq
    simp only [map_const', sum_replicate, smul_eq_mul, mul_one] at hstop
    have hd := hlaid.pairwise_disjoint (by simp only [queueEntries]; omega)
    exact hd.imp (fun hpq heq => by simp [heq] at hpq)
  · obtain ⟨start, stop, _, hlaid⟩ := h.batches_laid
    have hstop := hlaid.stop_eq
    rw [← h.used_eq] at hstop
    exact hlaid.pairwise_disjoint (by simp only [queueEntries]; omega)
  · exact fun entries waits mode => prepareForMode_ne_none h entries waits mode

/-- Two batches, the first of them retired, and a third one behind them. -/
theorem ledger_and_ring_agree_three :
    ∃ s, run (ringStep true 0) QueueRing.empty
        [.submit [⟨0, 4, 0⟩] ⟨4, 10, 12, 0, 0⟩, .submit [] ⟨0, 60, 12, 0, 0⟩, .retire 1,
          .submit [⟨64, 8, 1⟩] ⟨0, 10, 12, 0, 0⟩] = some s ∧
      s.ledger.pending.length = 2 ∧
      s.ledger.usedEntries = (s.ledger.pending.map PendingSubmission.entries).sum := by
  refine ⟨_, rfl, rfl, ?_⟩
  exact (@ledger_and_ring_agree true 0 [.submit [⟨0, 4, 0⟩] ⟨4, 10, 12, 0, 0⟩,
    .submit [] ⟨0, 60, 12, 0, 0⟩, .retire 1, .submit [⟨64, 8, 1⟩] ⟨0, 10, 12, 0, 0⟩] _ rfl).1

/-! ## 32-bit retirement words -/

inductive LedgerAction where
  | submit (entries waits : ℕ)
  | retire (completed : ℕ)

/-- A batch is committed where it is admitted; what is refused changes nothing. -/
def ledgerStep (native64 : Bool) (ledger : SubmissionLedger) : LedgerAction → Option SubmissionLedger
  | .submit entries waits =>
    match ledger.prepareForMode entries waits native64 with
    | none => none
    | some (.ok (.ready token slot)) => some (ledger.commit token entries slot)
    | some _ => some ledger
  | .retire completed =>
    match ledger.retire completed with
    | .error _ => some ledger
    | .ok ledger => some ledger

/-- The value has this low word and lies in the half range that ends at the maximum. -/
def InHalfRange (low maximum value : ℕ) : Prop :=
  value ≤ maximum ∧ value % 2 ^ 32 = low ∧ maximum - value < 2 ^ 31

/-- What is issued stays within half a word range of what is retired. -/
structure Near (ledger : SubmissionLedger) : Prop where
  ordered : Ordered ledger
  near : ledger.sequence ≤ ledger.retired + 0x7fffffff

lemma ledgerStep_near (ledger : SubmissionLedger) (action : LedgerAction) (ledger' : SubmissionLedger)
    (h : Near ledger) (hstep : ledgerStep false ledger action = some ledger') : Near ledger' := by
  cases action with
  | submit entries waits =>
    simp only [ledgerStep] at hstep
    split at hstep
    · cases hstep
    · rename_i token slot hready
      obtain ⟨hprepare, hnear⟩ := prepareForMode_ready hready
      obtain ⟨-, -, htoken, -⟩ := prepare_ready hprepare
      cases hstep
      exact ⟨h.ordered.commit (by omega), hnear rfl⟩
    · cases hstep
      exact h
  | retire completed =>
    simp only [ledgerStep] at hstep
    split at hstep
    · cases hstep
      exact h
    · rename_i after hretire
      obtain ⟨hordered, hup, -⟩ := h.ordered.retire hretire
      obtain ⟨-, -, -, -, -, hsequence, -, -⟩ := retire_spec hretire
      have hnear := h.near
      cases hstep
      exact ⟨hordered, by omega⟩

lemma extendPayload_iff {low maximum value : ℕ} (hlow : low < 2 ^ 32) :
    Fences.extendPayload low maximum = .ok value ↔ InHalfRange low maximum value := by
  rw [Fences.extendPayload_eq_ok hlow]
  unfold InHalfRange
  omega

/-- The extension returns the one value with this low word in the half range below the maximum, if
there is one. In every run of a queue with 32-bit words what is issued is less than half a range
ahead of what is retired, so the low word of each value between them extends to that value. -/
theorem half_range_exact {actions : List LedgerAction} {ledger : SubmissionLedger}
    (hrun : run (ledgerStep false) .empty actions = some ledger) :
    (∀ low maximum, low < 2 ^ 32 → maximum < 2 ^ 64 →
      (∀ value, Fences.extendPayload low maximum = .ok value ↔ InHalfRange low maximum value) ∧
      ∀ v w, InHalfRange low maximum v → InHalfRange low maximum w → v = w) ∧
    ledger.retired ≤ ledger.sequence ∧ ledger.sequence - ledger.retired < 2 ^ 31 ∧
    ∀ completed, ledger.retired ≤ completed → completed ≤ ledger.sequence →
      Fences.extendPayload (completed % 2 ^ 32) ledger.sequence = .ok completed := by
  have hstart : Near .empty := ⟨empty_ordered, Nat.zero_le _⟩
  have h := run_invariant ledgerStep_near hstart hrun
  have hnear := h.near
  refine ⟨?_, h.ordered.retired_le, by omega, ?_⟩
  · intro low maximum hlow hmaximum
    refine ⟨fun value => extendPayload_iff hlow, fun v w hv hw => ?_⟩
    have hok := (extendPayload_iff hlow).mpr hv
    rw [(extendPayload_iff hlow).mpr hw] at hok
    cases hok
    rfl
  · intro completed hretired hissued
    rw [extendPayload_iff (Nat.mod_lt _ (by decide))]
    exact ⟨hissued, rfl, by omega⟩

/-- Two batches, one of them with three waits, and the first of them retired. -/
theorem half_range_exact_two : ∃ ledger,
    run (ledgerStep false) .empty [.submit 1 0, .submit 2 3, .retire 1] = some ledger ∧
      ledger.retired = 1 ∧ ledger.sequence = 5 ∧ Fences.extendPayload (3 % 2 ^ 32) ledger.sequence = .ok 3 := by
  refine ⟨_, rfl, rfl, rfl, ?_⟩
  exact (@half_range_exact [.submit 1 0, .submit 2 3, .retire 1] _ rfl).2.2.2 3 (by decide) (by decide)

/-- The last issued token is that of the newest pending batch, or it has retired. -/
def Newest (s : QueueRing) : Prop :=
  (s.ledger.pending.getLast?.map PendingSubmission.token).getD s.ledger.retired = s.ledger.sequence

lemma ringStep_newest {action : RingAction} (h : Newest s)
    (hstep : ringStep native64 tailGpu s action = some s') : Newest s' := by
  cases action with
  | submit pushes encoded =>
    simp only [ringStep] at hstep
    split at hstep
    · cases hstep
    · cases hstep
      simp [Newest, commit]
    · cases hstep
      exact h
  | retire completed =>
    obtain ⟨popped, hsplit, -, -, -, hretired⟩ :=
      retirePending_spec completed s.ledger.pending s.ledger.usedEntries s.ledger.retired
    simp only [ringStep, retire] at hstep
    split_ifs at hstep
    cases hstep
    rw [Newest, hsplit, getLast?_append] at h
    rw [Newest, hretired, ← h]
    cases (retirePending completed _ _ _).1.getLast? <;> rfl

/-- Once the GPU has completed all that was issued, the ring is empty and takes any batch that fits. -/
theorem drained_ring_admits {actions : List RingAction} {entries : ℕ}
    (hrun : run (ringStep native64 tailGpu) QueueRing.empty actions = some s) (hpos : 0 < entries)
    (hfits : entries < 1024) (hsequence : s.ledger.sequence < 2 ^ 64 - 1) :
    ∃ ledger, s.ledger.retire s.ledger.sequence = .ok ledger ∧ ledger.pending = [] ∧
      ledger.prepareForMode entries 0 native64 = some (.ok (.ready (s.ledger.sequence + 1) 0)) := by
  have h := run_invariant (ringStep_consistent native64 tailGpu) empty_consistent hrun
  have hnewest : Newest s := run_invariant (fun _ _ _ => ringStep_newest) (by rfl) hrun
  have hle := h.ordered.retired_le
  obtain ⟨popped, hsplit, -, hstop, hused, hretired⟩ := retirePending_spec s.ledger.sequence
    s.ledger.pending s.ledger.usedEntries s.ledger.retired
  refine ⟨_, if_neg (by omega), ?_⟩
  generalize retirePending _ _ _ _ = left at *
  obtain ⟨_ | ⟨p, rest⟩, used, retired⟩ := left
  · rw [append_nil] at hsplit
    subst hsplit
    rw [hnewest] at hretired
    rw [← h.used_eq, Nat.sub_self] at hused
    subst hused hretired
    refine ⟨rfl, ?_⟩
    simp only [prepareForMode, prepare, queueEntries]
    rw [if_neg (by omega), if_neg (by omega), if_neg (by omega)]
    simp [nextSlot]
  · have hissued := (h.ordered.tokens_issued p (by simp [hsplit])).2
    have hafter := hstop p rfl
    omega

theorem drained_ring_admits_one : ∃ s, run (ringStep false 0) QueueRing.empty
      [.submit [⟨0, 4, 0⟩] ⟨4, 10, 12, 0, 0⟩] = some s ∧ s.ledger.usedEntries = 3 ∧
    ∃ ledger, s.ledger.retire 1 = .ok ledger ∧ ledger.pending = [] ∧
      ledger.prepareForMode 1023 0 false = some (.ok (.ready 2 0)) := by
  refine ⟨_, rfl, rfl, ?_⟩
  exact @drained_ring_admits false _ 0 [.submit [⟨0, 4, 0⟩] ⟨4, 10, 12, 0, 0⟩] 1023 rfl (by decide)
    (by decide) (by decide)

end Gpfifo

end NvidiaProlapse
