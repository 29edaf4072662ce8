import NvidiaProlapse.SlotPool
import NvidiaProlapse.SubmissionLedger

/-!
# The lock-free view of a queue's retirement word

`completed` of gpu.rs loads the issued sequence first and the retirement word
second. The runs below interleave the submitting thread (store of the new token,
then the start of the batch), the GPU (low words of started tokens, in order)
and a reader that takes these two loads as separate actions.
-/
namespace NvidiaProlapse
open Option

/-- `completed` after its first load: the word is read and extended against the
sequence loaded before. -/
def completedFrom (pool : SlotPool) (retire : Slot) (native64 : Bool) (sequence : ℕ) : Result ℕ :=
  if native64 then pool.read64Raw retire
  else
    match pool.read32 retire with
    | .error e => .error e
    | .ok low => Fences.extendPayload low sequence

/-- The shared part of a queue; the pool is passed along. -/
structure QueueShared where
  retire : Slot
  native64 : Bool
  sequence : ℕ
  lost : Bool
  deriving DecidableEq, Repr

/-- `retired` with its loads as arguments; `completed` is only used for an issued
token other than zero. -/
def retiredWith (lost : Bool) (sequence : ℕ) (completed : Result ℕ) (token : ℕ) : Result Bool :=
  if lost then .error (.deviceLost "persistent RM channel is lost")
  else if sequence < token then .error (.contract "unissued RM completion token")
  else if token = 0 then .ok true
  else
    match completed with
    | .error e => .error e
    | .ok completed => .ok (decide (token ≤ completed))

namespace QueueShared

def completed (q : QueueShared) (pool : SlotPool) : Result ℕ :=
  completedFrom pool q.retire q.native64 q.sequence

def retired (q : QueueShared) (pool : SlotPool) (token : ℕ) : Result Bool :=
  retiredWith q.lost q.sequence (q.completed pool) token

end QueueShared

namespace QueueCompletion
open Runs SubmissionLedger Gpfifo

/-- A `completed` call between its loads: the sequence it loaded, the value
completed at that load and every value completed at an instant of the call so far. -/
structure Reader where
  sequence : ℕ
  first : ℕ
  seen : List ℕ
  deriving DecidableEq, Repr

/-- A sem32 queue. `stored` are tokens whose batch the GPU has not been given,
`started` those it works on, oldest first; `completed` is the full value behind
the retirement word. -/
structure Channel where
  pool : SlotPool
  retire : Slot
  sequence : ℕ
  ledger : SubmissionLedger
  stored : List ℕ
  started : List ℕ
  completed : ℕ
  reader : Option Reader

/-- A new queue: the retirement slot was just allocated and holds zero. -/
def Channel.new (pool : SlotPool) (retire : Slot) : Channel where
  pool := pool
  retire := retire
  sequence := 0
  ledger := .empty
  stored := []
  started := []
  completed := 0
  reader := none

inductive Action where
  | retire
  | submit (entries : ℕ)
  | start
  | complete
  | loadSequence
  | loadWord
  deriving DecidableEq, Repr

def Reader.observe (completed : ℕ) (r : Reader) : Reader :=
  { r with seen := r.seen ++ [completed] }

def step (s : Channel) : Action → Option Channel
  | .retire =>
    match completedFrom s.pool s.retire false s.sequence with
    | .error _ => none
    | .ok completed =>
      match s.ledger.retire completed with
      | .error _ => none
      | .ok ledger => some { s with ledger := ledger }
  | .submit entries =>
    match s.ledger.prepareForMode entries 0 false with
    | some (.ok (.ready token slot)) => some { s with
        sequence := token
        ledger := s.ledger.commit token entries slot
        stored := s.stored ++ [token] }
    | _ => none
  | .start =>
    match s.stored with
    | [] => none
    | token :: rest => some { s with stored := rest, started := s.started ++ [token] }
  | .complete =>
    match s.started with
    | [] => none
    | token :: rest => some { s with
        pool := s.pool.gpuWrite32 s.retire token
        started := rest
        completed := token
        reader := s.reader.map (Reader.observe token) }
  | .loadSequence => some { s with reader := some ⟨s.sequence, s.completed, [s.completed]⟩ }
  | .loadWord =>
    match s.reader with
    | none => none
    | some _ => some { s with reader := none }

/-- The values completed since the first load of a call: every token from the one
completed then to the one completed now. -/
structure ReaderValid (s : Channel) (r : Reader) : Prop where
  first_le : r.first ≤ s.completed
  sequence_near : r.sequence ≤ r.first + 0x7fffffff
  mem_seen : ∀ v, v ∈ r.seen ↔ r.first ≤ v ∧ v ≤ s.completed

structure Valid (s : Channel) : Prop where
  opened : s.pool.closed = false
  word_eq : s.pool.word32 s.retire = s.completed % 2 ^ 32
  ordered : Ordered s.ledger
  ledger_sequence : s.ledger.sequence = s.sequence
  retired_le : s.ledger.retired ≤ s.completed
  sequence_near : s.sequence ≤ s.ledger.retired + 0x7fffffff
  completed_le : s.completed ≤ s.sequence
  in_flight : s.started ++ s.stored = List.range' (s.completed + 1) (s.sequence - s.completed)
  reader_valid : ∀ r, s.reader = some r → ReaderValid s r

/-- The allocated retirement slot holds zero. -/
lemma new_valid {pool : SlotPool} {retire : Slot} (hopen : pool.closed = false)
    (hword : pool.word32 retire = 0) : Valid (Channel.new pool retire) where
  opened := hopen
  word_eq := by simp [Channel.new, hword]
  ordered := empty_ordered
  ledger_sequence := rfl
  retired_le := le_rfl
  sequence_near := by simp [Channel.new]
  completed_le := le_rfl
  in_flight := rfl
  reader_valid := by simp [Channel.new]

variable {s s' : Channel}

/-- The word extends to the completed value against every sequence that is at
least the completed value and less than half a word range above it. -/
lemma completedFrom_eq_ok (h : Valid s) (sequence value : ℕ) :
    completedFrom s.pool s.retire false sequence = .ok value ↔
      value % 2 ^ 32 = s.completed % 2 ^ 32 ∧ value ≤ sequence ∧ sequence < value + 2 ^ 31 := by
  have hlow : s.completed % 2 ^ 32 < 2 ^ 32 := Nat.mod_lt _ (by decide)
  have hread : s.pool.read32 s.retire = .ok (s.completed % 2 ^ 32) := by
    simp [SlotPool.read32, SlotPool.live_eq_ok.mpr h.opened, h.word_eq]
  simp only [completedFrom, Bool.false_eq_true, if_false, hread]
  exact Fences.extendPayload_eq_ok hlow

lemma retire_valid (h : Valid s) (hstep : step s .retire = some s') : Valid s' := by
  simp only [step] at hstep
  cases hc : completedFrom s.pool s.retire false s.sequence with
  | error e => simp [hc] at hstep
  | ok completed =>
    cases hr : s.ledger.retire completed with
    | error e => simp [hc, hr] at hstep
    | ok ledger =>
      simp only [hc, hr, some.injEq] at hstep
      subst hstep
      have hnear := h.sequence_near
      have hret := h.retired_le
      have hle := h.completed_le
      have hexact : completed = s.completed := by
        have := (completedFrom_eq_ok h s.sequence completed).mp hc
        exact WordEpoch.eq_of_mod_eq this.1 (by omega) (by omega)
      obtain ⟨hord, hup, hbelow⟩ := h.ordered.retire hr
      obtain ⟨_, -, -, -, -, hseq, -, -⟩ := retire_spec hr
      refine ⟨h.opened, h.word_eq, hord, hseq.trans h.ledger_sequence, ?_, ?_, hle, h.in_flight, ?_⟩
      · exact hexact ▸ hbelow
      · simp only
        omega
      · intro r hread
        have hr := h.reader_valid r hread
        exact { hr with }

lemma submit_valid {entries : ℕ} (h : Valid s) (hstep : step s (.submit entries) = some s') :
    Valid s' := by
  simp only [step] at hstep
  split at hstep
  · rename_i token slot hready
    simp only [some.injEq] at hstep
    subst hstep
    obtain ⟨hprepare, hhalf⟩ := prepareForMode_ready hready
    obtain ⟨_, _, htoken, _⟩ := prepare_ready hprepare
    have hseq := h.ledger_sequence
    have hle := h.completed_le
    refine ⟨h.opened, h.word_eq, h.ordered.commit (by omega), rfl, h.retired_le, hhalf rfl, ?_, ?_, ?_⟩
    · simp only
      omega
    · have hcount : token - s.completed = (s.sequence - s.completed) + 1 := by omega
      have hlast : s.completed + 1 + (s.sequence - s.completed) = token := by omega
      simp only [← List.append_assoc, h.in_flight, hcount]
      rw [List.range'_1_concat, hlast]
    · intro r hread
      have hr := h.reader_valid r hread
      exact { hr with }
  · cases hstep

lemma start_valid (h : Valid s) (hstep : step s .start = some s') : Valid s' := by
  simp only [step] at hstep
  split at hstep
  · cases hstep
  next token rest hstored =>
    cases hstep
    refine { h with in_flight := ?_, reader_valid := ?_ }
    · have := h.in_flight
      rw [hstored] at this
      simpa using this
    · intro r hread
      have hr := h.reader_valid r hread
      exact { hr with }

/-- The oldest started batch carries the token after the completed one. -/
lemma complete_valid (h : Valid s) (hstep : step s .complete = some s') : Valid s' := by
  simp only [step] at hstep
  split at hstep
  · cases hstep
  next token rest hstarted =>
    cases hstep
    have hflight := h.in_flight
    have hret := h.retired_le
    rw [hstarted] at hflight
    obtain ⟨n, hn⟩ : ∃ n, s.sequence - s.completed = n + 1 := by
      cases hd : s.sequence - s.completed with
      | zero => simp [hd] at hflight
      | succ n => exact ⟨n, rfl⟩
    rw [hn, List.range'_succ] at hflight
    simp only [List.cons_append, List.cons.injEq] at hflight
    obtain ⟨htoken, hrest⟩ := hflight
    refine ⟨h.opened, ?_, h.ordered, h.ledger_sequence, ?_, h.sequence_near, ?_, ?_, ?_⟩
    · exact SlotPool.word32_setWord32 _ _ _
    · simp only
      omega
    · simp only
      omega
    · have hleft : s.sequence - (s.completed + 1) = n := by omega
      simp [hrest, htoken, hleft]
    intro r hread
    simp only [map_eq_some_iff] at hread
    obtain ⟨old, hold, rfl⟩ := hread
    have hr := h.reader_valid old hold
    have hfirst := hr.first_le
    refine ⟨?_, hr.sequence_near, ?_⟩
    · simp only [Reader.observe]
      omega
    · intro v
      simp only [Reader.observe, List.mem_append, hr.mem_seen, List.mem_singleton]
      omega

lemma step_valid (s : Channel) (action : Action) (s' : Channel) (h : Valid s)
    (hstep : step s action = some s') : Valid s' := by
  cases action with
  | retire => exact retire_valid h hstep
  | submit entries => exact submit_valid h hstep
  | start => exact start_valid h hstep
  | complete => exact complete_valid h hstep
  | loadSequence =>
    simp only [step, some.injEq] at hstep
    subst hstep
    refine { h with reader_valid := ?_ }
    intro r hread
    simp only [some.injEq] at hread
    subst hread
    have hnear := h.sequence_near
    have hret := h.retired_le
    refine ⟨le_rfl, ?_, ?_⟩
    · simp only
      omega
    · intro v
      simp only [List.mem_singleton]
      omega
  | loadWord =>
    simp only [step] at hstep
    split at hstep
    · cases hstep
    · simp only [some.injEq] at hstep
      subst hstep
      exact { h with reader_valid := by simp }

/-- The call that loads the word now succeeds with a value that was completed at
an instant of the call. -/
def ReadsCompleted (s : Channel) (r : Reader) : Prop :=
  ∃ v, completedFrom s.pool s.retire false r.sequence = .ok v ∧ v ∈ r.seen

/-- The word to be loaded is the low word of a token between the one completed at
the first load and the sequence loaded there. It is while no token issued after
the first load has completed. -/
def WordInWindow (s : Channel) (r : Reader) : Prop :=
  ∃ v, r.first ≤ v ∧ v ≤ r.sequence ∧ v % 2 ^ 32 = s.completed % 2 ^ 32

/-- In every run and for every call between its loads, the call returns a value
completed during the call exactly when the word is still in its window. -/
theorem completed_reads_iff {pool : SlotPool} {retire : Slot} {actions : List Action}
    {s : Channel} {r : Reader} (hopen : pool.closed = false) (hword : pool.word32 retire = 0)
    (hrun : run step (Channel.new pool retire) actions = some s) (hreader : s.reader = some r) :
    ReadsCompleted s r ↔ WordInWindow s r := by
  have h := run_invariant step_valid (new_valid hopen hword) hrun
  have hr := h.reader_valid r hreader
  have hfirst := hr.first_le
  have hnear := hr.sequence_near
  constructor
  · intro hreads
    obtain ⟨v, hok, hseen⟩ := hreads
    obtain ⟨hmod, hle, _⟩ := (completedFrom_eq_ok h r.sequence v).mp hok
    exact ⟨v, ((hr.mem_seen v).mp hseen).1, hle, hmod⟩
  · intro hwindow
    obtain ⟨v, hlow, hle, hmod⟩ := hwindow
    have hbelow : v ≤ s.completed := by
      by_contra habove
      omega
    exact ⟨v, (completedFrom_eq_ok h r.sequence v).mpr ⟨hmod, hle, by omega⟩,
      (hr.mem_seen v).mpr ⟨hlow, hbelow⟩⟩

/-- Two tokens are issued before the first load, one of them completes during the
call: the call returns it. -/
theorem completed_reads_during_call :
    ∃ s r, run step (Channel.new (SlotPool.new .split32) 0)
        [.submit 1, .start, .submit 1, .loadSequence, .complete] = some s ∧
      s.reader = some r ∧ ReadsCompleted s r := by
  refine ⟨_, _, rfl, rfl, ?_⟩
  apply (@completed_reads_iff (SlotPool.new .split32) 0
    [.submit 1, .start, .submit 1, .loadSequence, .complete] _ _ rfl rfl rfl rfl).mpr
  exact ⟨1, by decide, by decide, rfl⟩

/-- A token issued and completed between the two loads: the word is ahead of the
loaded sequence and the call fails. -/
theorem completed_fails_on_overtaken_sequence :
    ∃ s r, run step (Channel.new (SlotPool.new .split32) 0)
        [.loadSequence, .submit 1, .start, .complete] = some s ∧
      s.reader = some r ∧
      completedFrom s.pool s.retire false r.sequence =
        .error (.contract "sem32 payload precedes timeline origin") ∧
      ¬ ReadsCompleted s r := by
  refine ⟨_, _, rfl, rfl, rfl, ?_⟩
  intro h
  obtain ⟨v, hok, _⟩ := h
  cases hok

end QueueCompletion

end NvidiaProlapse
