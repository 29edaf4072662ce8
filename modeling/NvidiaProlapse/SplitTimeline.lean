import NvidiaProlapse.Runs
import NvidiaProlapse.SlotPool

/-!
# Runs of one split-view timeline slot

The pool words are the ones the code reads and writes. Next to them the state
keeps what the words stand for: the full value behind the low word, the values
accepted and not yet released, and the largest value released or host-signalled.
A read is two actions, so that any other action can fall between its loads.
-/
namespace NvidiaProlapse.SplitTimeline
open Runs

/-- A `timeline_value` call between its two loads: the low word it loaded and
the full value that word stood for. -/
structure PendingRead where
  low : ℕ
  value : ℕ
  deriving DecidableEq, Repr

structure Timeline where
  pool : SlotPool
  /-- Signals that passed the distance check and are not accepted yet. -/
  planned : List ℕ
  /-- Accepted signals whose GPU release has not executed, oldest first. -/
  accepted : List ℕ
  /-- The full value whose low word the slot holds. -/
  value : ℕ
  /-- The largest value released or host-signalled so far. -/
  published : ℕ
  reads : ℕ → Option PendingRead

inductive Action where
  | plan (value : ℕ)
  | accept (value : ℕ)
  | release
  | hostSignal (value : ℕ)
  | loadLow (reader : ℕ)
  | loadShadow (reader : ℕ)
  deriving DecidableEq, Repr

/-- The state right after `init_timeline` left `pool`. -/
def start (pool : SlotPool) (initial : ℕ) : Timeline where
  pool := pool
  planned := []
  accepted := []
  value := initial
  published := initial
  reads := fun _ => none

/-- One action on `slot`. A signal is planned when its distance check passes and
accepted by raising the shadow; the GPU releases the low words of accepted values
in acceptance order; a host signal counts when it is accepted. -/
def step (slot : Slot) (s : Timeline) : Action → Option Timeline
  | .plan value =>
    match s.pool.checkSplitDistance slot value with
    | .error _ => none
    | .ok () => some { s with planned := s.planned ++ [value] }
  | .accept value =>
    if value ∈ s.planned then
      match s.pool.raiseShadow slot value with
      | .error _ => none
      | .ok pool => some { s with
          pool := pool
          planned := s.planned.erase value
          accepted := s.accepted ++ [value] }
    else none
  | .release =>
    match s.accepted with
    | [] => none
    | value :: rest => some { s with
        pool := s.pool.gpuWrite32 slot value
        accepted := rest
        value := value
        published := max s.published value }
  | .hostSignal value =>
    match s.pool.hostSignal slot value with
    | .error _ => none
    | .ok (changed, pool) => some { s with
        pool := pool
        value := if changed then value else s.value
        published := if changed then max s.published value else s.published }
  | .loadLow reader =>
    some { s with
      reads := Function.update s.reads reader (some ⟨s.pool.word32 slot, s.value⟩) }
  | .loadShadow reader =>
    match s.reads reader with
    | none => none
    | some _ => some { s with reads := Function.update s.reads reader none }

/-- What the words of the slot mean, in every reachable state. -/
structure Meaning (slot : Slot) (s : Timeline) : Prop where
  view : s.pool.view = .split32
  low_word : s.pool.word32 slot = s.value % 2 ^ 32
  value_le : s.value ≤ s.pool.shadow slot
  value_published : s.value ≤ s.published
  accepted_le : ∀ v ∈ s.accepted, v ≤ s.pool.shadow slot
  reads_within : ∀ reader read, s.reads reader = some read →
    read.low = read.value % 2 ^ 32 ∧ read.value ≤ s.pool.shadow slot ∧ read.value ≤ s.published

variable {initial : ℕ} {initialized pool : SlotPool} {slot : Slot} {s : Timeline}

lemma start_meaning (hview : pool.view = .split32)
    (hinit : pool.initTimeline slot initial = .ok initialized) :
    Meaning slot (start initialized initial) := by
  simp only [SlotPool.initTimeline, hview] at hinit
  split at hinit
  · cases hinit
  · cases hinit
    refine ⟨hview, ?_, ?_, le_rfl, ?_, ?_⟩ <;> simp [start]

/-- Raising the shadow keeps every recorded bound. -/
lemma Meaning.raise (h : Meaning slot s) (value : ℕ) :
    Meaning slot { s with pool := s.pool.setShadow slot (max (s.pool.shadow slot) value) } := by
  refine ⟨h.view, ?_, ?_, h.value_published, ?_, ?_⟩
  · simpa using h.low_word
  · simpa using Or.inl h.value_le
  · intro v hv
    simpa using Or.inl (h.accepted_le v hv)
  · intro reader read hr
    obtain ⟨hlow, hle, hpub⟩ := h.reads_within reader read hr
    exact ⟨hlow, by simpa using Or.inl hle, hpub⟩

/-- Storing the low word of a value below the shadow keeps the meaning. -/
lemma Meaning.store (h : Meaning slot s) {value : ℕ} {accepted : List ℕ}
    (hv : value ≤ s.pool.shadow slot) (hacc : ∀ v ∈ accepted, v ≤ s.pool.shadow slot) :
    Meaning slot { s with
      pool := s.pool.setWord32 slot value
      accepted := accepted
      value := value
      published := max s.published value } := by
  refine ⟨h.view, ?_, ?_, ?_, ?_, ?_⟩
  · simp
  · simpa using hv
  · simp
  · simpa using hacc
  · intro reader read hr
    obtain ⟨hlow, hle, hpub⟩ := h.reads_within reader read hr
    exact ⟨hlow, by simpa using hle, le_trans hpub (le_max_left _ _)⟩

lemma step_meaning (slot : Slot) (s : Timeline) (action : Action) (s' : Timeline)
    (h : Meaning slot s) (hstep : step slot s action = some s') : Meaning slot s' := by
  cases action with
  | plan value =>
    simp only [step] at hstep
    split at hstep
    · cases hstep
    · cases hstep
      exact { h with }
  | accept value =>
    simp only [step] at hstep
    split_ifs at hstep with hmem
    simp only [SlotPool.raiseShadow, h.view] at hstep
    cases hlive : s.pool.live with
    | error e => simp [hlive] at hstep
    | ok _ =>
      simp only [hlive, Option.some.injEq] at hstep
      subst hstep
      have hr := h.raise value
      refine { hr with accepted_le := ?_ }
      exact List.forall_mem_append.mpr ⟨hr.accepted_le, List.forall_mem_singleton.mpr (by simp)⟩
  | release =>
    simp only [step] at hstep
    split at hstep
    · cases hstep
    next value rest hacc =>
      cases hstep
      exact h.store (h.accepted_le value (by simp [hacc]))
        (fun v hv => h.accepted_le v (by simp [hacc, hv]))
  | hostSignal value =>
    simp only [step] at hstep
    cases hs : s.pool.hostSignal slot value with
    | error e => simp [hs] at hstep
    | ok result =>
      obtain ⟨changed, pool⟩ := result
      simp only [hs, Option.some.injEq] at hstep
      subst hstep
      rcases SlotPool.hostSignal_split32 h.view hs with ⟨rfl, rfl⟩ | ⟨rfl, rfl⟩
      · simpa using h
      · have hr := h.raise value
        exact hr.store (by simp) hr.accepted_le
  | loadLow reader =>
    simp only [step, Option.some.injEq] at hstep
    subst hstep
    refine { h with reads_within := ?_ }
    intro other read hread
    by_cases ho : other = reader
    · subst ho
      simp only [Function.update_self, Option.some.injEq] at hread
      subst hread
      exact ⟨h.low_word, h.value_le, h.value_published⟩
    · simp only [Function.update_of_ne ho] at hread
      exact h.reads_within other read hread
  | loadShadow reader =>
    simp only [step] at hstep
    split at hstep
    · cases hstep
    simp only [Option.some.injEq] at hstep
    subst hstep
    refine { h with reads_within := ?_ }
    intro other read hread
    by_cases ho : other = reader
    · subst ho
      simp at hread
    · simp only [Function.update_of_ne ho] at hread
      exact h.reads_within other read hread

/-- Every state of a run that starts with `init_timeline` has its meaning. -/
lemma run_meaning {actions : List Action} (hview : pool.view = .split32)
    (hinit : pool.initTimeline slot initial = .ok initialized)
    (hrun : run (step slot) (start initialized initial) actions = some s) : Meaning slot s :=
  run_invariant (step_meaning slot) (start_meaning hview hinit) hrun

/-- What a read that loads the shadow now may return: an error, or the value
whose low word it loaded, which is not above what was released or signalled. -/
def ReadExact (slot : Slot) (s : Timeline) (read : PendingRead) : Prop :=
  ∀ v, s.pool.timelineFinish slot read.low = .ok v → v = read.value ∧ v ≤ s.published

/-- The shadow is a whole word range or more ahead of the loaded value, by a
distance that the reconstruction takes for less than half a range. -/
def ShadowOvertakes (slot : Slot) (s : Timeline) (read : PendingRead) : Prop :=
  2 ^ 32 ≤ s.pool.shadow slot - read.value ∧ (s.pool.shadow slot - read.value) % 2 ^ 32 < 2 ^ 31

instance (slot : Slot) (s : Timeline) (read : PendingRead) :
    Decidable (ShadowOvertakes slot s read) :=
  inferInstanceAs (Decidable (_ ∧ _))

/-- In every run and for every read in flight, the read returns an error or its
own value exactly when the shadow has not overtaken that value. -/
theorem timeline_read_exact_iff {pool initialized : SlotPool} {slot : Slot} {initial : ℕ}
    {actions : List Action} {s : Timeline} {reader : ℕ} {read : PendingRead}
    (hview : pool.view = .split32) (hinit : pool.initTimeline slot initial = .ok initialized)
    (hrun : run (step slot) (start initialized initial) actions = some s)
    (hread : s.reads reader = some read) :
    ReadExact slot s read ↔ ¬ ShadowOvertakes slot s read := by
  have h := run_meaning hview hinit hrun
  obtain ⟨hlow, hle, hpub⟩ := h.reads_within reader read hread
  have hok : ∀ v, s.pool.timelineFinish slot read.low = .ok v ↔
      v % 2 ^ 32 = read.value % 2 ^ 32 ∧ v ≤ s.pool.shadow slot ∧
        s.pool.shadow slot < v + 2 ^ 31 := by
    intro v
    rw [SlotPool.timelineFinish, SlotPool.splitValue,
      Fences.extendPayload_eq_ok (by rw [hlow]; exact Nat.mod_lt _ (by decide)), hlow]
  simp only [ReadExact, ShadowOvertakes, hok]
  constructor
  · rintro hexact ⟨hfar, hnear⟩
    have := hexact (s.pool.shadow slot - (s.pool.shadow slot - read.value) % 2 ^ 32)
      ⟨by omega, by omega, by omega⟩
    omega
  · intro hnot v hv
    have : v = read.value := by omega
    exact ⟨this, by omega⟩

/-- A pending signal inside the window: the read between its loads is exact. -/
theorem timeline_read_exact_pending :
    ∃ initialized s read, (SlotPool.new .split32).initTimeline 0 7 = .ok initialized ∧
      run (step 0) (start initialized 7) [.loadLow 0, .plan 9, .accept 9] = some s ∧
      s.reads 0 = some read ∧ ReadExact 0 s read := by
  refine ⟨_, _, _, rfl, rfl, rfl, ?_⟩
  apply (@timeline_read_exact_iff (SlotPool.new .split32) _ 0 7
    [.loadLow 0, .plan 9, .accept 9] _ 0 _ rfl rfl rfl rfl).mpr
  decide

/-- Three accepted signals, none of them released, and a read of the slot. -/
def pileUp : List Action :=
  [.plan (2 ^ 31 - 1), .accept (2 ^ 31 - 1), .plan (2 ^ 32 - 2), .accept (2 ^ 32 - 2),
    .plan (2 ^ 32), .accept (2 ^ 32), .loadLow 0]

/-- Each signal is less than half a range above the shadow it was checked
against, and the read of the untouched slot returns the last one. -/
theorem pileUp_reads_ahead :
    ∃ initialized s read, (SlotPool.new .split32).initTimeline 0 0 = .ok initialized ∧
      run (step 0) (start initialized 0) pileUp = some s ∧ s.reads 0 = some read ∧
      read.value = 0 ∧ s.published = 0 ∧ s.pool.timelineFinish 0 read.low = .ok (2 ^ 32) ∧
      ¬ ReadExact 0 s read := by
  refine ⟨_, _, _, rfl, rfl, rfl, rfl, rfl, rfl, ?_⟩
  intro h
  exact absurd (h (2 ^ 32) rfl).1 (by decide)

end NvidiaProlapse.SplitTimeline
