import NvidiaProlapse.SplitTimeline
import NvidiaProlapse.SyncObj

/-!
# GPU timeline waits in the split view

The host semaphore compares low words circularly, with a window of half a word range.
A wait is admitted by its distance from the shadow, while the hardware sees the low
word of the value, which may trail the shadow. The wait never passes early exactly
while its target is not out of the window of the value.
-/
namespace NvidiaProlapse.SplitTimeline
open Runs Programs WordEpoch

/-- The acquire on the current low word. -/
def Acquired (slot : Slot) (target : ℕ) (s : Timeline) : Prop :=
  circularGeq (2 ^ 32) (2 ^ 31) (s.pool.word32 slot) (target % 2 ^ 32)

/-- The wait passes only when the timeline has its target. -/
def WaitHolds (slot : Slot) (target : ℕ) (s : Timeline) : Prop :=
  Acquired slot target s → target ≤ s.value

/-- The target is ahead of the value by whole word ranges, or by more than half of one
beyond them. -/
def OutOfWindow (target value : ℕ) : Prop :=
  value < target ∧ ((target - value) % 2 ^ 32 = 0 ∨ 2 ^ 31 < (target - value) % 2 ^ 32)

instance (target value : ℕ) : Decidable (OutOfWindow target value) :=
  inferInstanceAs (Decidable (_ ∧ _))

variable {s : Timeline} {slot : Slot} {target : ℕ}

lemma acquired_iff_of_lt (h : Meaning slot s) (hlt : s.value < target) :
    Acquired slot target s ↔ OutOfWindow target s.value := by
  rw [Acquired, h.low_word, circularGeq_of_lt (by decide) hlt, OutOfWindow]
  omega

lemma waitHolds_iff (h : Meaning slot s) :
    WaitHolds slot target s ↔ ¬ OutOfWindow target s.value := by
  by_cases hlt : s.value < target
  · rw [WaitHolds, acquired_iff_of_lt h hlt]
    constructor
    · intro hholds hout
      exact absurd (hholds hout) (by omega)
    · intro hnot hout
      exact absurd hout hnot
  · constructor
    · intro _ hout
      exact hlt hout.1
    · intro _ _
      omega

/-- The timeline does not go backwards. -/
def Rises (slot : Slot) (s : Timeline) (action : Action) : Prop :=
  ∀ s', step slot s action = some s' → s.value ≤ s'.value

lemma run_rises {t : Timeline} {actions : List Action}
    (hrises : Along (step slot) (Rises slot) s actions) (hrun : run (step slot) s actions = some t) :
    s.value ≤ t.value := by
  have hstep : ∀ u action u', s.value ≤ u.value → Rises slot u action →
      step slot u action = some u' → s.value ≤ u'.value :=
    fun u action u' hle hrise hnext => hle.trans (hrise u' hnext)
  exact run_invariant_along hstep le_rfl hrises hrun

/-- A wait for a timeline slot has passed the distance test. -/
lemma planWait_distance {kernel : Kernel} {sync : SyncObj} {value : ℕ} {core core' : Core}
    (h : exec (Core.planWait kernel sync value) core = (.ok (.timeline slot target), core')) :
    target = value ∧ core.pool.checkSplitDistance slot target = .ok () := by
  have hspec : Yields (core = ·) (Core.planWait kernel sync value)
      fun plan _ => ∀ slot target, plan = .timeline slot target →
        target = value ∧ core.pool.checkSplitDistance slot target = .ok () := by
    apply Spec.look
    cases sync.state.payload with
    | native own =>
      refine .either ?_ (.of_pure nofun)
      refine .tried ?_
      intro current _
      refine .either (.of_pure nofun) ?_
      refine .tried ?_
      rintro ⟨⟩ hdistance
      refine .of_pure ?_
      rintro _ _ slot target ⟨⟩
      exact ⟨rfl, hdistance⟩
    | foreign foreign =>
      refine .seq (.anything _ _) fun ready => ?_
      refine .either ?_ ?_
      all_goals exact .of_pure nofun
    | shared shared =>
      refine .seq (.anything _ _) fun _ => ?_
      refine .read fun _ _ => .tried fun ready _ => ?_
      refine .either ?_ ?_
      all_goals exact .of_pure nofun
  exact (hspec core rfl).1 _ core' h slot target rfl

/-- A wait that `plan_wait` admitted. At every later moment it passes only at its
target exactly when the target is not out of the window of the value. It does at all
of them if the timeline does not go backwards and, when the wait is admitted, the
target is at most half a word range ahead of the value or every accepted signal has
been released. -/
theorem admitted_wait_iff {pool initialized : SlotPool} {slot : Slot} {initial target : ℕ}
    {before later : List Action} {s t : Timeline} {kernel : Kernel} {sync : SyncObj}
    {core core' : Core} (hview : pool.view = .split32)
    (hinit : pool.initTimeline slot initial = .ok initialized)
    (hbefore : run (step slot) (start initialized initial) before = some s)
    (hpool : core.pool = s.pool)
    (hplan : exec (Core.planWait kernel sync target) core = (.ok (.timeline slot target), core'))
    (hlater : run (step slot) s later = some t) :
    (WaitHolds slot target t ↔ ¬ OutOfWindow target t.value) ∧
      (target ≤ s.value + 2 ^ 31 ∨ s.pool.shadow slot = s.value →
        Along (step slot) (Rises slot) s later → WaitHolds slot target t) := by
  have hmeaning := run_meaning hview hinit hbefore
  have hlast : Meaning slot t := run_invariant (step_meaning slot) hmeaning hlater
  refine ⟨waitHolds_iff hlast, ?_⟩
  intro hwindow hrises
  have hnear : target ≤ s.value + 2 ^ 31 := by
    rcases hwindow with hnear | hidle
    · exact hnear
    · have hdistance := (planWait_distance hplan).2
      rw [hpool, SlotPool.checkSplitDistance_eq_ok hmeaning.view] at hdistance
      omega
  rw [waitHolds_iff hlast]
  rintro ⟨hlt, hfar⟩
  have hle := run_rises hrises hlater
  omega

/-! ## Waits next to a pending signal -/

/-- A timeline handle on the first slot. -/
def timelineHandle : SyncObj := ⟨true, .native 0, none, 0, none⟩

/-- The device around the slot of a timeline. -/
def coreOf (s : Timeline) : Core := { Core.empty .split32 with pool := s.pool }

def silentKernel : Kernel := ⟨fun _ => .ok (0, 0), fun _ => .ok 0, fun _ => .ok 0, fun _ => .ok ()⟩

theorem admitted_wait_iff_pending :
    ∃ initialized s t core', (SlotPool.new .split32).initTimeline 0 7 = .ok initialized ∧
      run (step 0) (start initialized 7) [.plan 9, .accept 9] = some s ∧
      exec (Core.planWait silentKernel timelineHandle 12) (coreOf s) =
        (.ok (.timeline 0 12), core') ∧
      run (step 0) s [.release] = some t ∧ WaitHolds 0 12 t := by
  refine ⟨_, _, _, _, rfl, rfl, rfl, rfl, ?_⟩
  have hwait : ∀ initialized s t core', (SlotPool.new .split32).initTimeline 0 7 = .ok initialized →
      run (step 0) (start initialized 7) [.plan 9, .accept 9] = some s →
      exec (Core.planWait silentKernel timelineHandle 12) (coreOf s) =
        (.ok (.timeline 0 12), core') →
      run (step 0) s [.release] = some t → ¬ OutOfWindow 12 t.value → WaitHolds 0 12 t :=
    fun _ _ _ _ hinit hbefore hplan hlater =>
      (admitted_wait_iff rfl hinit hbefore rfl hplan hlater).1.mpr
  exact hwait _ _ _ _ rfl rfl rfl rfl (by decide)

/-- A signal of 100 is accepted and not released; a wait for more than half a word
range is admitted against the shadow and passes at once. -/
theorem admitted_wait_passes_early :
    ∃ initialized s core', (SlotPool.new .split32).initTimeline 0 0 = .ok initialized ∧
      run (step 0) (start initialized 0) [.plan 100, .accept 100] = some s ∧
      exec (Core.planWait silentKernel timelineHandle (2 ^ 31 + 50)) (coreOf s) =
        (.ok (.timeline 0 (2 ^ 31 + 50)), core') ∧
      s.value = 0 ∧ Acquired 0 (2 ^ 31 + 50) s ∧ ¬ WaitHolds 0 (2 ^ 31 + 50) s := by
  refine ⟨_, _, _, rfl, rfl, rfl, rfl, ?_, ?_⟩
  · show WordEpoch.circularGeq _ _ _ _
    decide
  · intro hholds
    exact absurd (hholds (by show WordEpoch.circularGeq _ _ _ _; decide)) (by decide)

end NvidiaProlapse.SplitTimeline
