import NvidiaProlapse.WaiterRuns

/-!
# The invariant of the waiting protocol over whole runs

The counters count, leadership and the lock have one owner, and every waiter
stands in its relation to the history of stores. A signaller changes this history
one operation at a time.
-/
namespace NvidiaProlapse.Waiters
open Runs Function

variable {Mem : Type}

structure Inv (s : System Mem) : Prop where
  registered : Counted (fun w => (s.waiters w).pc.inside) s.shared.registered
  followers : Counted (fun w => (s.waiters w).pc.following) s.shared.followers
  leading : ∀ w, (s.waiters w).pc.leading = true → s.shared.leader = true
  alone : ∀ w w', (s.waiters w).pc.leading = true → (s.waiters w').pc.leading = true → w = w'
  waiter_lock : ∀ w, (s.waiters w).pc.holding = true → s.shared.lock = some (.waiter w)
  signaller_lock : ∀ i, (s.signallers i).holding = true → s.shared.lock = some (.signaller i)
  current : s.past s.stores = s.memory
  pending_lt : ∀ i n, (s.signallers i).store = some n → n < s.stores
  returned_lt : ∀ n, s.returned n = true → n < s.stores
  waiter_ok : ∀ w, WaiterOk s.shared s.history w (s.waiters w)

lemma start_inv (memory : Mem) : Inv (System.start memory) where
  registered := .none fun _ => rfl
  followers := .none fun _ => rfl
  leading := by simp [System.start, WaiterPc.leading]
  alone := by simp [System.start, WaiterPc.leading]
  waiter_lock := by simp [System.start, WaiterPc.holding]
  signaller_lock := by simp [System.start, Signaller.holding]
  current := rfl
  pending_lt := by simp [System.start, Signaller.store]
  returned_lt := by simp [System.start]
  waiter_ok := fun _ => .of_outside (by simp [System.start]) rfl

variable {s : System Mem} {sh : Shared} {w i : ℕ} {done : Option ℕ} {me : Signaller}

lemma Inv.history_ok (h : Inv s) : s.history.Ok := by
  constructor
  · intro n hn
    rcases hn with hret | ⟨i, hi⟩
    · exact h.returned_lt n hret
    · exact h.pending_lt i n (Signaller.store_of_announced hi)
  · intro n hn
    exact hn.imp_right fun ⟨i, hi⟩ => ⟨i, Signaller.announced_of_woken hi⟩
  · exact fun n hn => .inl hn

lemma leading_of_committed {pc : WaiterPc} (h : pc.committed = true) : pc.leading = true := by
  cases pc <;> simp_all [WaiterPc.committed, WaiterPc.leading]

lemma following_of_settled {pc : WaiterPc} {sleeping : Bool}
    (h : pc.settled sleeping = true) : pc.following = true := by
  cases pc <;> simp_all [WaiterPc.settled, WaiterPc.following]

/-! ## Steps of waiters -/

lemma waiter_inv {me : Waiter Mem} (h : Inv s)
    (hmoves : WaiterMoves s.shared s.memory s.stores w (s.waiters w) sh me) :
    Inv { s with shared := sh, waiters := Function.update s.waiters w me } := by
  have hcounts := hmoves.counts (fun hin => h.registered.pos hin) (fun hin => h.followers.pos hin)
  obtain ⟨hheld, hothers⟩ := hmoves.lock_kept (h.waiter_lock w)
  obtain ⟨hlead, hclaim, hrest⟩ := hmoves.leadership (h.leading w)
  obtain ⟨hgen, hsleep⟩ := hmoves.monotone
  have hquiet : ∀ w', w' ≠ w → (s.waiters w').pc.leading = true →
      sh.wake = s.shared.wake ∧ sh.leader = true := by
    intro w' hne hleading
    have hnot : (s.waiters w).pc.leading = false := by
      cases hw : (s.waiters w).pc.leading with
      | false => rfl
      | true => exact absurd (h.alone w' w hleading hw) hne
    obtain ⟨hwake, hkeep⟩ := hrest hnot
    exact ⟨hwake, hkeep (h.leading w' hleading)⟩
  have hself : ∀ w', w' ≠ w → (s.waiters w').pc.leading = true → me.pc.leading = true → False := by
    intro w' hne hleading hnew
    rcases hclaim hnew with hold | hfree
    · exact hne (h.alone w' w hleading hold)
    · rw [h.leading w' hleading] at hfree
      cases hfree
  refine ⟨?_, ?_, ?_, ?_, ?_, ?_, h.current, h.pending_lt, h.returned_lt, ?_⟩
  · exact h.registered.update (i := w) (fun w' hne => by simp [hne]) (by simpa using hcounts.1)
  · exact h.followers.update (i := w) (fun w' hne => by simp [hne]) (by simpa using hcounts.2)
  · intro w' hleading
    by_cases hw : w' = w
    · subst hw
      exact hlead (by simpa using hleading)
    · simp only [update_of_ne hw] at hleading
      exact (hquiet w' hw hleading).2
  · intro a b ha hb
    by_cases haw : a = w
    · by_cases hbw : b = w
      · rw [haw, hbw]
      subst haw
      simp only [update_self] at ha
      simp only [update_of_ne hbw] at hb
      exact (hself b hbw hb ha).elim
    · simp only [update_of_ne haw] at ha
      by_cases hbw : b = w
      · subst hbw
        simp only [update_self] at hb
        exact (hself a haw ha hb).elim
      · simp only [update_of_ne hbw] at hb
        exact h.alone a b ha hb
  · intro w' hholding
    by_cases hw : w' = w
    · subst hw
      exact hheld (by simpa using hholding)
    · simp only [update_of_ne hw] at hholding
      exact hothers _ (by simpa using hw) (h.waiter_lock w' hholding)
  · intro i hholding
    exact hothers _ (by simp) (h.signaller_lock i hholding)
  · intro w'
    by_cases hw : w' = w
    · subst hw
      simp only [update_self]
      rw [← h.current] at hmoves
      exact hmoves.ok (h.waiter_ok w') h.history_ok
    · simp only [update_of_ne hw]
      refine (h.waiter_ok w').frame hgen le_rfl (fun _ _ => rfl) (hsleep w' hw)
        (fun _ _ => .inl) (fun _ _ => .inl) ?_ (fun _ _ => id)
      intro hcommitted hpos
      rw [(hquiet w' hw (leading_of_committed hcommitted)).1]
      exact hpos

/-- A new call of `wait` registers and knows nothing yet. -/
lemma wait_inv {predicate : Mem → Bool} (h : Inv s) (hidle : (s.waiters w).pc = .idle) :
    Inv { s with
      shared := { s.shared with registered := s.shared.registered + 1 }
      waiters := Function.update s.waiters w ⟨.loadGeneration, predicate, 0, 0⟩ } := by
  have hpc : ∀ (range : WaiterPc → Bool) w', range .loadGeneration = false →
      range (update s.waiters w (⟨.loadGeneration, predicate, 0, 0⟩ : Waiter Mem) w').pc =
        true → w' ≠ w ∧ range (s.waiters w').pc = true := by
    intro range w' hrange hin
    by_cases hw : w' = w
    · subst hw
      simp [hrange] at hin
    · simp only [update_of_ne hw] at hin
      exact ⟨hw, hin⟩
  refine ⟨?_, ?_, ?_, ?_, ?_, h.signaller_lock, h.current, h.pending_lt, h.returned_lt, ?_⟩
  · exact h.registered.update (i := w) (fun w' hne => by simp [hne])
      (by simp [hidle, WaiterPc.inside])
  · exact h.followers.update (i := w) (fun w' hne => by simp [hne])
      (by simp [hidle, WaiterPc.following])
  · intro w' hin
    exact h.leading w' (hpc WaiterPc.leading w' rfl hin).2
  · intro a b ha hb
    exact h.alone a b (hpc WaiterPc.leading a rfl ha).2 (hpc WaiterPc.leading b rfl hb).2
  · intro w' hin
    exact h.waiter_lock w' (hpc WaiterPc.holding w' rfl hin).2
  intro w'
  by_cases hw : w' = w
  · subst hw
    simp only [update_self]
    exact .of_outside (by simp) rfl
  · simp only [update_of_ne hw]
    exact (h.waiter_ok w').frame le_rfl le_rfl (fun _ _ => rfl) id (fun _ _ => .inl)
      (fun _ _ => .inl) (fun _ => id) (fun _ _ => id)

/-! ## Stores -/

/-- A store changes neither what is shared nor what was announced. -/
lemma write_inv {write : Mem → Mem} {signallers : ℕ → Signaller} (h : Inv s)
    (hsame : ∀ i, signallers i = s.signallers i ∨ (signallers i).holding = false ∧
      (signallers i).announced = none ∧ (signallers i).woken = none ∧
      (signallers i).store = some s.stores) :
    Inv { s.write write with signallers := signallers } := by
  have hpast : ∀ n, n ≤ s.stores → (s.write write).past n = s.past n := by
    intro n hn
    have hne : n ≠ s.stores + 1 := by omega
    simp [System.write, hne]
  refine ⟨h.registered, h.followers, h.leading, h.alone, h.waiter_lock, ?_, ?_, ?_, ?_, ?_⟩
  · intro i hholding
    rcases hsame i with heq | hnew
    · simp only [heq] at hholding
      exact h.signaller_lock i hholding
    · simp only [hnew.1] at hholding
      cases hholding
  · simp [System.write]
  · intro i n hn
    simp only [System.write]
    rcases hsame i with heq | hnew
    · simp only [heq] at hn
      have := h.pending_lt i n hn
      omega
    · simp only [hnew.2.2.2, Option.some.injEq] at hn
      omega
  · intro n hn
    have := h.returned_lt n hn
    simp only [System.write]
    omega
  · intro w
    refine (h.waiter_ok w).frame le_rfl (Nat.le_succ _) hpast id ?_ (fun _ _ => .inl)
      (fun _ => id) ?_
    · intro _ n hn
      left
      refine hn.imp_right ?_
      intro hex
      obtain ⟨i, hi⟩ := hex
      rcases hsame i with heq | hnew
      · exact ⟨i, by rw [← heq]; exact hi⟩
      · rw [hnew.2.1] at hi
        cases hi
    · intro _ n hn
      refine hn.imp_right ?_
      intro hex
      obtain ⟨i, hi⟩ := hex
      rcases hsame i with heq | hnew
      · exact ⟨i, by rw [← heq]; exact hi⟩
      · rw [hnew.2.2.1] at hi
        cases hi

/-! ## Steps of signallers -/

/-- The state after an operation of signaller `i`. -/
def System.signal (s : System Mem) (i : ℕ) (sh : Shared) (me : Signaller) (done : Option ℕ) :
    System Mem :=
  { s with
    shared := sh
    signallers := Function.update s.signallers i me
    returned := System.markReturned s.returned done }

lemma returned_signal {n : ℕ} (h : (s.signal i sh me done).returned n = true) :
    s.returned n = true ∨ done = some n := by
  cases done with
  | none => exact .inl h
  | some store =>
    by_cases hn : n = store
    · exact .inr (by rw [hn])
    · left
      simpa [System.signal, System.markReturned, hn] using h

/-- A signal reaches a stage for a store by the operation made now, or before. -/
lemma stage_signal {n : ℕ} {stage : Signaller → Option ℕ}
    (h : (s.signal i sh me done).returned n = true ∨
      ∃ j, stage ((s.signal i sh me done).signallers j) = some n) :
    (s.returned n = true ∨ ∃ j, stage (s.signallers j) = some n) ∨ stage me = some n ∨
      done = some n := by
  rcases h with hret | ⟨j, hj⟩
  · rcases returned_signal hret with hold | hnew
    · exact .inl (.inl hold)
    · exact .inr (.inr hnew)
  by_cases hji : j = i
  · subst hji
    right
    left
    simpa [System.signal] using hj
  · left
    right
    refine ⟨j, ?_⟩
    simpa [System.signal, hji] using hj

/-- What every operation of a signaller leaves alone, and what the waiters must know of it. -/
lemma Inv.signal (h : Inv s) (hregistered : sh.registered = s.shared.registered)
    (hfollowers : sh.followers = s.shared.followers) (hleader : sh.leader = s.shared.leader)
    (hlock : (me.holding = true → sh.lock = some (.signaller i)) ∧ ∀ other, other ≠ .signaller i →
      s.shared.lock = some other → sh.lock = some other)
    (hstore : ∀ n, me.store = some n ∨ done = some n → (s.signallers i).store = some n)
    (hgen : s.shared.generation ≤ sh.generation)
    (hsleep : ∀ w, sh.sleeping w = true → s.shared.sleeping w = true)
    (hwake : 0 < s.shared.wake → 0 < sh.wake)
    (hannounced : ∀ w, (s.waiters w).pc.evaluated = true → ∀ n, me.announced = some n ∨
      done = some n → s.history.announced n ∨ s.shared.generation < sh.generation)
    (hreturned : ∀ w, (s.waiters w).pc.committed = true → ∀ n, done = some n → 0 < sh.wake)
    (hwoken : ∀ w, (s.waiters w).pc.settled (sh.sleeping w) = true → ∀ n, me.woken = some n ∨
      done = some n → s.history.woken n) : Inv (s.signal i sh me done) := by
  refine ⟨?_, ?_, ?_, h.alone, ?_, ?_, h.current, ?_, ?_, ?_⟩
  · simp only [System.signal, hregistered]
    exact h.registered
  · simp only [System.signal, hfollowers]
    exact h.followers
  · simp only [System.signal, hleader]
    exact h.leading
  · intro w hholding
    exact hlock.2 _ (by simp) (h.waiter_lock w hholding)
  · intro j hholding
    by_cases hji : j = i
    · subst hji
      exact hlock.1 (by simpa [System.signal] using hholding)
    · refine hlock.2 _ (by simpa using hji) (h.signaller_lock j ?_)
      simpa [System.signal, hji] using hholding
  · intro j n hn
    by_cases hji : j = i
    · subst hji
      exact h.pending_lt j n (hstore n (.inl (by simpa [System.signal] using hn)))
    · exact h.pending_lt j n (by simpa [System.signal, hji] using hn)
  · intro n hn
    rcases returned_signal hn with hold | hnew
    · exact h.returned_lt n hold
    · exact h.pending_lt i n (hstore n (.inr hnew))
  · intro w
    refine (h.waiter_ok w).frame hgen le_rfl (fun _ _ => rfl) (hsleep w) ?_ ?_ (fun _ => hwake) ?_
    · intro hpc n hn
      rcases stage_signal hn with hold | hnew
      · exact .inl hold
      · exact hannounced w hpc n hnew
    · intro hpc n hn
      exact (returned_signal hn).imp_right (hreturned w hpc n)
    · intro hpc n hn
      rcases stage_signal hn with hold | hnew
      · exact hold
      · exact hwoken w hpc n hnew

/-- Nobody is registered when the check finds no registration. -/
lemma Inv.idle_of_registered (h : Inv s) (hzero : s.shared.registered = 0) (w : ℕ) :
    (s.waiters w).pc = .idle := by
  by_contra hne
  have hin : (s.waiters w).pc.inside = true := by
    cases hpc : (s.waiters w).pc <;> simp_all [WaiterPc.inside]
  have := h.registered.pos hin
  omega

lemma Inv.not_settled_of_followers (h : Inv s) (hzero : s.shared.followers = 0) {sleeping : Bool} :
    (s.waiters w).pc.settled sleeping = false := by
  cases hs : (s.waiters w).pc.settled sleeping with
  | false => rfl
  | true =>
    have := h.followers.pos (following_of_settled hs)
    omega

/-- No follower is between its check and its sleep while a signaller notifies. -/
lemma Inv.not_settled_of_notify (h : Inv s) (hholding : (s.signallers i).holding = true) :
    (s.waiters w).pc.settled false = false := by
  cases hs : (s.waiters w).pc.settled false with
  | false => rfl
  | true =>
    have hheld : (s.waiters w).pc.holding = true := by
      cases hpc : (s.waiters w).pc <;> simp_all [WaiterPc.settled, WaiterPc.holding]
    have hlock := h.waiter_lock w hheld
    rw [h.signaller_lock i hholding] at hlock
    cases hlock

/-- The operations of `bump` for a store. -/
lemma bump_inv {stage : Bump} {store : ℕ} {broadcast : Bool} {next : Option Bump} (h : Inv s)
    (hpc : s.signallers i = .bump stage store broadcast)
    (hbump : bumpStep s.shared (.signaller i) stage = some (sh, next)) :
    Inv (s.signal i sh (next.elim (if broadcast then .wake store else .checkLeader store)
      fun stage' => .bump stage' store broadcast) none) := by
  have heffect := bumpStep_effect hbump
  have hheld := h.signaller_lock i
  rw [hpc] at hheld
  have hlock := heffect.lock hheld
  have hannounced : stage ≠ .increment → s.history.announced store := by
    intro hne
    right
    refine ⟨i, ?_⟩
    cases stage <;> simp_all [Signaller.announced]
  refine h.signal heffect.registered heffect.followers heffect.leader ?_ ?_ heffect.generation_le
    heffect.sleeping (by rw [heffect.wake]; exact id) ?_ (by simp) ?_
  · refine ⟨?_, hlock.2⟩
    intro hnew
    apply hlock.1
    cases next with
    | none => cases broadcast <;> simp [Signaller.holding] at hnew
    | some stage' => simpa [Signaller.holding] using hnew
  · intro n hn
    rw [hpc]
    cases next with
    | none => cases broadcast <;> simpa [Signaller.store] using hn
    | some stage' => simpa [Signaller.store] using hn
  · intro _ _ n hn
    have hnstore : n = store := by
      cases next with
      | none => cases broadcast <;> simpa [Signaller.announced, eq_comm] using hn
      | some stage' => cases stage' <;> simp_all [Signaller.announced]
    by_cases hinc : stage = .increment
    · right
      subst hinc
      cases hbump
      exact Nat.lt_succ_self _
    · left
      rw [hnstore]
      exact hannounced hinc
  · intro w hsettled n hn
    cases stage with
    | increment =>
      cases hbump
      simp [Signaller.woken] at hn
    | checkFollowers =>
      cases hbump
      by_cases hzero : s.shared.followers = 0
      · rw [h.not_settled_of_followers hzero] at hsettled
        cases hsettled
      · simp [hzero, Signaller.woken] at hn
    | lock =>
      simp only [bumpStep] at hbump
      split_ifs at hbump
      cases hbump
      simp [Signaller.woken] at hn
    | notifyAll =>
      cases hbump
      rw [h.not_settled_of_notify (i := i) (by rw [hpc]; rfl)] at hsettled
      cases hsettled
    | unlock =>
      right
      refine ⟨i, ?_⟩
      rw [hpc]
      cases hbump
      cases broadcast <;> simpa [Signaller.woken] using hn

lemma signaller_inv (h : Inv s)
    (hstep : signallerStep s.shared i (s.signallers i) = some (sh, me, done)) :
    Inv (s.signal i sh me done) := by
  cases hpc : s.signallers i with
  | idle => simp [hpc, signallerStep] at hstep
  | checkRegistered store =>
    simp only [hpc, signallerStep] at hstep
    split_ifs at hstep with hzero
    · cases hstep
      have hidle := h.idle_of_registered hzero
      refine h.signal rfl rfl rfl ⟨by simp [Signaller.holding], fun _ _ => id⟩ ?_ le_rfl (fun _ => id) id
        ?_ ?_ ?_
      · simp [hpc, Signaller.store]
      · simp [hidle, WaiterPc.evaluated]
      · simp [hidle, WaiterPc.committed]
      · simp [hidle, WaiterPc.settled]
    · cases hstep
      refine h.signal rfl rfl rfl ⟨by simp [Signaller.holding, Bump.holding], fun _ _ => id⟩ ?_ le_rfl
        (fun _ => id) id (by simp [Signaller.announced]) (by simp) (by simp [Signaller.woken])
      simp [hpc, Signaller.store]
  | bump stage store broadcast =>
    simp only [hpc, signallerStep] at hstep
    cases hbump : bumpStep s.shared (.signaller i) stage with
    | none => simp [hbump] at hstep
    | some out =>
      obtain ⟨sh', next⟩ := out
      have hinv := bump_inv h hpc hbump
      cases next with
      | none | some stage' =>
        simp only [hbump] at hstep
        cases hstep
        exact hinv
  | checkLeader store =>
    have hannounced : s.history.announced store := .inr ⟨i, by rw [hpc]; rfl⟩
    have hwoken : s.history.woken store := .inr ⟨i, by rw [hpc]; rfl⟩
    simp only [hpc, signallerStep] at hstep
    split_ifs at hstep with hleader
    · cases hstep
      refine h.signal rfl rfl rfl ⟨by simp [Signaller.holding], fun _ _ => id⟩ ?_ le_rfl (fun _ => id) id
        ?_ (by simp) ?_
      · simp [hpc, Signaller.store]
      · simp [Signaller.announced, hannounced]
      · simp [Signaller.woken, hwoken]
    · cases hstep
      refine h.signal rfl rfl rfl ⟨by simp [Signaller.holding], fun _ _ => id⟩ ?_ le_rfl (fun _ => id) id
        ?_ ?_ ?_
      · simp [hpc, Signaller.store]
      · simp [Signaller.announced, hannounced]
      · intro w hcommitted
        exact absurd (h.leading w (leading_of_committed hcommitted)) hleader
      · simp [Signaller.woken, hwoken]
  | wake store =>
    have hannounced : s.history.announced store := .inr ⟨i, by rw [hpc]; rfl⟩
    have hwoken : s.history.woken store := .inr ⟨i, by rw [hpc]; rfl⟩
    have hpos : 0 < writeWake s.shared.wake := by
      unfold writeWake
      split_ifs with hfull
      · omega
      · omega
    simp only [hpc, signallerStep] at hstep
    cases hstep
    refine h.signal rfl rfl rfl ⟨by simp [Signaller.holding], fun _ _ => id⟩ ?_ le_rfl (fun _ => id)
      (fun _ => hpos) ?_ (fun _ _ _ _ => hpos) ?_
    · simp [hpc, Signaller.store]
    · simp [Signaller.announced, hannounced]
    · simp [Signaller.woken, hwoken]

/-! ## Whole runs -/

lemma step_inv {s' : System Mem} {action : Action Mem} (h : Inv s) (hstep : step s action = some s') :
    Inv s' := by
  cases action with
  | wait w predicate =>
    simp only [step] at hstep
    split_ifs at hstep with hidle
    cases hstep
    exact wait_inv h hidle
  | waiter w choice =>
    simp only [step] at hstep
    split at hstep
    · cases hstep
    next out hw =>
      cases hstep
      exact waiter_inv h (waiterStep_moves hw)
  | store i write broadcast =>
    by_cases hidle : s.signallers i = .idle
    swap
    · simp [step, hidle] at hstep
    simp only [step, if_pos hidle] at hstep
    cases hstep
    apply write_inv h
    intro j
    by_cases hji : j = i
    · subst hji
      right
      cases broadcast <;>
        simp [Signaller.holding, Signaller.announced, Signaller.woken, Signaller.store,
          Bump.holding]
    · left
      simp [hji]
  | signaller i =>
    simp only [step] at hstep
    split at hstep
    · cases hstep
    next out hi =>
      cases hstep
      exact signaller_inv h hi
  | gpuStore write =>
    cases hstep
    exact write_inv h fun _ => .inl rfl

/-- A waiter that parks has evaluated its predicate, and every later store whose
signal got far enough has reached it. -/
lemma Inv.parked (h : Inv s) (hparked : s.Parked w) : (s.waiters w).pc.evaluated = true ∧
      ∀ n, (s.waiters w).seen ≤ n → s.returned n = false := by
  rcases hparked with ⟨hpc, hwake⟩ | ⟨hpc, hsleep⟩
  · refine ⟨by rw [hpc]; rfl, ?_⟩
    intro n hn
    by_contra hret
    have hpos := (h.waiter_ok w).committed (by rw [hpc]; rfl) n hn
      (Bool.eq_true_of_not_eq_false hret)
    omega
  · refine ⟨by rw [hpc]; rfl, ?_⟩
    intro n hn
    by_contra hret
    have hsettled : (s.waiters w).pc.settled (s.shared.sleeping w) = true := by
      rw [hpc, hsleep]
      rfl
    exact (h.waiter_ok w).settled hsettled n hn (.inl (Bool.eq_true_of_not_eq_false hret))

/-- No thread is parked whose predicate became true by a store whose signal has
returned. -/
theorem no_lost_wakeup {memory : Mem} {actions : List (Action Mem)} {s : System Mem}
    (hrun : run step (System.start memory) actions = some s) (w store : ℕ)
    (hparked : s.Parked w) (htrue : s.BecameTrue w store) : s.returned store = false := by
  have hinv : Inv s := run_invariant (fun _ _ _ => step_inv) (start_inv memory) hrun
  obtain ⟨hevaluated, hreached⟩ := hinv.parked hparked
  obtain ⟨hseen, hfalse⟩ := (hinv.waiter_ok w).seen_false hevaluated
  obtain ⟨-, -, hsince⟩ := htrue
  by_cases hle : (s.waiters w).seen ≤ store
  · exact hreached store hle
  have hlater := hsince (s.waiters w).seen (by omega) hseen
  rw [show s.history.past = s.past from rfl] at hfalse
  rw [hlater] at hfalse
  cases hfalse

/-- Waiter 0 polls, waiter 1 sleeps, and the signaller is about to write the
descriptor for the store that made both predicates true. -/
def wakePending : List (Action Bool) :=
  [.wait 0 id, .wait 1 id] ++
    List.replicate 6 (.waiter 0 false) ++ List.replicate 9 (.waiter 1 false) ++
    [.store 0 (fun _ => true) false] ++ List.replicate 3 (.signaller 0)

theorem no_lost_wakeup_pending :
    ∃ s, run step (System.start false) wakePending = some s ∧ s.Parked 0 ∧ s.Parked 1 ∧
      s.BecameTrue 0 0 ∧ s.returned 0 = false := by
  have hbecame : ∀ s : System Bool, s.stores = 1 → (s.waiters 0).predicate = id →
      s.past 0 = false → s.past 1 = true → s.BecameTrue 0 0 := by
    intro s hstores hid h0 h1
    refine ⟨by omega, by rw [hid, h0]; rfl, ?_⟩
    intro n hpos hle
    have hn : n = 1 := by omega
    rw [hid, hn, h1]
    rfl
  refine ⟨_, rfl, .inl ⟨rfl, rfl⟩, .inr ⟨rfl, rfl⟩, hbecame _ rfl rfl rfl rfl, ?_⟩
  exact @no_lost_wakeup Bool false wakePending _ rfl 0 0 (.inl ⟨rfl, rfl⟩)
    (hbecame _ rfl rfl rfl rfl)

/-- The thread is inside of the lock. -/
def System.holds (s : System Mem) : Thread → Bool
  | .waiter w => (s.waiters w).pc.holding
  | .signaller i => (s.signallers i).holding

/-- Leadership and the lock have one owner at a time, and the
counters count the threads that wait and that follow. -/
theorem leader_and_lock_exclusive {memory : Mem} {actions : List (Action Mem)}
    (hrun : run step (System.start memory) actions = some s) :
    (∀ w w', (s.waiters w).pc.leading = true → (s.waiters w').pc.leading = true → w = w') ∧
    (∀ w, (s.waiters w).pc.leading = true → s.shared.leader = true) ∧
    (∀ t t', s.holds t = true → s.holds t' = true → t = t') ∧
    Counted (fun w => (s.waiters w).pc.inside) s.shared.registered ∧
    Counted (fun w => (s.waiters w).pc.following) s.shared.followers := by
  have h : Inv s := run_invariant (fun _ _ _ => step_inv) (start_inv memory) hrun
  have howner : ∀ t, s.holds t = true → s.shared.lock = some t := by
    intro t ht
    cases t with
    | waiter w => exact h.waiter_lock w ht
    | signaller i => exact h.signaller_lock i ht
  refine ⟨h.alone, h.leading, fun t t' ht ht' => ?_, h.registered, h.followers⟩
  simpa using (howner t ht).symm.trans (howner t' ht')

theorem leader_and_lock_exclusive_pending :
    ∃ s, run step (System.start false) wakePending = some s ∧ (s.waiters 0).pc.leading = true ∧
      ∀ w, (s.waiters w).pc.leading = true → w = 0 := by
  refine ⟨_, rfl, rfl, fun w hw => ?_⟩
  exact (@leader_and_lock_exclusive Bool _ false wakePending rfl).1 w 0 hw rfl

end NvidiaProlapse.Waiters
