import NvidiaProlapse.HandleAccounts

/-!
# What resets and signals do to a handle

`Rewrites` lists what the two methods may leave behind; a method that fails leaves the
state as it was. What the calls that wrap them keep is proved over these cases.
-/
namespace NvidiaProlapse.Core
open Programs

variable {kernel : Kernel} {t u : Core} {id value : ℕ} {sync : SyncObj} {fresh : Option Slot}
  {signalled : Option ℕ}

/-- The handle keeps its payload and forgets at most its generation. -/
structure Remarks (sync sync' : SyncObj) : Prop where
  timeline : sync'.timeline = sync.timeline
  payload : sync'.state.payload = sync.state.payload
  snapshot : ∀ g ∈ sync'.state.snapshot, g ∈ sync.state.snapshot

/-- The generation was submitted and completed. -/
def completing (t : Core) (shared target : ℕ) : Core :=
  let raised := t.setWord shared .pending (max (t.load shared .pending) target)
  raised.setWord shared .completed (max (raised.load shared .completed) target)

/-- A reset or, with a value, a signal of the handle. -/
inductive Rewrites (t : Core) (id : ℕ) (sync : SyncObj) (fresh : Option Slot) :
    Option ℕ → Core → Prop
  | inPlace {signalled : Option ℕ} {own word : ℕ} {pool : SlotPool} {sync' : SyncObj}
      (hpayload : sync.state.payload = .native own) (hrefs : t.pool.refs own = 1)
      (hpool : t.pool.store32 own word = .ok pool) (hsame : Remarks sync sync') :
      Rewrites t id sync fresh signalled ({ t with pool := pool }.setSync id sync')
  | counted {value : ℕ} {pool : SlotPool} {sync' : SyncObj} (htimeline : sync.timeline = true)
      (hsame : Remarks sync sync') :
      Rewrites t id sync fresh (some value) ({ t with pool := pool }.setSync id sync')
  | bound {signalled : Option ℕ} {slot : Slot} {pool : SlotPool}
      (hlocal : ∀ shared, sync.state.payload ≠ .shared shared) (hfresh : fresh = some slot)
      (hpool : pool = t.pool ∨ t.pool.store32 slot 1 = .ok pool) :
      Rewrites t id sync fresh signalled ({ t with pool := pool }.replace id sync (.native slot))
  | advanced {shared next : ℕ} (hbinary : sync.timeline = false)
      (hpayload : sync.state.payload = .shared shared)
      (hnext : checkedSucc (t.load shared .target) = some next) :
      Rewrites t id sync fresh none ((t.setWord shared .target next).setSync id
        { sync with state := { sync.state with snapshot := none } })
  | completed {shared value : ℕ} (hpayload : sync.state.payload = .shared shared) :
      Rewrites t id sync fresh (some value) (t.completing shared (t.sharedTarget sync shared value))

def Rewritten (t : Core) (id : ℕ) (fresh : Option Slot) (signalled : Option ℕ) (u : Core) : Prop :=
  ∃ sync, t.syncRef id = .ok sync ∧ Rewrites t id sync fresh signalled u

lemma rebindFresh_rewrites {missing : String} (hsync : t.syncRef id = .ok sync)
    (hlocal : ∀ shared, sync.state.payload ≠ .shared shared) :
    Spec (t = ·) (rebindFresh id sync fresh missing) (fun _ => Rewritten t id fresh signalled)
      fun _ => (t = ·) := by
  cases fresh with
  | none => exact .refused rfl
  | some slot =>
    refine .last ?_
    exact ⟨sync, hsync, .bound hlocal rfl (.inl rfl)⟩

lemma reset_rewrites (t : Core) (id : ℕ) (fresh : Option Slot) :
    Spec (t = ·) (reset id fresh) (fun _ => Rewritten t id fresh none) fun _ => (t = ·) := by
  apply Spec.look
  refine .given rfl ?_
  intro sync hsync
  refine .guarded rfl fun hbinary => ?_
  cases hpayload : sync.state.payload with
  | native own =>
    refine .branch (fun hrefs => ?_) fun _ =>
      rebindFresh_rewrites hsync (by simp [hpayload])
    refine .given rfl ?_
    intro pool hpool
    refine .last ?_
    exact ⟨sync, hsync, .inPlace hpayload hrefs hpool ⟨rfl, rfl, fun _ h => h⟩⟩
  | foreign foreign => exact rebindFresh_rewrites hsync (by simp [hpayload])
  | shared shared =>
    dsimp only
    cases hnext : checkedSucc (t.load shared .target) with
    | none => exact .refused rfl
    | some target =>
      apply Spec.known (exec_store t shared .target target)
      refine .last ?_
      exact ⟨sync, hsync, .advanced (by simpa using hbinary) hpayload hnext⟩

/-- The replacement is written before it is bound. -/
lemma signalFresh_rewrites (hsync : t.syncRef id = .ok sync)
    (hlocal : ∀ shared, sync.state.payload ≠ .shared shared) :
    Spec (t = ·) (signal.signalFresh id sync fresh) (fun _ => Rewritten t id fresh signalled)
      fun _ => (t = ·) := by
  cases fresh with
  | none => exact .refused rfl
  | some slot =>
    refine .guarded rfl fun _ => ?_
    apply Spec.look
    refine .given rfl ?_
    intro pool hpool
    apply Spec.known (exec_modify _ t)
    refine .last ?_
    exact ⟨sync, hsync, .bound hlocal rfl (.inr hpool)⟩

/-- Setting the handle that is there changes nothing. -/
lemma setSync_self (h : t.syncRef id = .ok sync) : t.setSync id sync = t := by
  obtain ⟨hlt, hget⟩ := List.getElem?_eq_some_iff.mp (syncRef_eq_ok.mp h).2
  rw [setSync, ← hget, List.set_getElem_self]

lemma signal_rewrites (t : Core) (id value : ℕ) (fresh : Option Slot) :
    Spec (t = ·) (signal id value fresh) (fun _ => Rewritten t id fresh (some value))
      fun _ => (t = ·) := by
  apply Spec.look
  refine .given rfl ?_
  intro sync hsync
  cases hpayload : sync.state.payload with
  | native own =>
    refine .branch (fun htimeline => ?_) fun _ => .branch (fun hrefs => ?_) fun _ =>
      signalFresh_rewrites hsync (by simp [hpayload])
    · refine .given rfl ?_
      rintro ⟨changed, pool⟩ _
      refine .last ?_
      exact ⟨sync, hsync, .counted htimeline ⟨rfl, rfl, fun _ h => h⟩⟩
    · refine .given rfl ?_
      intro pool hpool
      refine .last ?_
      have hself : ({ t with pool := pool } : Core).setSync id sync = { t with pool := pool } :=
        setSync_self hsync
      exact ⟨sync, hsync, hself ▸ .inPlace hpayload hrefs hpool ⟨rfl, rfl, fun _ h => h⟩⟩
  | foreign foreign => exact signalFresh_rewrites hsync (by simp [hpayload])
  | shared shared =>
    apply Spec.known (exec_maximum t shared .pending _)
    apply Spec.known (exec_maximum _ shared .completed _)
    apply Spec.unchanged
    exact ⟨sync, hsync, .completed hpayload⟩

/-! ## The calls -/

/-- What holds `before` the handle is rewritten, while slots are allocated, with the slot in hand
for it, and `after`. -/
structure Upkeep (kernel : Kernel) (id : ℕ) (signalled : Option ℕ) (before : Core → Prop)
    (ready : Option Slot → Core → Prop) (after : Core → Prop) : Prop where
  slot : Spec before (Core.slot kernel) (fun fresh => ready (some fresh)) fun _ => before
  empty : ∀ t, before t → ready none t
  back : ∀ fresh t, ready fresh t → before t
  step : ∀ fresh t u, ready fresh t → Rewritten t id fresh signalled u → after u
  release : ∀ t slots, after t → after (t.releaseAll slots)

variable {before after bad : Core → Prop} {ready : Option Slot → Core → Prop}

section

variable (hbad : ∀ t, before t → bad t)

include hbad

/-- The two calls differ in the method and in when they allocate a slot for it. -/
lemma Upkeep.call {method : Option Slot → Prog Core Error (Option Slot × Bool)}
    (h : Upkeep kernel id signalled before ready after)
    (hmethod : ∀ t fresh,
      Spec (t = ·) (method fresh) (fun _ => Rewritten t id fresh signalled) fun _ => (t = ·))
    (needed : Core → SyncObj → Bool) :
    Spec before (do
      live
      let core ← get
      let sync ← outcome (core.syncRef id)
      let fresh ← slotIf kernel (needed core sync)
      withReplacement kernel method fresh) (fun _ => after) fun _ => bad := by
  have hrun : ∀ fresh, Spec (ready fresh) (method fresh) (fun _ => after) fun _ => before := by
    intro fresh
    apply Spec.of_states
    intro t ht
    exact (hmethod t fresh).post (fun _ u hu => h.step fresh t u ht hu) fun _ _ hu =>
      hu ▸ h.back fresh t ht
  have hslot := h.slot.fallback fun _ t ht => hbad t ht
  have hfirst : ∀ needed, Spec before (slotIf kernel needed) ready fun _ => bad := by
    intro needed
    cases needed with
    | false => exact .of_pure h.empty
    | true => exact .seq hslot fun _ => .of_pure fun _ ht => ht
  refine .keeping (live_keeps _) (fun _ t ht => hbad t ht) fun _ => ?_
  apply Spec.read
  intro t ht
  refine .given (hbad t ht) ?_
  intro sync _
  refine .seq ((hfirst _).enter ht) ?_
  intro fresh
  refine .observe (hrun fresh) ?_ ?_
  · rintro ⟨unused, changed⟩
    exact .of_modify fun t ht => h.release t _ ht
  intro e
  refine .either ?_ (.of_throw hbad)
  refine .seq hslot ?_
  intro fresh
  refine .seq ((hrun (some fresh)).fallback fun _ t ht => hbad t ht) ?_
  rintro ⟨unused, changed⟩
  exact .of_modify fun t ht => h.release t _ ht

lemma Upkeep.syncReset (h : Upkeep kernel id none before ready after) :
    Spec before (syncReset kernel id) (fun _ => after) fun _ => bad :=
  h.call hbad (reset_rewrites · id) needsFreshSlot

lemma Upkeep.syncSignal (h : Upkeep kernel id (some value) before ready after) :
    Spec before (syncSignal kernel id value) (fun _ => after) fun _ => bad :=
  h.call hbad (signal_rewrites · id value) fun core sync => !sync.timeline && core.needsFreshSlot sync

end

end NvidiaProlapse.Core
