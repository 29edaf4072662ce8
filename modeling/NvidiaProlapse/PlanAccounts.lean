import NvidiaProlapse.Bridge
import NvidiaProlapse.QueueAccounts

/-!
# What planning a batch does to slot references

`Planned s hand extra plan` is the invariant of the first phase of a submission that
started at `s`: every slot it took from the pool is recorded as allocated, named by
exactly one action and given back if the batch is not accepted, apart from those in
`hand` that are not recorded yet.
-/
namespace NvidiaProlapse
open Programs List Multiset

namespace BatchAction

/-- The slot an action binds or registers. -/
def slots : BatchAction → Multiset Slot
  | .consume _ _ fresh => {fresh}
  | .signal _ _ _ => 0
  | .rebind _ fresh => {fresh}
  | .foreignGate _ gate => {gate}
  | .sharedGate _ _ gate => {gate}
  | .sharedPoint _ _ point => {point}

/-- The action names a handle or a shared payload of `s`; a wait consumes the slot of
its binary handle, and a signal goes to that slot or to one of the batch. -/
def Valid (s : Core) (allocated : List Slot) : BatchAction → Prop
  | .consume id planned _ =>
    ∃ sync, s.syncRef id = .ok sync ∧ sync.state.payload = .native planned ∧ sync.timeline = false
  | .signal id _ slot =>
    ∃ sync, s.syncRef id = .ok sync ∧ (sync.state.payload = .native slot ∨ slot ∈ allocated)
  | .rebind id _ => ∃ sync, s.syncRef id = .ok sync
  | .foreignGate _ _ => True
  | .sharedGate _ _ _ => True
  | .sharedPoint shared _ _ => shared < s.shareds.length

/-- Handles and shared payloads that the action changes exist. -/
def Names (s : Core) : BatchAction → Prop
  | .consume id _ _ => ∃ sync, s.syncRef id = .ok sync
  | .rebind id _ => ∃ sync, s.syncRef id = .ok sync
  | .sharedPoint shared _ _ => shared < s.shareds.length
  | _ => True

variable {action : BatchAction} {allocated : List Slot} {s : Core}

lemma Valid.names (h : action.Valid s allocated) : action.Names s := by
  cases action with
  | consume id planned fresh =>
    obtain ⟨sync, hsync, -⟩ := h
    exact ⟨sync, hsync⟩
  | rebind | sharedPoint => exact h
  | signal | foreignGate | sharedGate => trivial

lemma Valid.mono {allocated' : List Slot} (h : action.Valid s allocated)
    (hsub : allocated ⊆ allocated') : action.Valid s allocated' := by
  cases action with
  | signal id value slot =>
    obtain ⟨sync, hsync, hslot⟩ := h
    exact ⟨sync, hsync, hslot.imp_right fun hmem => hsub hmem⟩
  | consume | rebind | foreignGate | sharedGate | sharedPoint => exact h

end BatchAction

/-- The slots of a list of actions. -/
def actionSlots (actions : List BatchAction) : Multiset Slot := (actions.map BatchAction.slots).sum

@[simp] lemma actionSlots_nil : actionSlots [] = 0 := rfl

@[simp] lemma actionSlots_append (actions more : List BatchAction) :
    actionSlots (actions ++ more) = actionSlots actions + actionSlots more := by
  simp [actionSlots]

@[simp] lemma actionSlots_cons (action : BatchAction) (actions : List BatchAction) :
    actionSlots (action :: actions) = action.slots + actionSlots actions := by
  simp [actionSlots]

namespace Planning

structure Planned (s : Core) (hand : List Slot) (extra : Multiset Slot) (plan : Planning) : Prop where
  core : Core.From s (hand + ((plan.scratch.allocated : Multiset Slot) + extra)) plan.core
  actions : actionSlots plan.scratch.actions = (plan.scratch.allocated : Multiset Slot)
  held : ∀ slot ∈ plan.scratch.held, slot ∈ s.payloadSlots ∨ slot ∈ plan.scratch.allocated
  valid : ∀ action ∈ plan.scratch.actions, action.Valid s plan.scratch.allocated
  fresh : ∀ slot ∈ plan.scratch.allocated ++ hand, s.taken slot < plan.core.taken slot

/-- A batch that is given up: its allocated slots go back; what is in hand besides
is lost, for the reason `why`. -/
def Unwinds (s : Core) (extra : Multiset Slot) (why : Prop) (plan : Planning) : Prop :=
  ∃ lost, Core.From s (lost + ((plan.scratch.allocated : Multiset Slot) + extra)) plan.core ∧
    (lost ≠ 0 → why)

variable {kernel : Kernel} {s : Core} {hand : List Slot} {extra : Multiset Slot} {plan : Planning}
  {why : Prop}

/-- A part of the plan: its slots are recorded, or the batch is given up. -/
def Plans (s : Core) (extra : Multiset Slot) (why : Prop) (p : Prog Planning Error Unit) : Prop :=
  Spec (Planned s [] extra) p (fun _ => Planned s [] extra) fun _ => Unwinds s extra why

lemma Planned.start (h : s.Accounted extra) : Planned s [] extra ⟨s, .empty⟩ where
  core := (Core.From.start h).regroup (by simp [Scratch.empty])
  actions := by simp [Scratch.empty]
  held := by simp [Scratch.empty]
  valid := by simp [Scratch.empty]
  fresh := by simp [Scratch.empty]

lemma Planned.unwinds (h : Planned s [] extra plan) : Unwinds s extra why plan :=
  ⟨0, h.core, fun hne => absurd rfl hne⟩

/-- The state of the core moves on. -/
lemma Planned.advance {core : Core} (h : Planned s hand extra plan) (new : List Slot)
    (hcore : Core.From plan.core ((hand ++ new : List Slot) +
      ((plan.scratch.allocated : Multiset Slot) + extra)) core)
    (hnew : ∀ slot ∈ new, plan.core.taken slot < core.taken slot) :
    Planned s (hand ++ new) extra { plan with core := core } where
  core := ⟨hcore.accounted, h.core.kept.trans hcore.kept⟩
  actions := h.actions
  held := h.held
  valid := h.valid
  fresh := by
    intro slot hslot
    rw [← append_assoc] at hslot
    rcases mem_append.mp hslot with hold | hin
    · exact (h.fresh slot hold).trans_le (hcore.kept.taken slot)
    · exact (h.core.kept.taken slot).trans_lt (hnew slot hin)

lemma onCore_planned {α : Type} {p : Prog Core Error α} {good : α → Prop}
    (hp : ∀ s extra, Spec (Core.From s extra) p (fun a t => Core.From s extra t ∧ good a)
      fun _ => Core.From s extra) :
    Spec (Planned s [] extra) (onCore p) (fun a plan => Planned s [] extra plan ∧ good a)
      fun _ => Planned s [] extra := by
  apply Spec.of_focus
  intro plan hplan
  refine ((hp _ _).enter (.start hplan.core.accounted)).post ?_ ?_
  · rintro a t ⟨ht, ha⟩
    exact ⟨hplan.advance [] ht (forall_mem_nil _), ha⟩
  · intro _ t ht
    exact hplan.advance [] ht (forall_mem_nil _)

lemma slot_planned :
    Spec (Planned s hand extra) (onCore (Core.slot kernel))
      (fun slot => Planned s (hand ++ [slot]) extra) fun _ => Planned s hand extra := by
  apply Spec.of_focus
  intro plan hplan
  refine ((Core.slot_from).enter (.start hplan.core.accounted)).post ?_ ?_
  · rintro slot t ⟨ht, hnew⟩
    refine hplan.advance [slot] (ht.regroup ?_) (forall_mem_singleton.mpr hnew)
    rw [← coe_add, coe_singleton]
    abel
  · intro _ t ht
    have hmoved := hplan.advance [] (ht.regroup (by simp)) (forall_mem_nil _)
    rwa [append_nil] at hmoved

/-- A change of the scratch record: `new` slots, the `batch` part of them that the
queue will hold, and actions. -/
structure Records (change : SlotPool → Scratch → Scratch) (new batch : List Slot)
    (actions : List BatchAction) : Prop where
  allocated : ∀ pool scratch, (change pool scratch).allocated = scratch.allocated ++ new
  held : ∀ pool scratch, (change pool scratch).held = scratch.held ++ batch
  actions : ∀ pool scratch, (change pool scratch).actions = scratch.actions ++ actions

variable {change : SlotPool → Scratch → Scratch} {id value : ℕ} {signal : SignalPlan}
  {sync : SyncObj}

/-- What is in hand is recorded together with the actions that bind it. -/
lemma note_planned {err : Error → Planning → Prop} (h : Planned s hand extra plan)
    (batch : List Slot) (actions : List BatchAction) (hchange : Records change hand batch actions)
    (hslots : actionSlots actions = (hand : Multiset Slot))
    (hbatch : ∀ slot ∈ batch, slot ∈ s.payloadSlots ∨ slot ∈ plan.scratch.allocated ++ hand)
    (hvalid : ∀ action ∈ actions, action.Valid s (plan.scratch.allocated ++ hand)) :
    Spec (plan = ·) (note change) (fun _ => Planned s [] extra) err := by
  apply Spec.change
  constructor
  · refine h.core.regroup ?_
    rw [hchange.allocated, ← coe_add, coe_nil]
    abel
  · rw [hchange.actions, hchange.allocated, actionSlots_append, h.actions, hslots, coe_add]
  · rw [hchange.held, hchange.allocated]
    refine forall_mem_append.mpr ⟨fun slot hold => ?_, hbatch⟩
    exact (h.held slot hold).imp_right fun hmem => mem_append_left hand hmem
  · rw [hchange.actions, hchange.allocated]
    refine forall_mem_append.mpr ⟨fun action hold => ?_, hvalid⟩
    exact (h.valid action hold).mono (subset_append_left _ _)
  · intro slot hslot
    rw [hchange.allocated, append_nil] at hslot
    exact h.fresh slot hslot

/-- The slot that is allocated is recorded next. -/
lemma slot_noted {change : Slot → SlotPool → Scratch → Scratch} (batch : Slot → List Slot)
    (actions : Slot → List BatchAction) (hchange : ∀ fresh,
      Records (change fresh) [fresh] (batch fresh) (actions fresh))
    (hslots : ∀ fresh, actionSlots (actions fresh) = {fresh})
    (hbatch : ∀ fresh, ∀ slot ∈ batch fresh, slot ∈ s.payloadSlots ∨ slot = fresh)
    (hvalid : ∀ fresh allocated, fresh ∈ allocated → ∀ action ∈ actions fresh, action.Valid s allocated) :
    Plans s extra why (onCore (Core.slot kernel) >>= fun fresh => note (change fresh)) := by
  refine .seq (slot_planned.fallback fun _ _ h => h.unwinds) ?_
  intro fresh
  apply Spec.of_states
  intro plan hplan
  refine note_planned hplan _ _ (hchange fresh) (hslots fresh) ?_ (hvalid fresh _ (by simp))
  intro slot hslot
  exact (hbatch fresh slot hslot).imp_right fun h => by simp [h]

/-! ## The parts of a batch -/

section Points

variable {id : ℕ} {sync : SyncObj} {slot : Slot}

/-- A gate is recorded with its only action. -/
lemma slot_gated {action : Slot → BatchAction} (hslots : ∀ gate, (action gate).slots = {gate})
    (hvalid : ∀ gate allocated, (action gate).Valid s allocated) :
    Plans s extra why (onCore (Core.slot kernel) >>= fun gate => note (noteGate gate (action gate))) := by
  refine slot_noted (fun gate => [gate]) (fun gate => [action gate]) ?_ ?_ ?_ ?_
  · exact fun _ => ⟨fun _ _ => rfl, fun _ _ => rfl, fun _ _ => rfl⟩
  · simp [hslots]
  · simp
  · exact fun gate allocated _ => forall_mem_singleton.mpr (hvalid gate allocated)

lemma planForeign_planned (foreign : ℕ) :
    Plans s extra why (planForeign kernel foreign) := by
  have hready : Spec (Planned s [] extra) (onCore (Core.foreignReady kernel foreign false))
      (fun _ plan => Planned s [] extra plan ∧ True) fun _ => Planned s [] extra :=
    onCore_planned fun _ _ => (Core.foreignReady_from foreign false).after fun _ _ h => ⟨h, trivial⟩
  refine .seq (hready.post (fun _ _ h => h.1) fun _ _ h => h.unwinds) ?_
  intro ready
  cases ready with
  | true => exact .ret
  | false =>
    exact slot_gated (fun _ => rfl) fun _ _ => trivial

lemma planComplete_planned (hsync : s.syncRef id = .ok sync) :
    Plans s extra why (planComplete kernel id sync) := by
  refine .either ?_ Spec.ret
  refine slot_noted (fun _ => []) (fun fresh => [.rebind id fresh]) ?_ (fun _ => rfl)
    (fun _ => forall_mem_nil _) ?_
  · exact fun _ => ⟨fun _ _ => rfl, fun _ _ => (append_nil _).symm, fun _ _ => rfl⟩
  · exact fun _ _ _ => forall_mem_singleton.mpr ⟨sync, hsync⟩

lemma planBinary_planned (hsync : s.syncRef id = .ok sync)
    (hpayload : sync.state.payload = .native slot) (hbinary : sync.timeline = false) :
    Plans s extra why (planBinary kernel id slot) := by
  have hslot := Core.mem_payloadSlots hsync hpayload
  refine slot_noted (fun _ => [slot]) (fun fresh => [.consume id slot fresh]) ?_ (fun _ => rfl) ?_ ?_
  · exact fun _ => ⟨fun _ _ => rfl, fun _ _ => rfl, fun _ _ => rfl⟩
  · exact fun _ => forall_mem_singleton.mpr (.inl hslot)
  · exact fun _ _ _ => forall_mem_singleton.mpr ⟨sync, hsync, hpayload, hbinary⟩

lemma planTimeline_planned (value : ℕ) (hsync : s.syncRef id = .ok sync)
    (hpayload : sync.state.payload = .native slot) : Plans s extra why (planTimeline slot value) := by
  apply Spec.of_states
  intro plan hplan
  refine note_planned hplan [slot] [] ?_ rfl ?_ (forall_mem_nil _)
  · exact ⟨fun _ _ => (append_nil _).symm, fun _ _ => rfl, fun _ _ => (append_nil _).symm⟩
  · exact forall_mem_singleton.mpr (.inl (Core.mem_payloadSlots hsync hpayload))

/-- Planning stops between the two allocations for a foreign payload. -/
def StrandsGate (kernel : Kernel) (plan : Planning) : Prop :=
  ∃ gate plan₁ e plan₂, exec (onCore (Core.slot kernel)) plan = (.ok gate, plan₁) ∧
    exec (onCore (Core.slot kernel)) plan₁ = (.error e, plan₂)

lemma planForeignPayload_planned (foreign : ℕ) (hsync : s.syncRef id = .ok sync)
    (hplan : Planned s [] extra plan) :
    Spec (plan = ·) (planForeignPayload kernel id foreign) (fun _ => Planned s [] extra)
      fun _ => Unwinds s extra (StrandsGate kernel plan) := by
  refine .seq ((slot_planned.enter hplan).traced.fallback fun _ _ h => h.1.unwinds) ?_
  intro gate
  apply Spec.of_states
  rintro plan₁ ⟨hplan₁, hgate⟩
  refine .seq ((slot_planned.enter hplan₁).traced.post (fun _ _ h => h.1) ?_) ?_
  · rintro e plan₂ ⟨hplan₂, hfail⟩
    exact ⟨{gate}, hplan₂.core, fun _ => ⟨gate, plan₁, e, plan₂, hgate, hfail⟩⟩
  intro fresh
  apply Spec.of_states
  intro plan₂ hplan₂
  refine note_planned hplan₂ [gate] [.foreignGate foreign gate, .rebind id fresh] ?_ rfl ?_ ?_
  · exact ⟨fun _ _ => rfl, fun _ _ => rfl, fun _ _ => rfl⟩
  · exact forall_mem_singleton.mpr (.inr (by simp))
  · exact forall_mem_cons.mpr ⟨trivial, forall_mem_singleton.mpr ⟨sync, hsync⟩⟩

end Points

/-! ## Batches -/

lemma Planned.syncRef (h : Planned s hand extra plan) (id : ℕ) :
    plan.core.syncRef id = s.syncRef id := Core.syncRef_congr h.core.kept.syncs id

/-- Planning a wait stops between its two allocations. -/
def StrandsWait (kernel : Kernel) (plan : Planning) (point : SyncPoint) : Prop :=
  ∃ sync foreign plan₁, plan.core.syncRef point.sync = .ok sync ∧
    exec (onCore (Core.planWait kernel sync point.value)) plan = (.ok (.foreign foreign), plan₁) ∧
    StrandsGate kernel plan₁

lemma planWaitPoint_planned (point : SyncPoint) (hplan : Planned s [] extra plan) :
    Spec (plan = ·) (planWaitPoint kernel point) (fun _ => Planned s [] extra)
      fun _ => Unwinds s extra (StrandsWait kernel plan point) := by
  apply Spec.look
  refine .given hplan.unwinds ?_
  intro sync hsync
  have hs : s.syncRef point.sync = .ok sync := (hplan.syncRef _).symm.trans hsync
  have hwait : Spec (plan = ·) (onCore (Core.planWait kernel sync point.value))
      (fun wait plan => Planned s [] extra plan ∧ Core.Waits sync wait) fun _ => Planned s [] extra :=
    (onCore_planned fun _ _ => Core.planWait_from sync point.value).enter hplan
  refine .seq (hwait.traced.fallback fun _ _ h => h.1.unwinds) ?_
  intro wait
  apply Spec.of_states
  rintro plan₁ ⟨⟨hplan₁, hpayload⟩, hrun⟩
  cases wait with
  | complete => exact (planComplete_planned hs).enter hplan₁
  | binary slot => exact (planBinary_planned hs hpayload.1 hpayload.2).enter hplan₁
  | timeline slot value => exact (planTimeline_planned value hs hpayload).enter hplan₁
  | foreign foreign =>
    refine (planForeignPayload_planned foreign hs hplan₁).fallback ?_
    rintro _ plan₂ ⟨lost, hlost, hwhy⟩
    exact ⟨lost, hlost, fun hne => ⟨sync, foreign, plan₁, hsync, hrun, hwhy hne⟩⟩
  | shared shared target =>
    exact .enter (slot_gated (fun _ => rfl) fun _ _ => trivial) hplan₁

/-- The replacement that a signal goes to was allocated for the batch. -/
lemma Planned.rebound {fresh : Slot} (h : Planned s [] extra plan)
    (hfresh : rebound plan.scratch.actions id = some fresh) : fresh ∈ plan.scratch.allocated := by
  obtain ⟨action, haction, hslot⟩ := exists_of_findSome?_eq_some hfresh
  have hmem : fresh ∈ action.slots := by
    cases action with
    | consume | rebind =>
      simp only [Option.ite_none_right_eq_some, Option.some.injEq] at hslot
      simp [BatchAction.slots, hslot.2]
    | signal | foreignGate | sharedGate | sharedPoint => cases hslot
  have hle : action.slots ≤ actionSlots plan.scratch.actions :=
    single_le_sum (fun _ _ => zero_le _) _ (mem_map_of_mem (mem_reverse.mp haction))
  rw [h.actions] at hle
  exact mem_coe.mp (mem_of_le hle hmem)

/-- Where a signal is planned to go. -/
def Signals (s : Core) (plan : Planning) (sync : SyncObj) : SignalPlan → Prop
  | .binary slot => sync.state.payload = .native slot ∨ slot ∈ plan.scratch.allocated
  | .timeline slot _ => sync.state.payload = .native slot
  | .replaceForeign => True
  | .shared shared _ => shared < s.shareds.length

lemma planSignal_signals (hplan : Planned s [] extra plan) (hsync : plan.core.syncRef id = .ok sync)
    (h : plan.core.planSignal sync value = .ok signal) : Signals s plan sync signal := by
  have hok := hplan.core.accounted.handle hsync
  rw [hplan.core.kept.shareds] at hok
  unfold Core.planSignal at h
  split at h
  · next slot hpayload =>
    cases h
    split_ifs
    · exact hpayload
    · exact .inl hpayload
  · cases h
    trivial
  · next shared hpayload =>
    have hin := hok.named shared hpayload
    split_ifs at h
    · cases h
      exact hin
    split at h
    · cases h
      exact hin
    split at h
    · cases h
    · cases h
      exact hin

lemma signalPlan_signals (hplan : Planned s [] extra plan) (hsync : plan.core.syncRef id = .ok sync)
    (h : plan.signalPlan id sync value = .ok signal) : Signals s plan sync signal := by
  unfold signalPlan at h
  split at h
  · next fresh hfresh =>
    split_ifs at h
    · exact planSignal_signals hplan hsync h
    · cases h
      exact .inr (hplan.rebound hfresh)
  · exact planSignal_signals hplan hsync h

lemma planSignalPoint_planned (point : SyncPoint) :
    Plans s extra why (planSignalPoint kernel point) := by
  apply Spec.read
  intro plan hplan
  refine .given hplan.unwinds ?_
  intro sync hsync
  refine .given hplan.unwinds ?_
  intro signal hsignal
  have hs : s.syncRef point.sync = .ok sync := (hplan.syncRef _).symm.trans hsync
  have htarget := signalPlan_signals hplan hsync hsignal
  cases signal with
  | binary slot =>
    have hslot : slot ∈ s.payloadSlots ∨ slot ∈ plan.scratch.allocated ++ [] := by
      rw [append_nil]
      exact htarget.imp_left (Core.mem_payloadSlots hs)
    refine note_planned hplan [slot] [.signal point.sync point.value slot] ?_ rfl ?_ ?_
    · exact ⟨fun _ _ => (append_nil _).symm, fun _ _ => rfl, fun _ _ => rfl⟩
    · exact forall_mem_singleton.mpr hslot
    · refine forall_mem_singleton.mpr ⟨sync, hs, ?_⟩
      rw [append_nil]
      exact htarget
  | timeline slot value =>
    refine .given hplan.unwinds ?_
    intro _ _
    refine note_planned hplan [slot] [.signal point.sync value slot] ?_ rfl ?_ ?_
    · exact ⟨fun _ _ => (append_nil _).symm, fun _ _ => rfl, fun _ _ => rfl⟩
    · exact forall_mem_singleton.mpr (.inl (Core.mem_payloadSlots hs htarget))
    · exact forall_mem_singleton.mpr ⟨sync, hs, .inl htarget⟩
  | replaceForeign =>
    refine .enter (slot_noted (fun fresh => [fresh]) (fun fresh =>
      [.rebind point.sync fresh, .signal point.sync point.value fresh]) ?_ (fun _ => rfl) ?_ ?_) hplan
    · exact fun _ => ⟨fun _ _ => rfl, fun _ _ => rfl, fun _ _ => rfl⟩
    · simp
    · exact fun fresh _ hfresh => forall_mem_cons.mpr ⟨⟨sync, hs⟩,
        forall_mem_singleton.mpr ⟨sync, hs, .inr hfresh⟩⟩
  | shared shared target =>
    refine .enter (slot_noted (fun slot => [slot]) (fun slot => [.sharedPoint shared target slot])
      ?_ (fun _ => rfl) ?_ ?_) hplan
    · exact fun _ => ⟨fun _ _ => rfl, fun _ _ => rfl, fun _ _ => rfl⟩
    · simp
    · exact fun _ _ _ => forall_mem_singleton.mpr htarget

/-- Planning a batch stops between the two allocations of one of its waits. -/
def StrandsBatch (kernel : Kernel) (foreign : List ℕ) (waits : List SyncPoint) (plan : Planning) :
    Prop :=
  ∃ before point after plan₁ plan₂, waits = before ++ point :: after ∧
    exec (each (planForeign kernel) foreign) plan = (.ok (), plan₁) ∧
    exec (each (planWaitPoint kernel) before) plan₁ = (.ok (), plan₂) ∧
    StrandsWait kernel plan₂ point

lemma planBatch_planned {waits : List SyncPoint} {foreign : List ℕ} {signals : List SyncPoint}
    (hs : s.Accounted extra) :
    Spec (⟨s, .empty⟩ = ·) (planBatch kernel waits foreign signals) (fun _ => Planned s [] extra)
      fun _ => Unwinds s extra (StrandsBatch kernel foreign waits ⟨s, .empty⟩) := by
  have hforeign : Spec (⟨s, .empty⟩ = ·) (each (planForeign kernel) foreign)
      (fun _ => Planned s [] extra)
      fun _ => Unwinds s extra (StrandsBatch kernel foreign waits ⟨s, .empty⟩) :=
    (Spec.of_each (fun _ => Planned s [] extra) (fun f _ => planForeign_planned f) foreign).enter
      (.start hs)
  refine .seq (hforeign.traced.fallback fun _ _ h => h.1) ?_
  rintro ⟨⟩
  apply Spec.of_states
  rintro plan₁ ⟨hplan₁, hrun₁⟩
  refine .seq (.of_each_reached (fun _ => Planned s [] extra) hplan₁ ?_) ?_
  · intro before point after plan₂ hwaits hrun₂ hplan₂
    refine (planWaitPoint_planned point hplan₂).fallback ?_
    rintro _ plan₃ ⟨lost, hlost, hwhy⟩
    exact ⟨lost, hlost, fun hne =>
      ⟨before, point, after, plan₁, plan₂, hwaits, hrun₁, hrun₂, hwhy hne⟩⟩
  · intro _
    exact .of_each (fun _ : List SyncPoint => Planned s [] extra)
      (fun point _ => planSignalPoint_planned point) signals

end Planning

end NvidiaProlapse
