import NvidiaProlapse.DetachedHandles

/-!
# Slots captured by GPU work

Two facts keep the CPU and later GPU signals away from a slot that a batch in flight
acquires. CPU resets and signals of binary payloads leave the words of every slot of a
queue alone. And a payload that a GPU wait consumed is bound to a fresh slot with the
acceptance of the batch, so that no later signal through it goes to the acquired slot,
unless another handle that shared the slot gives it back.
-/
namespace NvidiaProlapse
open Programs Gpfifo Runs List

namespace Planning

variable {kernel : Kernel} {s : Core} {extra : Multiset Slot} {plan : Planning}

/-! ## Signals of the batch itself -/

def NoSignals (scratch : Scratch) : Prop :=
  ∀ id value slot, .signal id value slot ∉ scratch.actions

/-- A payload consumed by the batch is signalled on a slot allocated for it. -/
def Apart (scratch : Scratch) : Prop :=
  ∀ id planned fresh value slot, .consume id planned fresh ∈ scratch.actions →
    .signal id value slot ∈ scratch.actions → slot ∈ scratch.allocated

lemma onCore_scratch {α : Type} (inv : Scratch → Prop) (p : Prog Core Error α) :
    Keeps (fun plan => inv plan.scratch) (onCore p) := by
  apply Spec.of_focus
  intro plan hplan t _
  exact ⟨fun _ _ _ => hplan, fun _ _ _ => hplan⟩

lemma note_noSignals {change : SlotPool → Scratch → Scratch} (actions : List BatchAction)
    (hchange : ∀ pool scratch, (change pool scratch).actions = scratch.actions ++ actions)
    (hnone : ∀ id value slot, .signal id value slot ∉ actions) :
    Keeps (fun plan => NoSignals plan.scratch) (note change) := by
  apply Spec.of_modify
  intro plan hplan id value slot hmem
  rw [hchange] at hmem
  rcases mem_append.mp hmem with hold | hnew
  · exact hplan id value slot hold
  · exact hnone id value slot hnew

lemma noteGate_noSignals (gate : Slot) {action : BatchAction}
    (hnone : ∀ id value slot, .signal id value slot ≠ action) :
    Keeps (fun plan => NoSignals plan.scratch) (note (noteGate gate action)) := by
  refine note_noSignals [action] (fun _ _ => rfl) ?_
  intro id value slot hmem
  exact hnone id value slot (mem_singleton.mp hmem)

lemma planForeign_noSignals (foreign : ℕ) :
    Keeps (fun plan => NoSignals plan.scratch) (planForeign kernel foreign) := by
  refine .seq (onCore_scratch NoSignals _) ?_
  intro ready
  refine .either Spec.ret ?_
  refine .seq (onCore_scratch NoSignals _) ?_
  intro gate
  exact noteGate_noSignals gate (by simp)

lemma planWaitPoint_noSignals (point : SyncPoint) :
    Keeps (fun plan => NoSignals plan.scratch) (planWaitPoint kernel point) := by
  have hslot := onCore_scratch NoSignals (Core.slot kernel)
  apply Spec.fetched
  intro plan hplan sync _
  refine .seq ((onCore_scratch NoSignals _).enter hplan) ?_
  intro wait
  cases wait with
  | complete =>
    refine .either ?_ Spec.ret
    refine .seq hslot fun fresh => ?_
    exact note_noSignals [.rebind point.sync fresh] (fun _ _ => rfl) (by simp)
  | binary slot =>
    refine .seq hslot fun fresh => ?_
    exact note_noSignals [.consume point.sync slot fresh] (fun _ _ => rfl) (by simp)
  | timeline slot value => exact note_noSignals [] (fun _ _ => (append_nil _).symm) (by simp)
  | foreign foreign =>
    refine .seq hslot fun gate => ?_
    refine .seq hslot fun fresh => ?_
    exact note_noSignals [.foreignGate foreign gate, .rebind point.sync fresh] (fun _ _ => rfl) (by simp)
  | shared shared target =>
    refine .seq hslot fun gate => ?_
    exact noteGate_noSignals gate (by simp)

/-- A payload that the batch consumes is signalled on its replacement. -/
lemma signalPlan_consumed {id value : ℕ} {sync : SyncObj} {signal : SignalPlan} {planned fresh : Slot}
    (hplan : Planned s [] extra plan) (hsync : plan.core.syncRef id = .ok sync)
    (hconsume : .consume id planned fresh ∈ plan.scratch.actions)
    (h : plan.signalPlan id sync value = .ok signal) :
    ∃ slot ∈ plan.scratch.allocated, signal = .binary slot := by
  obtain ⟨found, hfound, -, hbinary⟩ := hplan.valid _ hconsume
  have hsame : found = sync := by
    rw [← hplan.syncRef id, hsync] at hfound
    cases hfound
    rfl
  have hrebound : rebound plan.scratch.actions id ≠ none := by
    intro hnone
    have hno := findSome?_eq_none_iff.mp hnone _ (mem_reverse.mpr hconsume)
    simp at hno
  obtain ⟨slot, hslot⟩ := Option.ne_none_iff_exists'.mp hrebound
  refine ⟨slot, hplan.rebound hslot, ?_⟩
  unfold signalPlan at h
  rw [hslot, ← hsame, hbinary] at h
  cases h
  rfl

lemma Apart.append {scratch scratch' : Scratch} {new : List Slot} {actions : List BatchAction}
    (h : Apart scratch) (hallocated : scratch'.allocated = scratch.allocated ++ new)
    (hactions : scratch'.actions = scratch.actions ++ actions)
    (hconsume : ∀ id planned fresh, .consume id planned fresh ∉ actions)
    (hsignal : ∀ id planned fresh value slot, .consume id planned fresh ∈ scratch.actions →
      .signal id value slot ∈ actions → slot ∈ scratch.allocated ++ new) : Apart scratch' := by
  intro id planned fresh value slot hc hs
  rw [hactions, mem_append] at hc hs
  rw [hallocated]
  have hc := hc.resolve_right (hconsume id planned fresh)
  rcases hs with hs | hs
  · exact mem_append_left new (h id planned fresh value slot hc hs)
  · exact hsignal id planned fresh value slot hc hs

lemma planSignalPoint_apart (point : SyncPoint) (hplan : Planned s [] extra plan)
    (hapart : Apart plan.scratch) :
    Yields (plan = ·) (planSignalPoint kernel point) fun _ plan => Apart plan.scratch := by
  apply Spec.look
  refine .tried ?_
  intro sync hsync
  refine .tried ?_
  intro signal hsignal
  have hconsumed : ∀ planned fresh, .consume point.sync planned fresh ∈ plan.scratch.actions →
      ∃ slot ∈ plan.scratch.allocated, signal = .binary slot :=
    fun _ _ hconsume => signalPlan_consumed hplan hsync hconsume hsignal
  have hslot : Yields (plan = ·) (onCore (Core.slot kernel))
      fun _ plan' => plan'.scratch = plan.scratch :=
    ((onCore_scratch (fun scratch => scratch = plan.scratch) _).enter rfl).fallback
      fun _ _ _ => trivial
  cases signal with
  | binary slot =>
    apply Spec.change
    refine hapart.append (append_nil _).symm rfl (by simp) ?_
    intro id planned fresh value other hconsume hmem
    cases mem_singleton.mp hmem
    obtain ⟨allocated, hallocated, heq⟩ := hconsumed planned fresh hconsume
    cases heq
    exact mem_append_left [] hallocated
  | timeline slot value =>
    refine .tried ?_
    intro _ _
    apply Spec.change
    refine hapart.append (append_nil _).symm rfl (by simp) ?_
    intro id planned fresh value other hconsume hmem
    cases mem_singleton.mp hmem
    obtain ⟨_, _, heq⟩ := hconsumed planned fresh hconsume
    cases heq
  | replaceForeign =>
    refine .seq hslot fun fresh => ?_
    apply Spec.of_modify
    intro plan' hscratch
    rw [← hscratch] at hapart
    refine hapart.append rfl rfl (by simp) ?_
    intro id planned fresh' value other _ hmem
    simp only [mem_cons, BatchAction.signal.injEq, not_mem_nil, or_false, reduceCtorEq,
      false_or] at hmem
    rw [hmem.2.2]
    simp
  | shared shared target =>
    refine .seq hslot fun slot => ?_
    apply Spec.of_modify
    intro plan' hscratch
    rw [← hscratch] at hapart
    exact hapart.append rfl rfl (by simp) (by simp)

/-- Steps that keep a plan and a property of its scratch keep both. -/
lemma each_planned {α : Type} (why : α → Planning → Prop) {kind : Scratch → Prop}
    {err : Error → Planning → Prop} {step : α → Prog Planning Error Unit}
    (hplanned : ∀ a plan, Planned s [] extra plan → Spec (plan = ·) (step a)
      (fun _ => Planned s [] extra) fun _ => Unwinds s extra (why a plan))
    (hkind : ∀ a plan, Planned s [] extra plan → kind plan.scratch →
      Spec (plan = ·) (step a) (fun _ plan => kind plan.scratch) err) (list : List α) :
    Yields (fun plan => Planned s [] extra plan ∧ kind plan.scratch) (each step list)
      fun _ plan => Planned s [] extra plan ∧ kind plan.scratch := by
  refine Spec.of_each (fun _ plan => Planned s [] extra plan ∧ kind plan.scratch) ?_ list
  intro a _
  apply Spec.of_states
  rintro plan ⟨hplan, hscratch⟩
  exact ((hplanned a plan hplan).both (hkind a plan hplan hscratch)).fallback fun _ _ _ => trivial

lemma planBatch_apart {waits : List SyncPoint} {foreign : List ℕ} {signals : List SyncPoint}
    (hs : s.Accounted extra) :
    Yields (⟨s, .empty⟩ = ·) (planBatch kernel waits foreign signals)
      fun _ plan => Planned s [] extra plan ∧ Apart plan.scratch := by
  refine .seq ((each_planned (fun _ _ => True) (fun f _ => (planForeign_planned f).enter)
    (fun f _ _ => (planForeign_noSignals f).enter) foreign).enter
      ⟨.start hs, by simp [NoSignals, Scratch.empty]⟩) fun _ => ?_
  refine .seq (each_planned _ (fun point _ => planWaitPoint_planned point)
    (fun point _ _ => (planWaitPoint_noSignals point).enter) waits) fun _ => ?_
  refine (each_planned (fun _ _ => True) (fun point _ => (planSignalPoint_planned point).enter)
    (fun point _ => planSignalPoint_apart point) signals).before ?_
  rintro plan ⟨hplan, hnone⟩
  exact ⟨hplan, fun id _ _ value slot _ hmem => absurd hmem (hnone id value slot)⟩

end Planning

namespace Bridge

variable {host : Host} {view : TimelineView} {b c d : Bridge} {calls : List Call} {scan : Bool}
  {context : ℕ} {pushes : List Push} {waits signals : List SyncPoint} {foreign : List ℕ}
  {scratch : Scratch} {lost : Multiset Slot}

/-! ## An accepted batch -/

/-- The batch is accepted with this plan; the call ends in `d`. -/
def Accepts (host : Host) (scan : Bool) (context : ℕ) (pushes : List Push) (waits : List SyncPoint)
    (foreign : List ℕ) (signals : List SyncPoint) (b : Bridge) (scratch : Scratch) (d : Bridge) :
    Prop :=
  ∃ ready token accepted, exec (preflight host.kernel scan) b = (.ok (), ready) ∧
    exec (submitLocked host.kernel host.encode context pushes waits foreign signals) ready =
      (.ok (.ok (.submitted token), scratch), accepted) ∧
    exec (submit host.kernel host.encode scan context pushes waits foreign signals) b =
      (.ok (.submitted token), d)

/-- A batch planned at `b`. -/
def Plans (host : Host) (scan : Bool) (waits : List SyncPoint) (foreign : List ℕ)
    (signals : List SyncPoint) (b : Bridge) (plan : Planning) : Prop :=
  ∃ ready, exec (preflight host.kernel scan) b = (.ok (), ready) ∧
    exec (Planning.planBatch host.kernel waits foreign signals) ⟨ready.core, .empty⟩ = (.ok (), plan)

variable {ready accepted : Bridge} {slot : Slot} {id : ℕ}

lemma preflight_ready (hb : b.core.Accounted (b.slots + lost))
    (h : exec (preflight host.kernel scan) b = (.ok (), ready)) : Keeping b lost ready :=
  ((preflight_keeping scan) b (.start hb)).1 () ready h

variable {encode : Encoder} {kernel : Kernel} {planned : Slot} {n : ℕ}

/-- The plan of an accepted batch. -/
lemma submitLocked_planned {status : SubmitStatus}
    (h : exec (submitLocked kernel encode context pushes waits foreign signals) b = (.ok (.ok status, scratch), c)) :
    ∃ plan, exec (Planning.planBatch kernel waits foreign signals) ⟨b.core, .empty⟩ = (.ok (), plan) ∧
      plan.scratch = scratch := by
  have hspec : Yields (b = ·) (submitLocked kernel encode context pushes waits foreign signals)
      fun out _ => ∀ status, out.1 = .ok status → ∃ plan,
        exec (Planning.planBatch kernel waits foreign signals) ⟨b.core, .empty⟩ = (.ok (), plan) ∧
          plan.scratch = out.2 := by
    apply Spec.look
    cases hqueue : b.queueRef context with
    | error e => exact Spec.of_pure fun _ _ _ h => by cases h
    | ok queue =>
      refine Spec.of_plan (Spec.anything _ _) ?_ ?_
      · intro plan hplan _
        refine Spec.observe (.anything _ _) ?_ ?_
        · exact fun _ => .of_pure fun _ _ _ _ => ⟨plan, hplan, rfl⟩
        · intro e
          refine .next (.anything _ _) ?_
          exact .of_pure fun _ _ _ h => by cases h
      · intro e plan _
        exact .of_pure fun _ _ _ h => by cases h
  exact (hspec b rfl).1 _ c h status rfl

/-- Acceptance applies the actions of the plan. -/
lemma submit_applies {token : ℕ} (hready : exec (preflight kernel scan) b = (.ok (), ready))
    (hlocked : exec (submitLocked kernel encode context pushes waits foreign signals) ready = (.ok (.ok (.submitted token), scratch), accepted))
    (hsubmit : exec (submit kernel encode scan context pushes waits foreign signals) b = (.ok (.submitted token), d)) :
    exec (each (applyAction kernel context token) scratch.actions)
      (accepted.recordAcquires context token scratch.acquires) = (.ok (), d) := by
  unfold submit at hsubmit
  rw [exec_bind, hready] at hsubmit
  dsimp only at hsubmit
  rw [exec_bind, hlocked] at hsubmit
  dsimp only at hsubmit
  rw [exec_bind, exec_modify] at hsubmit
  dsimp only at hsubmit
  rw [exec_bind] at hsubmit
  rcases hactions : exec (each (applyAction kernel context token) scratch.actions)
    (accepted.recordAcquires context token scratch.acquires) with ⟨r, u⟩
  rw [hactions] at hsubmit
  cases r with
  | ok a =>
    cases hsubmit
    rfl
  | error e => cases hsubmit

/-- An accepted batch: its plan is valid, and its actions lead to the last state. -/
lemma Accepts.applies (hb : b.core.Accounted (b.slots + lost))
    (h : Accepts host scan context pushes waits foreign signals b scratch d) :
    ∃ ready token accepted, Keeping b lost ready ∧ Accepted ready context lost scratch accepted ∧
      Planning.Apart scratch ∧
      exec (each (applyAction host.kernel context token) scratch.actions)
        (accepted.recordAcquires context token scratch.acquires) = (.ok (), d) := by
  obtain ⟨ready, token, accepted, hready, hlocked, hsubmit⟩ := h
  have hkeeping := preflight_ready hb hready
  refine ⟨ready, token, accepted, hkeeping, ?_, ?_, submit_applies hready hlocked hsubmit⟩
  · exact ((submitLocked_concluded hkeeping.accounted) ready rfl).1 _ _ hlocked
  · obtain ⟨plan, hplan, rfl⟩ := submitLocked_planned hlocked
    exact (((Planning.planBatch_apart hkeeping.accounted) _ rfl).1 () plan hplan).2

lemma Accepted.names (h : Accepted ready context lost scratch accepted) :
    ∀ action ∈ scratch.actions, action.Names ready.core :=
  fun action haction => (h.valid action haction).names

lemma Accepted.slots (h : Accepted ready context lost scratch accepted) :
    ∀ slot ∈ actionSlots scratch.actions, slot ∈ scratch.allocated := by
  intro slot hslot
  rw [h.actions] at hslot
  exact Multiset.mem_coe.mp hslot

section

variable (h : Accepts host scan context pushes waits foreign signals b scratch d)

include h

/-- The slots allocated for an accepted batch count as allocated again. -/
lemma Accepts.taken (hb : b.core.Accounted (b.slots + lost)) (hslot : slot ∈ scratch.allocated) :
    b.core.taken slot < d.core.taken slot := by
  obtain ⟨ready, token, accepted, hkeeping, hacc, -, happly⟩ := h.applies hb
  have hlater : b.core.taken slot + 1 ≤ accepted.core.taken slot :=
    (hkeeping.settles.taken slot).trans_lt (hacc.fresh slot hslot)
  obtain ⟨_, -, hd⟩ := ((applyActions_tracked (Core.taken_lasting slot _) trivial hacc.names hacc.slots
    (recordAcquires_tracked (hacc.bindable hlater))) _ rfl).1 () d happly
  exact hd.tracked.tracked

/-- A consumed payload is detached from the slot that the batch acquires. -/
lemma detached_of_accepts {fresh : Slot} (hb : b.core.Accounted (b.slots + lost))
    (hconsume : .consume id planned fresh ∈ scratch.actions) :
    Core.Detached id planned (b.core.taken planned) d.core := by
  obtain ⟨ready, token, accepted, hkeeping, hacc, -, happly⟩ := h.applies hb
  have hbase : b.core.taken planned ≤ ready.core.taken planned := hkeeping.settles.taken planned
  obtain ⟨before, after, hactions⟩ := append_of_mem hconsume
  have hnames := hacc.names
  have hslots := hacc.slots
  -- Before the action nothing is followed; from the action on the handle is detached.
  have hstart : Tracked (Bindable ready.core (fun core => b.core.taken planned ≤ core.taken planned)
      scratch.allocated) (actionSlots scratch.actions + lost)
      (accepted.recordAcquires context token scratch.acquires) :=
    recordAcquires_tracked (hacc.bindable (hbase.trans (hacc.settles.taken planned)))
  rw [hactions] at happly hnames hslots hstart
  rw [actionSlots_append, actionSlots_cons] at hstart
  simp only [actionSlots_append, actionSlots_cons, Multiset.mem_add] at hslots
  obtain ⟨u, hbefore, hrest⟩ := exec_each_append happly
  obtain ⟨more, -, hu⟩ := ((applyActions_tracked (Core.taken_lasting planned _) trivial
    (fun action haction => hnames action (mem_append_left _ haction))
    (fun slot hslot => hslots slot (.inl hslot))
    (hstart.regroup (add_assoc _ _ _).symm)) _ rfl).1 () u hbefore
  have hfresh : fresh ∈ scratch.allocated := hslots fresh (.inr (.inl (by simp [BatchAction.slots])))
  obtain ⟨sync, hsync⟩ := hnames (.consume id planned fresh) (by simp)
  obtain ⟨found, hfound⟩ := hu.tracked.named id sync hsync
  have hbound := rebindNative_tracked (Core.taken_lasting planned _) trivial hsync hfresh (hu.regroup (by
    show {fresh} + (actionSlots after + (more + lost)) = more + ({fresh} + actionSlots after + lost)
    abel))
  have hdetached : Core.Detached id planned (b.core.taken planned) (rebindNative u.core id fresh) := by
    have heq : rebindNative u.core id fresh = u.core.replace id found (.native fresh) := by
      unfold rebindNative
      rw [hfound]
    rw [heq]
    have hlater := hu.tracked.fresh fresh hfresh
    refine Core.detached_replace hfound hu.tracked.tracked ?_
    rintro hn ⟨⟩
    omega
  obtain ⟨_, -, hd⟩ := ((applyActions_tracked Core.detached_lasting hbase
    (fun action haction => hnames action (by simp [haction]))
    (fun slot hslot => hslots slot (.inr (.inr hslot)))
    ⟨hbound.accounted, hdetached, hbound.tracked.named, hbound.tracked.shareds, hbound.tracked.fresh⟩)
    _ rfl).1 () d hrest
  exact hd.tracked.tracked

lemma Accepts.backed (hb : Backed b) : Backed d := by
  obtain ⟨ready, token, accepted, -, -, hsubmit⟩ := h
  have hstep : step host b (.submit scan context pushes waits foreign signals) = some d := by
    show some (exec (ignore (submit _ _ _ _ _ _ _ _)) b).2 = _
    rw [exec_ignore_state, hsubmit]
  exact step_backed hb hstep

end

/-- A handle stays detached while no call gives the slot back to it. -/
lemma run_detached (hb : Backed b) (hdetached : Core.Detached id slot n b.core)
    (hkeep : Along (step host) (fun b call => ¬ Returns b.core id slot call) b calls)
    (hrun : run (step host) b calls = some c) : Backed c ∧ Core.Detached id slot n c.core := by
  have hstep : ∀ s call t, Backed s ∧ Core.Detached id slot n s.core →
      ¬ Returns s.core id slot call → step host s call = some t →
      Backed t ∧ Core.Detached id slot n t.core := by
    rintro s call t ⟨⟨lost, hs⟩, hdet⟩ hcall hstep
    obtain ⟨more, -, ht⟩ := step_short Core.detached_lasting ⟨hs, hdet⟩
      (handlePart_detached hdet hcall) hstep
    exact ⟨⟨more + lost, ht.accounted⟩, ht.tracked⟩
  exact run_invariant_along hstep ⟨hb, hdetached⟩ hkeep hrun

/-- A signal planned through a detached handle goes elsewhere. -/
lemma signal_ne_of_detached {value : ℕ} {plan : Planning} (hb : b.core.Accounted (b.slots + lost))
    (hdetached : Core.Detached id planned n b.core)
    (hplan : Plans host scan waits foreign signals b plan) (hn : plan.core.taken planned = n)
    (hsignal : .signal id value slot ∈ plan.scratch.actions) : slot ≠ planned := by
  obtain ⟨ready, hready, hrun⟩ := hplan
  have hkeeping := preflight_ready hb hready
  have hdet := Core.detached_stable _ _ hkeeping.settles.toSameHandles hdetached
  have hplanned : Planning.Planned ready.core [] (ready.slots + lost) plan :=
    ((Planning.planBatch_planned hkeeping.accounted) _ rfl).1 () plan hrun
  have htaken := hplanned.core.kept.taken planned
  have hsince := hdet.since
  obtain ⟨sync, hsync, hslot⟩ := hplanned.valid _ hsignal
  rintro rfl
  rcases hslot with hpayload | hallocated
  · exact hdet.apart (by omega) sync hsync hpayload
  · have hfresh := hplanned.fresh slot (mem_append_left [] hallocated)
    omega

/-- CPU resets and signals of binary payloads leave every slot of a queue as it is. A
GPU wait that consumes a payload detaches it from the acquired slot: signals of the
same batch and of later ones go elsewhere until the slot is allocated again, as long
as no move or reservation gives it back to the payload from another handle. -/
theorem captured_slots_untouched (hopen : opened host.kernel view = .ok b)
    (hrun : run (step host) b calls = some c) :
    (∀ id, ∀ slot ∈ c.slots,
      Core.Spared c.core slot (exec (perform host (.syncReset id)) c).2.core) ∧
    (∀ id value, (∀ sync, c.core.syncRef id = .ok sync → sync.timeline = false) → ∀ slot ∈ c.slots,
      Core.Spared c.core slot (exec (perform host (.syncSignal id value)) c).2.core) ∧
    ∀ scan context pushes waits foreign signals scratch d,
      Accepts host scan context pushes waits foreign signals c scratch d →
      ∀ id planned fresh, .consume id planned fresh ∈ scratch.actions →
        (d.core.taken planned = c.core.taken planned →
          ∀ value slot, .signal id value slot ∈ scratch.actions → slot ≠ planned) ∧
        ∀ later e, Along (step host) (fun b call => ¬ Returns b.core id planned call) d later →
          run (step host) d later = some e →
          ∀ scan waits foreign signals plan, Plans host scan waits foreign signals e plan →
            plan.core.taken planned = c.core.taken planned →
            ∀ value slot, .signal id value slot ∈ plan.scratch.actions → slot ≠ planned := by
  obtain ⟨lost, hc⟩ := run_backed hopen hrun
  have hmem : ∀ slot ∈ c.slots, slot ∈ c.slots + lost := fun slot h => Multiset.mem_add.mpr (.inl h)
  refine ⟨?_, ?_, ?_⟩
  · intro id slot hslot
    exact (Core.syncReset_spared hc (hmem slot hslot)).state
  · intro id value hbinary slot hslot
    exact (Core.syncSignal_spared hc (hmem slot hslot) hbinary).state
  intro scan context pushes waits foreign signals scratch d haccepts id planned fresh hconsume
  have hdetached := detached_of_accepts haccepts hc hconsume
  constructor
  · rintro hn value slot hsignal rfl
    obtain ⟨ready, token, accepted, -, -, hapart, -⟩ := haccepts.applies hc
    have hlater := haccepts.taken hc (hapart id slot fresh value slot hconsume hsignal)
    omega
  · intro later e hkeep hlater scan waits foreign signals plan hplan hn value slot hsignal
    obtain ⟨⟨lost', he⟩, hdet⟩ := run_detached (haccepts.backed ⟨lost, hc⟩) hdetached hkeep hlater
    exact signal_ne_of_detached he hdet hplan hn hsignal

/-! ## A reservation and a wait -/

/-- The second handle reserves the slot of the first. -/
def reservedPair : List Call :=
  [.syncCreate false 0, .syncCreate false 0, .createContext none, .syncReserve 2 1]

/-- A batch that waits for the first handle. -/
def waitBatch : Call := .submit false 1 [] [⟨1, 0⟩] [] []

theorem captured_slots_untouched_waiting :
    Core.Spared (afterCalls quietBridge (reservedPair ++ [waitBatch])).core 0
      (exec (perform quietHost (.syncReset 2))
        (afterCalls quietBridge (reservedPair ++ [waitBatch]))).2.core :=
  (@captured_slots_untouched quietHost .native64 quietBridge _ (reservedPair ++ [waitBatch]) rfl
    (run_afterCalls _ _)).1 2 0 (by decide +kernel)

/-- The state in which the wait is planned, its plan, and the state after the second
handle was moved back to the first. -/
def beforeWait : Bridge := afterCalls quietBridge reservedPair

def waitPlan : Result (Result SubmitStatus × Scratch) × Bridge :=
  exec (submitLocked quietHost.kernel quietHost.encode 1 [] [⟨1, 0⟩] [] [])
    (exec (preflight quietHost.kernel false) beforeWait).2

def afterWait : Bridge := afterCalls beforeWait [waitBatch]

def movedBack : Bridge := afterCalls afterWait [.syncMove 1 2]

def signalAgain : Result Unit × Planning :=
  exec (Planning.planBatch quietHost.kernel [] [] [⟨1, 0⟩])
    ⟨(exec (preflight quietHost.kernel false) movedBack).2.core, .empty⟩

def scratchOf : Result (Result SubmitStatus × Scratch) → Scratch
  | .ok (_, scratch) => scratch
  | .error _ => .empty

/-- The first handle has its old slot again, which the batch in flight still acquires,
and a signal through it goes there. -/
theorem moved_reservation_returns :
    opened quietHost.kernel .native64 = .ok quietBridge ∧
      run (step quietHost) quietBridge reservedPair = some beforeWait ∧
      Accepts quietHost false 1 [] [⟨1, 0⟩] [] [] beforeWait (scratchOf waitPlan.1) afterWait ∧
      .consume 1 0 1 ∈ (scratchOf waitPlan.1).actions ∧
      run (step quietHost) afterWait [.syncMove 1 2] = some movedBack ∧
      Plans quietHost false [] [] [⟨1, 0⟩] movedBack signalAgain.2 ∧
      signalAgain.2.core.taken 0 = beforeWait.core.taken 0 ∧ 0 ∈ movedBack.slots ∧
      .signal 1 0 0 ∈ signalAgain.2.scratch.actions := by
  have hpair : ∀ {α β : Type} (p : α × β) (a : α), p.1 = a → p = (a, p.2) := by
    rintro α β p a rfl
    rfl
  have hwait := hpair waitPlan (.ok (.ok (.submitted 1), scratchOf waitPlan.1)) (by decide +kernel)
  have hplan := hpair signalAgain (.ok ()) (by decide +kernel)
  have hafter : afterWait =
      (exec (submit quietHost.kernel quietHost.encode false 1 [] [⟨1, 0⟩] [] []) beforeWait).2 :=
    exec_ignore_state _ beforeWait
  have hsubmit : exec (submit quietHost.kernel quietHost.encode false 1 [] [⟨1, 0⟩] [] []) beforeWait =
      (.ok (.submitted 1), afterWait) := by
    rw [hafter]
    exact hpair _ _ (by decide +kernel)
  refine ⟨rfl, run_afterCalls _ _, ⟨_, 1, _, hpair _ _ ?_, hwait, hsubmit⟩, ?_,
    run_afterCalls _ _, ⟨_, hpair _ _ ?_, hplan⟩, ?_, ?_, ?_⟩
  all_goals decide +kernel

end Bridge

end NvidiaProlapse
