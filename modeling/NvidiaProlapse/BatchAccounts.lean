import NvidiaProlapse.LossAccounts

/-!
# What a submission does to slot references

A batch that is not accepted gives its allocated slots back. Those of an accepted
batch go to the payloads and registrations that its actions name.
-/
namespace NvidiaProlapse
open Programs Gpfifo Multiset

namespace Bridge

variable {kernel : Kernel} {b c : Bridge} {extra : Multiset Slot} {base track : Core → Prop}

/-! ## The queue of a batch -/

variable {context : ℕ} {why : Prop}

variable {queue : Queue} {encode : Encoder} {pushes : List Push} {ready : Bridge}
  {scratch : Scratch}

/-- What the other queues own. -/
lemma slots_of_records_set (h : b.queueRef context = .ok queue) :
    ∃ rest, b.slots = queue.slots + rest ∧ ∀ (c : Bridge) (record : Option QueueRecord),
        c.records = b.records.set (context - 1) record → c.slots = recordSlots record + rest := by
  have hget := records_getElem? h
  have hle : queue.slots ≤ b.slots :=
    List.single_le_sum (fun _ _ => Multiset.zero_le _) _
      (List.mem_map_of_mem (List.mem_of_getElem? hget))
  obtain ⟨rest, hrest⟩ := Multiset.le_iff_exists_add.mp hle
  refine ⟨rest, hrest, ?_⟩
  intro c record hc
  have hsum : c.slots + queue.slots = b.slots + recordSlots record := by
    unfold slots
    rw [hc]
    exact References.sum_set recordSlots record hget
  rw [hrest] at hsum
  apply add_right_cancel (b := queue.slots)
  rw [hsum]
  abel

/-- The answer of the queue, seen from the bridge. -/
structure Answered (b : Bridge) (context : ℕ) (extra : Multiset Slot) (shape : Queue → Queue → Prop)
    (c : Bridge) : Prop where
  accounted : c.core.Accounted (c.slots + extra)
  kept : b.core.Kept c.core
  shape : ∃ queue queue', b.queueRef context = .ok queue ∧ shape queue queue' ∧
    c.records = b.records.set (context - 1) (some queue'.owned)

lemma onQueue_submit {waits signals : List SemaphoreOp} {batch : List Slot}
    {shadows : List (Slot × ℕ)} (hqueue : b.queueRef context = .ok queue)
    (hb : b.core.Accounted (b.slots + extra))
    (hbatch : ∀ slot ∈ batch, slot ∈ b.core.payloadSlots + extra) : Spec (b = ·)
      (onQueue context queue (Queue.submit kernel encode pushes waits signals batch shadows))
      (fun status => Answered b context extra fun q q' => Queue.Answers q batch status q')
      fun _ => Answered b context extra fun q q' => Queue.Fails q batch q' := by
  obtain ⟨rest, hrest, hset⟩ := slots_of_records_set hqueue
  apply Spec.of_focus
  rintro _ rfl
  have hcell : Queue.Cell b.core (rest + extra) (queue = ·) ⟨b.core, queue⟩ := by
    refine ⟨Core.From.start (hb.regroup ?_), rfl⟩
    rw [hrest]
    exact (add_assoc _ _ _).symm
  have hanswer : ∀ (shape : Queue → Queue → Prop) (cell : QueueCell),
      Queue.Cell b.core (rest + extra) (shape queue) cell →
      Answered b context extra shape ({ b with core := cell.core }.setQueue context cell.queue) := by
    intro shape cell h
    have hrecords : ({ b with core := cell.core }.setQueue context cell.queue).records =
        b.records.set (context - 1) (some cell.queue.owned) := records_setQueue context cell.queue
    refine ⟨h.core.accounted.regroup ?_, h.core.kept, queue, cell.queue, hqueue, h.shape, hrecords⟩
    rw [hset _ _ hrecords, add_assoc]
    rfl
  refine ((Queue.submit_cell ?_).enter hcell).post ?_ ?_
  · intro slot hslot
    have hmem := hbatch slot hslot
    simp only [mem_add] at hmem ⊢
    tauto
  · exact fun status cell h => hanswer (fun q q' => Queue.Answers q batch status q') cell h
  · exact fun _ cell h => hanswer (fun q q' => Queue.Fails q batch q') cell h

/-! ## From the plan to the answer -/

/-- The batch was accepted and its actions are still to be applied. -/
structure Accepted (b : Bridge) (context : ℕ) (extra : Multiset Slot) (scratch : Scratch) (c : Bridge) :
    Prop where
  accounted : c.core.Accounted (c.slots + ((scratch.allocated : Multiset Slot) + extra))
  settles : b.core.Settles c.core
  actions : actionSlots scratch.actions = (scratch.allocated : Multiset Slot)
  valid : ∀ action ∈ scratch.actions, action.Valid b.core scratch.allocated
  fresh : ∀ slot ∈ scratch.allocated, b.core.taken slot < c.core.taken slot
  queue : ∃ queue queue', b.queueRef context = .ok queue ∧ Queue.Holds queue scratch.held queue' ∧
    c.records = b.records.set (context - 1) (some queue'.owned)

/-- What a submission that was not accepted leaves of the held slots of its queue:
those of unretired batches and, where the device was lost after the ledger took the
batch, those of the batch. -/
def Leaves (lost : Bool) (batch : List Slot) (before after : QueueRecord) : Prop :=
  after.retire = before.retire ∧
    (Queue.GivesBack after.retired before.held after.held ∨
      lost = true ∧ ∃ token left, Queue.GivesBack after.retired before.held left ∧
        after.held = left ++ batch.map fun slot => (token, slot))

/-- Only the held slots of one queue changed. -/
def LeavesRecords (b : Bridge) (context : ℕ) (batch : List Slot) (c : Bridge) : Prop :=
  c.records = b.records ∨ ∃ before after,
    b.records[context - 1]? = some (some before) ∧
    c.records = b.records.set (context - 1) (some after) ∧
    Leaves c.core.lost batch before after

/-- The batch was not accepted and its allocated slots are still to be given back. -/
structure Refused (b : Bridge) (context : ℕ) (extra : Multiset Slot) (why : Prop) (batch : List Slot)
    (scratch : Scratch) (c : Bridge) : Prop where
  accounted : ∃ lost : Multiset Slot, (lost ≠ 0 → why) ∧
    c.core.Accounted (c.slots + ((scratch.allocated : Multiset Slot) + (lost + extra)))
  settles : b.core.Settles c.core
  kept : c.core.lost = false → b.core.Kept c.core
  queue : LeavesRecords b context batch c

/-- Both outcomes of a batch. -/
def Concluded (b : Bridge) (context : ℕ) (extra : Multiset Slot) (why : Prop) (batch : List Slot) :
    Result SubmitStatus × Scratch → Bridge → Prop
  | (.ok (.submitted _), scratch) => Accepted b context extra scratch
  | (_, scratch) => Refused b context extra why batch scratch

lemma Refused.start {batch : List Slot} (h : b.core.Accounted (b.slots + extra)) :
    Refused b context extra why batch .empty b where
  accounted := ⟨0, fun hne => absurd rfl hne, h.regroup (by simp [Scratch.empty])⟩
  settles := .refl _
  kept := fun _ => .refl _
  queue := .inl rfl

/-- The slots that a batch planned at `b` would hold. -/
def batch (kernel : Kernel) (b : Bridge) (waits : List SyncPoint) (foreign : List ℕ)
    (signals : List SyncPoint) : List Slot :=
  (exec (Planning.planBatch kernel waits foreign signals) ⟨b.core, .empty⟩).2.scratch.held

/-- Planning stops between two allocations. -/
def StrandsGate (kernel : Kernel) (b : Bridge) (context : ℕ) (waits : List SyncPoint)
    (foreign : List ℕ) : Prop :=
  (∃ queue, b.queueRef context = .ok queue) ∧
    Planning.StrandsBatch kernel foreign waits ⟨b.core, .empty⟩

section Submit

variable {encode : Encoder} {context : ℕ} {pushes : List Push} {waits signals : List SyncPoint}
  {foreign : List ℕ}

/-- What follows the first phase sees its outcome. -/
lemma Spec.of_plan {α : Type} {p : Prog Planning Error Unit} {good bad : Planning → Prop}
    {f : Result Unit × Scratch → Prog Bridge Error α} {ok : α → Bridge → Prop}
    {err : Error → Bridge → Prop}
    (hp : Spec (⟨b.core, .empty⟩ = ·) p (fun _ => good) fun _ => bad)
    (hgood : ∀ plan, exec p ⟨b.core, .empty⟩ = (.ok (), plan) → good plan →
      Spec ({ b with core := plan.core } = ·) (f (.ok (), plan.scratch)) ok err)
    (hbad : ∀ e plan, bad plan →
      Spec ({ b with core := plan.core } = ·) (f (.error e, plan.scratch)) ok err) :
    Spec (b = ·) (plan p >>= f) ok err := by
  obtain ⟨h1, h2⟩ := hp _ rfl
  rcases hrun : exec p ⟨b.core, .empty⟩ with ⟨r, planned⟩
  have hplan : exec (plan p) b = (.ok ((exec p ⟨b.core, .empty⟩).1, (exec p ⟨b.core, .empty⟩).2.scratch),
      { b with core := (exec p ⟨b.core, .empty⟩).2.core }) := rfl
  rw [hrun] at hplan
  apply Spec.known hplan
  cases r with
  | ok a => exact hgood planned hrun (h1 a planned hrun)
  | error e => exact hbad e planned (h2 e planned hrun)

section Planned

variable {plan : Planning} {why : Prop}

section

variable (h : Planning.Planned b.core [] (b.slots + extra) plan)

include h

/-- The references of a planned batch, seen from the bridge. -/
lemma accounted_of_planned : ({ b with core := plan.core } : Bridge).core.Accounted
      (({ b with core := plan.core } : Bridge).slots +
        ((plan.scratch.allocated : Multiset Slot) + extra)) := by
  refine h.core.accounted.regroup ?_
  show b.slots + _ = _
  abel

lemma Answered.accepted {token : ℕ}
    (hanswer : Answered { b with core := plan.core } context
      ((plan.scratch.allocated : Multiset Slot) + extra)
      (fun q q' => Queue.Answers q plan.scratch.held (.submitted token) q') c) :
    Accepted b context extra plan.scratch c where
  accounted := hanswer.accounted
  settles := h.core.kept.toSettles.trans hanswer.kept.toSettles
  actions := h.actions
  valid := h.valid
  fresh := fun slot hslot =>
    (h.fresh slot (by rwa [List.append_nil])).trans_le (hanswer.kept.taken slot)
  queue := hanswer.shape

/-- A full ring or a failed queue. -/
lemma Answered.refused {d : Bridge} {shape : Queue → Queue → Prop}
    (hanswer : Answered { b with core := plan.core } context
      ((plan.scratch.allocated : Multiset Slot) + extra) shape c)
    (hkeeping : Keeping c ((plan.scratch.allocated : Multiset Slot) + extra) d)
    (hshape : ∀ q q', shape q q' → Leaves d.core.lost plan.scratch.held q.owned q'.owned) :
    Refused b context extra why plan.scratch.held plan.scratch d where
  accounted := ⟨0, fun hne => absurd rfl hne, hkeeping.accounted.regroup (by rw [zero_add])⟩
  settles := (h.core.kept.toSettles.trans hanswer.kept.toSettles).trans hkeeping.settles
  kept := fun halive => (h.core.kept.trans hanswer.kept).trans (hkeeping.kept halive)
  queue := by
    obtain ⟨q, q', hqueue, hq, hrecords⟩ := hanswer.shape
    refine .inr ⟨q.owned, q'.owned, records_getElem? hqueue, ?_, hshape q q' hq⟩
    rw [hkeeping.records, hrecords]
    rfl

end

end Planned

lemma submitLocked_concluded (hb : b.core.Accounted (b.slots + extra)) :
    Spec (b = ·) (submitLocked kernel encode context pushes waits foreign signals)
      (Concluded b context extra (StrandsGate kernel b context waits foreign)
        (b.batch kernel waits foreign signals)) fun _ _ => False := by
  apply Spec.look
  cases hqueue : b.queueRef context with
  | error e =>
    apply Spec.unchanged
    exact Refused.start hb
  | ok queue =>
    refine Spec.of_plan (Planning.planBatch_planned hb) ?_ ?_
    · intro plan hrun hplan
      have hheld : b.batch kernel waits foreign signals = plan.scratch.held := by
        unfold batch
        rw [hrun]
      have hbatch : ∀ slot ∈ plan.scratch.held, slot ∈ plan.core.payloadSlots +
          ((plan.scratch.allocated : Multiset Slot) + extra) := by
        intro slot hslot
        have hsame : plan.core.payloadSlots = b.core.payloadSlots := by
          unfold Core.payloadSlots
          rw [hplan.core.kept.syncs]
        simp only [mem_add, mem_coe, hsame]
        have := hplan.held slot hslot
        tauto
      rw [hheld]
      refine Spec.observe (onQueue_submit hqueue (accounted_of_planned hplan) hbatch) ?_ ?_
      · intro status
        apply Spec.of_pure
        intro c hc
        cases status with
        | submitted token => exact hc.accepted hplan
        | full oldest =>
          exact Answered.refused hplan hc (.start hc.accounted) fun q q' hkept =>
            ⟨hkept.retire, Or.inl hkept.held⟩
      · intro e
        apply Spec.of_states
        intro c hc
        refine Spec.seq (loseLocked_total.spec (loseLocked_loses.enter (.start hc.accounted))) ?_
        intro _
        apply Spec.of_pure
        rintro d ⟨hd, hlost⟩
        refine Answered.refused hplan hc hd ?_
        rintro q q' (hkept | ⟨hholds, -⟩)
        · exact ⟨hkept.retire, Or.inl hkept.held⟩
        · exact ⟨hholds.retire, .inr ⟨hlost, hholds.held⟩⟩
    · rintro e plan ⟨lost, hlost, hwhy⟩
      apply Spec.unchanged
      refine ⟨⟨lost, fun hne => ⟨⟨queue, hqueue⟩, hwhy hne⟩, hlost.accounted.regroup ?_⟩,
        hlost.kept.toSettles, fun _ => hlost.kept, .inl rfl⟩
      show b.slots + _ = _
      abel

end Submit

/-! ## Actions -/

/-- A property of the handles that is also kept where a handle is bound to a slot
allocated since an earlier state with the property `base`, and where a signal is
recorded. -/
structure Lasting (base track : Core → Prop) : Prop where
  same : Stable track
  based : ∀ core, track core → base core
  rebind : ∀ start core id fresh, base start → track core → start.taken fresh < core.taken fresh →
    track (rebindNative core id fresh)
  commit : ∀ core id context token value, track core →
    track (commitSignal core id context token value)

/-- What the actions of a batch planned at `start` need. -/
structure Bindable (start : Core) (track : Core → Prop) (fresh : List Slot) (core : Core) : Prop where
  tracked : track core
  named : ∀ id sync, start.syncRef id = .ok sync → ∃ sync', core.syncRef id = .ok sync'
  shareds : core.shareds.length = start.shareds.length
  fresh : ∀ slot ∈ fresh, start.taken slot < core.taken slot

variable {start : Core} {fresh : List Slot}

section

variable (htrack : Stable track)

include htrack

lemma Bindable.stable : Stable (Bindable start track fresh) := by
  intro s t hsame h
  refine ⟨htrack s t hsame h.tracked, ?_, hsame.shareds.trans h.shareds, ?_⟩
  · intro id sync hsync
    obtain ⟨sync', hsync'⟩ := h.named id sync hsync
    exact ⟨sync', (Core.syncRef_congr hsame.syncs id).trans hsync'⟩
  · intro slot hslot
    exact (h.fresh slot hslot).trans_le (hsame.taken slot)

lemma ensureWatcherHost_tracked : Keeps (Tracked track extra) (ensureWatcherHost kernel) := by
  have hhost : ∀ (d : Bridge) (host : Bool), Tracked track extra d → Tracked track extra { d with
        watcherHost := host
        core := d.core.setWatcher fun w => { w with host := true } } := by
    intro d host hd
    exact ⟨hd.accounted.congr rfl rfl rfl rfl rfl rfl rfl rfl,
      htrack d.core _ ⟨rfl, rfl, fun _ => le_rfl⟩ hd.tracked⟩
  apply Spec.read
  intro d hd
  refine .either ?_ ?_
  · apply Spec.change
    exact hhost d d.watcherHost hd
  have hrequest : Keeps (Tracked track extra) (onCore (Core.request kernel.serve)) :=
    tracked_of_keeping htrack fun _ => request_keeping kernel.serve
  refine .next (hrequest.enter hd) ?_
  exact .of_modify fun c hc => hhost c true hc

lemma loseLocked_tracked :
    Spec (Tracked track extra) loseLocked (fun _ => Tracked track extra) fun _ _ => False :=
  loseLocked_total.spec (tracked_of_keeping htrack fun _ => loseLocked_keeping)

/-- A registration that takes the references `left`, also where it fails. -/
lemma orLose_tracked {p : Prog Bridge Error Unit} {left : Multiset Slot}
    (hp : Spec (Tracked track left) p (fun _ => Tracked track extra) fun _ => Tracked track extra) :
    Spec (Tracked track left) (orLose p) (fun _ => Tracked track extra) fun _ _ => False :=
  Spec.observe hp (fun _ => .ret) fun _ => loseLocked_tracked htrack

end

/-- A handle is set, its payload possibly dropped, and the property still holds. -/
lemma Bindable.setSync {core : Core} {id : ℕ} {sync : SyncObj} (sync' : SyncObj) (payload : Payload)
    (h : Bindable start track fresh core) (hsync : core.syncRef id = .ok sync)
    (htrack : track ((core.setSync id sync').dropPayload payload)) :
    Bindable start track fresh ((core.setSync id sync').dropPayload payload) := by
  have hsame := Core.dropPayload_sameHandles (core.setSync id sync') payload
  refine ⟨htrack, ?_, hsame.shareds.trans h.shareds, ?_⟩
  · intro other found hfound
    obtain ⟨found', hfound'⟩ := h.named other found hfound
    obtain ⟨last, hlast⟩ := Core.syncRef_setSync_named sync' hsync hfound'
    exact ⟨last, (Core.syncRef_congr hsame.syncs other).trans hlast⟩
  · intro slot hslot
    exact (h.fresh slot hslot).trans_le (hsame.taken slot)

section Apply

variable {id context token : ℕ} {slot : Slot} {sync : SyncObj}

lemma rebindNative_tracked (hlasting : Lasting base track) (hstart : base start)
    (hsync : start.syncRef id = .ok sync) (hslot : slot ∈ fresh)
    (h : Tracked (Bindable start track fresh) ({slot} + extra) c) :
    Tracked (Bindable start track fresh) extra { c with core := rebindNative c.core id slot } := by
  obtain ⟨found, hfound⟩ := h.tracked.named id sync hsync
  have hbound := hlasting.rebind start c.core id slot hstart h.tracked.tracked (h.tracked.fresh slot hslot)
  have heq : rebindNative c.core id slot = c.core.replace id found (.native slot) := by
    unfold rebindNative
    rw [hfound]
  rw [heq] at hbound ⊢
  constructor
  · refine Core.Accounted.replace_native (h.accounted.regroup ?_) hfound
    show {slot} + (c.slots + extra) = _
    abel
  · exact h.tracked.setSync _ _ hfound hbound

lemma commitSignal_tracked (hlasting : Lasting base track) (value : ℕ)
    (h : Tracked (Bindable start track fresh) extra c) :
    Tracked (Bindable start track fresh) extra
      { c with core := commitSignal c.core id context token value } := by
  have hcommit := hlasting.commit c.core id context token value h.tracked.tracked
  unfold commitSignal at hcommit ⊢
  cases hfound : c.core.syncRef id with
  | error e => exact h
  | ok found =>
    rw [hfound] at hcommit
    have hsame : (Core.commitSignal found context token value).state.payload = found.state.payload ∧
        (Core.commitSignal found context token value).timeline = found.timeline := by
      unfold Core.commitSignal
      split
      · split_ifs <;> exact ⟨rfl, rfl⟩
      · exact ⟨rfl, rfl⟩
    constructor
    · exact h.accounted.setSync_same hfound hsame.1 hsame.2
    · exact h.tracked.setSync _ (.foreign 0) hfound hcommit

lemma addPoint_total (shared target : ℕ) (point : Slot) :
    Total (onCore (Core.addPoint shared target point)) := by
  have hmaximum : ∀ word, Total (ignore (Core.maximum shared word target)) := fun _ =>
    Total.seq (.read fun _ => .seq (.of_modify _) fun _ => .of_pure _) fun _ =>
      Total.of_pure _
  refine .of_focus (.read fun _ => ?_)
  refine .seq (.branch (hmaximum .target) (.of_pure _)) fun _ => ?_
  exact .seq (.of_modify _) fun _ => hmaximum .pending

/-- An accepted gate is lost where the host listener cannot be started. -/
def LosesAction (kernel : Kernel) (d : Bridge) : BatchAction → Prop
  | .sharedGate _ _ _ => ∃ e d', exec (ensureWatcherHost kernel) d = (.error e, d')
  | _ => False

lemma applyAction_tracked {action : BatchAction} (hlasting : Lasting base track) (hstart : base start)
    (hnames : action.Names start) (hslots : ∀ slot ∈ action.slots, slot ∈ fresh)
    (hc : Tracked (Bindable start track fresh) (action.slots + extra) c) :
    Spec (c = ·) (applyAction kernel context token action)
      (fun _ d => ∃ lost : Multiset Slot, (lost ≠ 0 → LosesAction kernel c action) ∧
        Tracked (Bindable start track fresh) (lost + extra) d)
      fun _ _ => False := by
  have hdone : ∀ d, Tracked (Bindable start track fresh) extra d →
      ∃ lost : Multiset Slot, (lost ≠ 0 → LosesAction kernel c action) ∧
        Tracked (Bindable start track fresh) (lost + extra) d :=
    fun d hd => ⟨0, fun hne => absurd rfl hne, hd.regroup (zero_add extra)⟩
  have hstable : Stable (Bindable start track fresh) := .stable hlasting.same
  cases action with
  | consume id planned slot | rebind id slot =>
    obtain ⟨sync, hsync⟩ := hnames
    apply Spec.change
    exact hdone _ (rebindNative_tracked hlasting hstart hsync (hslots slot (by simp [BatchAction.slots])) hc)
  | signal id value slot =>
    apply Spec.change
    exact hdone _ (commitSignal_tracked hlasting value (hc.regroup (zero_add extra).symm))
  | foreignGate foreign gate =>
    refine (orLose_tracked hstable ?_).weaken (fun d hd => hd ▸ hc) (fun _ => hdone) fun _ _ h => h
    apply Spec.of_states
    intro d hd
    exact onCore_takes_tracked hstable hd fun _ => Core.gate_bound foreign
  | sharedGate shared target gate =>
    have hregister : Spec (c = ·) (do
        ensureWatcherHost kernel
        onCore (Core.sharedGate kernel shared target gate))
        (fun _ => Tracked (Bindable start track fresh) extra)
        fun _ d => ∃ lost : Multiset Slot, (lost ≠ 0 → LosesAction kernel c (.sharedGate shared target gate)) ∧
          Tracked (Bindable start track fresh) (lost + extra) d := by
      refine .seq (((ensureWatcherHost_tracked hstable).enter hc).traced.post
        (fun _ _ h => h.1) ?_) fun _ => ?_
      · rintro e d ⟨hd, hrun⟩
        exact ⟨{gate}, fun _ => ⟨e, d, hrun⟩, hd⟩
      apply Spec.of_states
      intro d hd
      exact (onCore_takes_tracked hstable hd fun _ => Core.sharedGate_bound shared target).fallback
        fun _ => hdone
    refine .observe hregister ?_ ?_
    · exact fun _ => .of_pure hdone
    intro e
    apply Spec.of_states
    rintro d ⟨lost, hwhy, hd⟩
    exact ((loseLocked_tracked hstable).enter hd).after fun _ d hd => ⟨lost, hwhy, hd⟩
  | sharedPoint shared target point =>
    have hin : shared < c.core.shareds.length := hc.tracked.shareds ▸ hnames
    have hadd := onCore_takes_tracked hstable hc fun _ => Core.addPoint_bound target hin
    refine .next ((addPoint_total shared target point).spec hadd) ?_
    refine (orLose_tracked hstable ?_).after fun _ => hdone
    refine .next (ensureWatcherHost_tracked hstable) ?_
    exact onCore_keeps_tracked hstable fun _ _ => Core.bound_of_settled fun _ =>
      Core.publish_settled shared

/-- One of the actions loses its gate. -/
def LosesGate (kernel : Kernel) (context token : ℕ) (actions : List BatchAction) (c : Bridge) : Prop :=
  ∃ before action after d, actions = before ++ action :: after ∧
    exec (each (applyAction kernel context token) before) c = (.ok (), d) ∧ LosesAction kernel d action

lemma applyActions_tracked {actions : List BatchAction} (hlasting : Lasting base track)
    (hstart : base start) (hnames : ∀ action ∈ actions, action.Names start)
    (hslots : ∀ slot ∈ actionSlots actions, slot ∈ fresh)
    (hc : Tracked (Bindable start track fresh) (actionSlots actions + extra) c) :
    Spec (c = ·) (each (applyAction kernel context token) actions)
      (fun _ d => ∃ lost : Multiset Slot, (lost ≠ 0 → LosesGate kernel context token actions c) ∧
        Tracked (Bindable start track fresh) (lost + extra) d)
      fun _ _ => False := by
  refine (Spec.of_each_reached (fun rest d => ∃ lost : Multiset Slot,
    (lost ≠ 0 → LosesGate kernel context token actions c) ∧
      Tracked (Bindable start track fresh) (actionSlots rest + (lost + extra)) d) ?_ ?_).after ?_
  · exact ⟨0, fun hne => absurd rfl hne, hc.regroup (by rw [zero_add])⟩
  · rintro before action after d hactions hrun ⟨lost, hwhy, hd⟩
    have hmem : action ∈ actions := by simp [hactions]
    have hfresh : ∀ slot ∈ action.slots, slot ∈ fresh := by
      intro slot hslot
      apply hslots
      rw [hactions, actionSlots_append, actionSlots_cons]
      simp [hslot]
    rw [actionSlots_cons, add_assoc] at hd
    refine (applyAction_tracked hlasting hstart (hnames action hmem) hfresh hd).after ?_
    rintro _ u ⟨more, hmore, hu⟩
    refine ⟨more + lost, ?_, hu.regroup (by abel)⟩
    intro hne
    by_cases hzero : more = 0
    · apply hwhy
      rintro rfl
      exact hne (by rw [hzero, add_zero])
    · exact ⟨before, action, after, d, hactions, hrun, hmore hzero⟩
  · rintro _ d ⟨lost, hwhy, hd⟩
    exact ⟨lost, hwhy, hd.regroup (by simp)⟩

end Apply

/-! ## Submissions -/

/-- Planning stops between the two allocations of a wait for a foreign payload. -/
def SubmitStrands (kernel : Kernel) (scan : Bool) (context : ℕ) (waits : List SyncPoint)
    (foreign : List ℕ) (b : Bridge) : Prop :=
  ∃ ready, exec (preflight kernel scan) b = (.ok (), ready) ∧
    StrandsGate kernel ready context waits foreign

/-- The batch is accepted, but the host listener of one of its gates cannot be
started. -/
def SubmitLoses (kernel : Kernel) (encode : Encoder) (scan : Bool) (context : ℕ) (pushes : List Push)
    (waits : List SyncPoint) (foreign : List ℕ) (signals : List SyncPoint) (b : Bridge) : Prop :=
  ∃ ready token scratch accepted, exec (preflight kernel scan) b = (.ok (), ready) ∧
    exec (submitLocked kernel encode context pushes waits foreign signals) ready =
      (.ok (.ok (.submitted token), scratch), accepted) ∧
    LosesGate kernel context token scratch.actions
      (accepted.recordAcquires context token scratch.acquires)

/-- The batch was not accepted: handles are as they were, and so are references
apart from those that shared payloads, a lost watcher and the queue gave back. -/
structure RolledBack (b : Bridge) (context : ℕ) (extra : Multiset Slot) (why : Prop)
    (batch : List Slot) (d : Bridge) : Prop where
  accounted : ∃ lost : Multiset Slot, (lost ≠ 0 → why) ∧ d.core.Accounted (d.slots + (lost + extra))
  settles : b.core.Settles d.core
  kept : d.core.lost = false → b.core.Kept d.core
  queue : LeavesRecords b context batch d

/-- Both outcomes of a submission. -/
def Settlement (b : Bridge) (context : ℕ) (extra : Multiset Slot) (track : Core → Prop)
    (strands loses : Prop) (batch : List Slot) : SubmitStatus → Bridge → Prop
  | .submitted _ => fun d => ∃ lost : Multiset Slot, (lost ≠ 0 → loses) ∧ Tracked track (lost + extra) d
  | .full _ => RolledBack b context extra strands batch

lemma Keeping.rolledBack {batch : List Slot} (h : Keeping b extra c) :
    RolledBack b context extra why batch c where
  accounted := ⟨0, fun hne => absurd rfl hne, h.accounted.regroup (by rw [zero_add])⟩
  settles := h.settles
  kept := h.kept
  queue := .inl h.records

/-- The allocated slots go back. -/
lemma Refused.rolledBack {why' : Prop} {batch : List Slot} (hready : Keeping b extra ready)
    (h : Refused ready context extra why batch scratch c) (hwhy : why → why') :
    RolledBack b context extra why' batch
      { c with core := c.core.releaseAll scratch.allocated } where
  accounted := by
    obtain ⟨lost, hlost, hc⟩ := h.accounted
    refine ⟨lost, fun hne => hwhy (hlost hne), Core.Accounted.releaseAll (hc.regroup ?_)⟩
    show _ + (c.slots + (lost + extra)) = _
    abel
  settles := (hready.settles.trans h.settles).releaseAll scratch.allocated
  kept := by
    intro halive
    have hc : c.core.lost = false := by
      rw [← halive]
      rw [Core.releaseAll_eq]
    have hready' : ready.core.lost = false := by
      by_contra hlost
      rw [h.settles.lost (by simpa using hlost)] at hc
      cases hc
    exact ((hready.kept hready').trans (h.kept hc)).releaseAll scratch.allocated
  queue := by
    have hlost : (c.core.releaseAll scratch.allocated).lost = c.core.lost := by
      rw [Core.releaseAll_eq]
    have hqueue := h.queue
    unfold LeavesRecords at hqueue ⊢
    rw [hready.records] at hqueue
    rw [hlost]
    exact hqueue

lemma recordAcquires_tracked {token : ℕ} {acquires : List Acquire} (h : Tracked track extra c) :
    Tracked track extra (c.recordAcquires context token acquires) :=
  ⟨h.accounted, h.tracked⟩

/-- The batch was accepted: what its actions need. -/
lemma Accepted.bindable (h : Accepted ready context extra scratch c) (htrack : track c.core) :
    Tracked (Bindable ready.core track scratch.allocated) (actionSlots scratch.actions + extra) c where
  accounted := by
    rw [h.actions]
    exact h.accounted
  tracked := by
    refine ⟨htrack, ?_, h.settles.shareds, h.fresh⟩
    intro id sync hsync
    exact ⟨sync, (Core.syncRef_congr h.settles.syncs id).trans hsync⟩

lemma submit_settlement {scan : Bool} {waits signals : List SyncPoint} {foreign : List ℕ}
    (hlasting : Lasting base track) (hb : Tracked track extra b) :
    Spec (b = ·) (submit kernel encode scan context pushes waits foreign signals)
      (Settlement b context extra track (SubmitStrands kernel scan context waits foreign b)
        (SubmitLoses kernel encode scan context pushes waits foreign signals b)
        ((exec (preflight kernel scan) b).2.batch kernel waits foreign signals))
      fun _ => RolledBack b context extra (SubmitStrands kernel scan context waits foreign b)
        ((exec (preflight kernel scan) b).2.batch kernel waits foreign signals) := by
  refine .seq (((preflight_keeping scan).enter (.start hb.accounted)).traced.fallback
    fun _ _ h => h.1.rolledBack) ?_
  rintro ⟨⟩
  apply Spec.of_states
  rintro ready ⟨hready, hpreflight⟩
  have htracked := hready.tracked hlasting.same hb.tracked
  rw [hpreflight]
  refine .seq ((submitLocked_concluded htracked.accounted).traced.fallback fun _ _ h => h.1.elim) ?_
  rintro ⟨result, scratch⟩
  apply Spec.of_states
  rintro c ⟨hc, hlocked⟩
  have hrollback : Refused ready context extra (StrandsGate kernel ready context waits foreign)
      (ready.batch kernel waits foreign signals) scratch c →
      RolledBack b context extra (SubmitStrands kernel scan context waits foreign b)
        (ready.batch kernel waits foreign signals)
        { c with core := c.core.releaseAll scratch.allocated } :=
    fun h => h.rolledBack hready fun hstrands => ⟨ready, hpreflight, hstrands⟩
  rcases result with e | (token | oldest)
  · refine .known (exec_modify _ c) (.of_outcome ?_ ?_)
    · rintro _ _ _ ⟨⟩
    · rintro _ _ rfl _
      exact hrollback hc
  · have hactions := hc.bindable (hlasting.same _ _ hc.settles.toSameHandles htracked.tracked)
    refine .known (exec_modify _ c) ?_
    refine .seq ((applyActions_tracked hlasting (hlasting.based _ htracked.tracked)
      (fun action haction => (hc.valid action haction).names) ?_
      (recordAcquires_tracked hactions)).fallback fun _ _ h => h.elim) fun _ => ?_
    · intro slot hslot
      rw [hc.actions] at hslot
      exact mem_coe.mp hslot
    apply Spec.of_pure
    rintro d ⟨lost, hloses, hd⟩
    exact ⟨lost, fun hne => ⟨ready, token, scratch, c, hpreflight, hlocked, hloses hne⟩,
      hd.accounted, hd.tracked.tracked⟩
  · refine .known (exec_modify _ c) (.of_outcome ?_ ?_)
    · rintro _ _ rfl ⟨⟩
      exact hrollback hc
    · rintro _ _ _ ⟨⟩

end Bridge

end NvidiaProlapse
