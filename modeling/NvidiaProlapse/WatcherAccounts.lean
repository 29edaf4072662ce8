import NvidiaProlapse.HandleAccounts

/-!
# What the watcher does to slot references

A registration takes one reference to its gate slot, a sweep gives it back with the
registration. Neither touches a handle.
-/
namespace NvidiaProlapse.Core
open Programs Multiset

variable {kernel : Kernel} {extra : Multiset Slot} {s t : Core} {slot : Slot}

/-- References accounted for, after changes that settle what `s` had registered. -/
structure Settled (s : Core) (extra : Multiset Slot) (t : Core) : Prop where
  accounted : t.Accounted extra
  settles : Settles s t

/-- References accounted for, with the handles of `s`. -/
structure Bound (s : Core) (extra : Multiset Slot) (t : Core) : Prop where
  accounted : t.Accounted extra
  handles : SameHandles s t

lemma From.settled (h : From s extra t) : Settled s extra t := ⟨h.accounted, h.kept.toSettles⟩

lemma Settled.after {u : Core} (h : Settled t extra u) (hs : Settles s t) : Settled s extra u :=
  ⟨h.accounted, hs.trans h.settles⟩

variable {p : Prog Core Error α} {α : Type} {change : Watcher → Watcher}

lemma settled_of_from (h : ∀ s, Keeps (From s extra) p) : Keeps (Settled s extra) p := by
  apply Spec.of_states
  intro t ht
  refine ((h t).enter (.start ht.accounted)).post ?_ ?_
  all_goals
    intro _ u hu
    exact hu.settled.after ht.settles

lemma bound_of_settled (h : ∀ s, Keeps (Settled s extra) p) : Keeps (Bound s extra) p := by
  apply Spec.of_states
  intro t ht
  refine ((h t).enter ⟨ht.accounted, .refl t⟩).post ?_ ?_
  all_goals
    intro _ u hu
    exact ⟨hu.accounted, ht.handles.trans hu.settles.toSameHandles⟩

/-- A dropped payload leaves the handles alone. -/
lemma dropPayload_sameHandles (core : Core) (payload : Payload) :
    SameHandles core (core.dropPayload payload) := by
  cases payload with
  | native slot => exact ⟨rfl, rfl, fun _ => le_rfl⟩
  | foreign foreign => exact .refl core
  | shared shared =>
    show SameHandles core (core.dropShared shared)
    unfold Core.dropShared
    split_ifs
    · exact .refl core
    · rw [releaseAll_eq, releaseAll_eq]
      exact ⟨rfl, List.length_set, fun _ => le_rfl⟩

/-! ## Registrations -/

/-- A change of the watcher that touches no gate. -/
lemma Settled.setWatcher (h : Settled s extra t)
    (hgates : (change t.watcher).gates = t.watcher.gates)
    (hsharedGates : (change t.watcher).sharedGates = t.watcher.sharedGates) :
    Settled s extra (t.setWatcher change) :=
  ⟨h.accounted.congr rfl rfl rfl rfl rfl rfl hgates hsharedGates,
    h.settles.congr rfl rfl rfl rfl hgates hsharedGates fun h => h⟩

lemma ensureStarted_settled : Keeps (Settled s extra) (ensureStarted kernel) := by
  apply Spec.read
  intro t ht
  refine .either (.unchanged ht) ?_
  refine .guarded ht fun _ => ?_
  refine .seq ((settled_of_from fun _ => request_from kernel.serve).enter ht) ?_
  intro _
  exact .of_modify fun u hu => hu.setWatcher rfl rfl

lemma watchCpu_settled (foreign : ℕ) : Keeps (Settled s extra) (watchCpu kernel foreign) := by
  refine .seq ensureStarted_settled ?_
  intro _
  apply Spec.of_modify
  intro u hu
  apply hu.setWatcher
  · split_ifs <;> rfl
  · split_ifs <;> rfl

lemma publish_settled (shared : ℕ) : Keeps (Settled s extra) (publish kernel shared) := by
  refine .seq ensureStarted_settled ?_
  intro _
  apply Spec.of_modify
  intro u hu
  apply hu.setWatcher
  · split_ifs <;> rfl
  · split_ifs <;> rfl

/-- The registration owns the reference, which is dropped where it fails. -/
lemma register_bound {push : Watcher → Watcher}
    (hpush : ∀ core : Core, (core.setWatcher push).gateSlots = core.gateSlots + {slot}) :
    Spec (Bound s ({slot} + extra)) (register kernel slot push) (fun _ => Bound s extra)
      fun _ => Bound s extra := by
  refine .observe (bound_of_settled fun _ => ensureStarted_settled) ?_ ?_
  · intro _
    apply Spec.of_modify
    intro u hu
    refine ⟨hu.accounted.exchange rfl ?_ hu.accounted.handles, hu.handles.syncs, hu.handles.shareds, hu.handles.taken⟩
    show u.payloadSlots + u.sharedSlots + (u.setWatcher push).gateSlots + extra =
      u.payloadSlots + u.sharedSlots + u.gateSlots + ({slot} + extra)
    rw [hpush]
    abel
  · intro e
    refine .write (Bound s extra) ?_ Spec.raise
    intro u hu
    exact ⟨hu.accounted.release, hu.handles.syncs, hu.handles.shareds, hu.handles.taken⟩

lemma gate_bound (foreign : ℕ) :
    Spec (Bound s ({slot} + extra)) (gate kernel foreign slot) (fun _ => Bound s extra)
      fun _ => Bound s extra := by
  apply register_bound
  intro core
  simp [gateSlots, setWatcher, ← coe_add]
  abel

lemma sharedGate_bound (shared target : ℕ) :
    Spec (Bound s ({slot} + extra)) (sharedGate kernel shared target slot)
      (fun _ => Bound s extra) fun _ => Bound s extra := by
  apply register_bound
  intro core
  simp [gateSlots, setWatcher, ← coe_add]
  abel

/-! ## Points of shared payloads -/

lemma insertPoint_slots (target : ℕ) (point : Slot) (points : List (ℕ × Slot)) :
    ((insertPoint target point points).1.map Prod.snd : Multiset Slot) +
        ((insertPoint target point points).2.toList : Multiset Slot) =
      (points.map Prod.snd : Multiset Slot) + {point} := by
  induction points with
  | nil => simp [insertPoint]
  | cons head rest ih =>
    unfold insertPoint
    split_ifs
    · simp only [List.map_cons, ← cons_coe, ← singleton_add, Option.toList_none, coe_nil]
      abel
    · simp only [List.map_cons, ← cons_coe, ← singleton_add, Option.toList_some, coe_nil]
      abel
    · simp [← cons_coe, ← singleton_add, add_assoc, ih]

/-- The shared payload takes over the reference to the new point. -/
lemma addPoint_bound {shared : ℕ} (target : ℕ) (hin : shared < s.shareds.length) :
    Spec (Bound s ({slot} + extra)) (addPoint shared target slot) (fun _ => Bound s extra)
      fun _ => Bound s extra := by
  have hmaximum : ∀ extra word, Keeps (Bound s extra) (maximum shared word target) :=
    fun _ word => bound_of_settled fun _ => settled_of_from fun _ => maximum_from shared word target
  apply Spec.read
  intro t ht
  have hraise : Spec (t = ·) (onlyIf ((t.sharedAt shared).timeline = false)
      (ignore (maximum shared .target target)))
      (fun _ u => Bound s ({slot} + extra) u ∧ u.sharedAt shared = t.sharedAt shared)
      fun _ => Bound s extra := by
    refine .either ?_ (.of_pure fun u hu => hu ▸ ⟨ht, rfl⟩)
    refine .known (exec_maximum t shared .target target) (.of_pure ?_)
    rintro _ rfl
    exact ⟨⟨ht.accounted.congr rfl rfl rfl rfl rfl rfl rfl rfl, ht.handles.syncs,
      ht.handles.shareds, ht.handles.taken⟩, rfl⟩
  refine Spec.next hraise ?_
  refine Spec.write (Bound s extra) ?_ (Keeps.ignore (hmaximum extra .pending))
  rintro u ⟨hu, hobject⟩
  refine ⟨.releaseAll (hu.accounted.trade ?_ ?_), ?_⟩
  · rw [hu.handles.shareds]
    exact hin
  · have hslots := insertPoint_slots target slot (t.sharedAt shared).points
    rw [hobject]
    simp only [Shared.slots]
    rw [add_right_comm, hslots, add_right_comm]
  · rw [releaseAll_eq]
    refine ⟨hu.handles.syncs, ?_, hu.handles.taken⟩
    show (u.shareds.set shared _).length = _
    rw [List.length_set]
    exact hu.handles.shareds

/-! ## Sweeps -/

/-- One holder of a shared payload less. -/
lemma Settled.dropShared (h : Settled s extra t) (shared : ℕ) :
    Settled s extra (t.dropShared shared) := by
  refine ⟨h.accounted.dropShared shared, ?_⟩
  unfold Core.dropShared
  split_ifs
  · exact h.settles
  apply Settles.releaseAll
  apply Settles.releaseAll
  apply h.settles.setShared
  simp only [Shared.slots, List.map_nil, coe_nil, add_zero, zero_add]
  rfl

/-- A visit that keeps the watcher keeps what a sweep still has to visit. -/
lemma visit_settled {β : Type} (list : Watcher → β) (hvisit : ∀ t, Keeps (From t extra) p)
    (left : β) : Spec (fun u => Settled s extra u ∧ list u.watcher = left) p
      (fun _ u => Settled s extra u ∧ list u.watcher = left) fun _ => Settled s extra := by
  apply Spec.of_states
  rintro u ⟨hu, hleft⟩
  refine ((hvisit u).enter (.start hu.accounted)).post ?_ ?_
  · intro _ v hv
    refine ⟨hv.settled.after hu.settles, ?_⟩
    rw [hv.kept.watcher, hleft]
  · intro _ v hv
    exact hv.settled.after hu.settles

/-- A registration goes with its reference. -/
lemma Settled.dropGate (h : Settled s extra t)
    (hslots : t.gateSlots = (t.setWatcher change).gateSlots + {slot}) :
    Settled s extra ((t.setWatcher change).release slot) := by
  refine ⟨.release (h.accounted.exchange rfl ?_ h.accounted.handles), ?_⟩
  · show t.payloadSlots + t.sharedSlots + (t.setWatcher change).gateSlots + ({slot} + extra) =
      t.payloadSlots + t.sharedSlots + t.gateSlots + extra
    rw [hslots]
    abel
  · refine ⟨{ h.settles with }, h.settles.sharedSlots, ?_, h.settles.view, h.settles.lost⟩
    calc (t.setWatcher change).gateSlots
        ≤ (t.setWatcher change).gateSlots + {slot} := le_add_right _ _
      _ = t.gateSlots := hslots.symm
      _ ≤ s.gateSlots := h.settles.gateSlots

lemma watcher_dropShared (core : Core) (shared : ℕ) :
    (core.dropShared shared).watcher = core.watcher := by
  unfold Core.dropShared
  split_ifs
  · rfl
  · rw [releaseAll_eq, releaseAll_eq]
    rfl

lemma sweepGates_settled {visit : ℕ × Slot → Bool → Prog Core Error (Bool × Bool)}
    (hvisit : ∀ gate lost t, Keeps (From t extra) (visit gate lost)) (lost : Bool) :
    Keeps (Settled s extra) (sweepGates visit lost) := by
  apply Spec.read
  intro t ht
  refine ((Spec.of_sweep (fun left u => Settled s extra u ∧ u.watcher.gates = left) ?_ ?_ []
    t.watcher.gates lost).enter ⟨ht, rfl⟩).after ?_
  · intro kept gate rest lost
    exact visit_settled Watcher.gates (hvisit gate lost) _
  · rintro kept gate rest u ⟨hu, hgates⟩
    refine ⟨hu.dropGate ?_, rfl⟩
    simp [gateSlots, setWatcher, hgates, ← coe_add, ← cons_coe, ← singleton_add]
    abel
  · rintro _ u ⟨left, hu, -⟩
    exact hu

lemma sweepSharedGates_settled {visit : ℕ × ℕ × Slot → Bool → Prog Core Error (Bool × Bool)}
    (hvisit : ∀ gate lost t, Keeps (From t extra) (visit gate lost)) (lost : Bool) :
    Keeps (Settled s extra) (sweepSharedGates visit lost) := by
  apply Spec.read
  intro t ht
  refine ((Spec.of_sweep (fun left u => Settled s extra u ∧ u.watcher.sharedGates = left) ?_ ?_ []
    t.watcher.sharedGates lost).enter ⟨ht, rfl⟩).after ?_
  · intro kept gate rest lost
    exact visit_settled Watcher.sharedGates (hvisit gate lost) _
  · rintro kept gate rest u ⟨hu, hgates⟩
    constructor
    · apply Settled.dropShared
      apply hu.dropGate
      simp [gateSlots, setWatcher, hgates, ← coe_add, ← cons_coe, ← singleton_add]
      abel
    · rw [watcher_dropShared]
      rfl
  · rintro _ u ⟨left, hu, -⟩
    exact hu

lemma sweepPublish_settled {visit : ℕ → Bool → Prog Core Error (Bool × Bool)}
    (hvisit : ∀ shared lost t, Keeps (From t extra) (visit shared lost)) (lost : Bool) :
    Keeps (Settled s extra) (sweepPublish visit lost) := by
  apply Spec.read
  intro t ht
  refine ((Spec.of_sweep (fun _ => Settled s extra) ?_ ?_ [] t.watcher.publish lost).enter ht).after ?_
  · intro _ shared _ lost
    exact settled_of_from (hvisit shared lost)
  · intro _ shared _ u hu
    apply Settled.dropShared
    exact hu.setWatcher rfl rfl
  · rintro _ u ⟨left, hu⟩
    exact hu

/-! ## Device loss and service rounds -/

lemma failUnfinished_from (shared : ℕ) : Keeps (From s extra) (failUnfinished shared) := by
  apply Spec.read
  intro t ht
  refine .either ?_ (.unchanged ht)
  have hfail : Keeps (From s extra) (fail shared) :=
    Spec.observe (refresh_from shared) (fun _ => store_from shared 1 (by decide)) fun _ =>
      store_from shared 1 (by decide)
  exact .seq (hfail.enter ht) fun _ => .ret

lemma failAll_settled : Keeps (Settled s extra) failAll := by
  apply Spec.read
  intro t ht
  refine Spec.seq ((Keeps.of_each (fun shared => settled_of_from fun _ => failUnfinished_from shared)
    t.watcher.publish).enter ht) ?_
  intro _
  refine Spec.seq (sweepPublish_settled (fun shared lost u => ?_) false) ?_
  · exact .read fun v hv => .unchanged hv
  intro _
  refine .write (Settled s extra) (fun u hu => hu.setWatcher rfl rfl) ?_
  refine .seq (sweepGates_settled (fun _ _ _ => .ret) false) fun _ => ?_
  refine .seq (sweepSharedGates_settled (fun _ _ _ => .ret) false) fun _ => ?_
  exact .ret

lemma failUnfinished_total (shared : ℕ) : Total (failUnfinished shared) := by
  have hstore : Total (store shared .error 1) :=
    Total.read fun _ => .seq (.of_modify _) fun _ => .of_pure _
  have hfail : Total (fail shared) := .seq (.of_attempt _) fun _ => hstore
  refine .read fun _ => .branch ?_ (.of_pure _)
  exact .seq hfail fun _ => .of_pure _

/-- Device loss cannot fail. -/
lemma failAll_total : Total failAll := by
  refine .read fun t => .seq (.of_each failUnfinished_total _) fun _ => ?_
  refine .seq (.read fun _ => .of_sweep (fun _ _ => ?_) _ _ _) fun _ => ?_
  · exact .read fun _ => .of_pure _
  refine .seq (.of_modify _) fun _ => ?_
  refine .seq (.read fun _ => .of_sweep (fun _ _ => .of_pure _) _ _ _) fun _ => ?_
  refine .seq (.read fun _ => .of_sweep (fun _ _ => .of_pure _) _ _ _) fun _ => ?_
  exact .of_pure _

lemma openGate_from (slot : Slot) : Keeps (From s extra) (openGate slot) := by
  apply Spec.read
  intro t ht
  split
  · next pool hstore =>
    apply Spec.change
    exact ht.stored (sameSlots_store32 hstore)
  · exact .unchanged ht

lemma serviceGate_from (readable : ℕ → Bool) (gate : ℕ × Slot) (lost : Bool) :
    Keeps (From s extra) (serviceGate kernel readable gate lost) := by
  apply Spec.read
  intro t ht
  refine .either (.unchanged ht) ?_
  refine .either (.unchanged ht) ?_
  refine .observe ((foreignStatus_from gate.1).enter ht) ?_ ?_
  · intro status
    refine .either Spec.ret ?_
    refine .either ?_ Spec.ret
    exact .next (openGate_from gate.2) Spec.ret
  · exact fun _ => .ret

lemma servicePublish_from (shared : ℕ) (lost : Bool) :
    Keeps (From s extra) (servicePublish shared lost) := by
  refine .observe (refresh_from shared) ?_ ?_
  all_goals exact fun _ => .read fun t ht => .unchanged ht

lemma serviceSharedGate_from (gate : ℕ × ℕ × Slot) (lost : Bool) :
    Keeps (From s extra) (serviceSharedGate gate lost) := by
  have hrest : ∀ t, From s extra t → Spec (t = ·) (
      if gate.2.1 ≤ t.load gate.1 .completed then do
        openGate gate.2.2
        pure (false, lost)
      else if t.failed gate.1 || lost then pure (false, true)
      else pure (true, lost)) (fun _ => From s extra) fun (_ : Error) => From s extra := by
    intro t ht
    refine .either ?_ ?_
    · exact .next ((openGate_from gate.2.2).enter ht) Spec.ret
    · exact .either (.unchanged ht) (.unchanged ht)
  refine .observe (refresh_from gate.1) ?_ ?_
  all_goals exact fun _ => .read hrest

lemma serviceWait_settled (readable : ℕ → Bool) (foreign : ℕ) (lost : Bool) :
    Keeps (Settled s extra) (serviceWait kernel readable foreign lost) := by
  apply Spec.read
  intro t ht
  refine .either (.unchanged ht) ?_
  refine .either (.unchanged ht) ?_
  refine .observe ((settled_of_from fun _ => foreignStatus_from foreign).enter ht) ?_ ?_
  all_goals exact fun _ => .ret

lemma serviceShared_settled (event lost : Bool) :
    Keeps (Settled s extra) (serviceShared event lost) := by
  refine .either ?_ Spec.ret
  refine .seq (sweepPublish_settled (fun shared lost _ => servicePublish_from shared lost) lost) ?_
  intro lost
  exact sweepSharedGates_settled (fun gate lost _ => serviceSharedGate_from gate lost) lost

/-- A store into slot words. -/
lemma Settled.stored {pool : SlotPool} (h : Settled s extra t) (hpool : SameSlots t.pool pool) :
    Settled s extra { t with pool := pool } := by
  refine ⟨h.accounted.stored hpool, ?_⟩
  obtain ⟨words, rfl⟩ := hpool
  exact h.settles.congr rfl rfl rfl rfl rfl rfl fun h => h

lemma Settled.setMemories (h : Settled s extra t) (memories : List SyncMemory) :
    Settled s extra { t with memories := memories } :=
  ⟨h.accounted.congr rfl rfl rfl rfl rfl rfl rfl rfl,
    h.settles.congr rfl rfl rfl rfl rfl rfl fun h => h⟩

lemma Settled.markLost (h : Settled s extra t) : Settled s extra t.markLost :=
  ⟨h.accounted.congr rfl rfl rfl rfl rfl rfl rfl rfl,
    h.settles.congr rfl rfl rfl rfl rfl rfl fun _ => rfl⟩

lemma service_settled (readable : ℕ → Bool) (event : Bool) :
    Keeps (Settled s extra) (service kernel readable event) := by
  apply Spec.read
  intro t ht
  refine .either (failAll_settled.enter ht) ?_
  refine Spec.seq ((sweepGates_settled
    (fun gate lost _ => serviceGate_from readable gate lost) false).enter ht) ?_
  intro lost
  apply Spec.read
  intro u hu
  have hwaits : Keeps (Settled s extra)
      (sweep (fun waits core => core.setWatcher fun w => { w with waits := waits })
        (serviceWait kernel readable) (fun _ core => core) [] u.watcher.waits lost) := by
    refine (Spec.of_sweep (fun _ => Settled s extra) ?_ ?_ [] u.watcher.waits lost).after ?_
    · intro _ foreign _ lost
      exact serviceWait_settled readable foreign lost
    · intro _ _ _ v hv
      exact hv.setWatcher rfl rfl
    · rintro _ v ⟨-, hv⟩
      exact hv
  refine .seq (hwaits.enter hu) ?_
  intro lost
  refine Spec.seq (serviceShared_settled event lost) ?_
  intro lost
  exact Keeps.onlyIf (Spec.of_modify fun _ hv => hv.markLost)

end NvidiaProlapse.Core
