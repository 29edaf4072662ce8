import NvidiaProlapse.PlanAccounts

/-!
# What a bridge keeps outside of submissions

The queues of a bridge own slots besides the owners in its core. `Keeping b extra c`
says that `c` comes from `b` with every reference accounted for, no handle changed
and no queue giving up or taking a slot. Marking queues and losing the device, which
a call may do at any time, keeps all of it.
-/
namespace NvidiaProlapse
open Programs

/-- What a queue owns: its retirement word and held slots, with the last token its
ledger retired. -/
structure QueueRecord where
  retire : Slot
  retired : ℕ
  held : List (ℕ × Slot)

def Queue.owned (queue : Queue) : QueueRecord :=
  ⟨queue.shared.retire, queue.ledger.retired, queue.held⟩

namespace Bridge

/-- What the queues own, context by context. -/
def records (bridge : Bridge) : List (Option QueueRecord) :=
  bridge.queues.map (Option.map Queue.owned)

def recordSlots : Option QueueRecord → Multiset Slot
  | some owned => {owned.retire} + (owned.held.map Prod.snd : Multiset Slot)
  | none => 0

/-- The slots all queues own. -/
def slots (bridge : Bridge) : Multiset Slot := (bridge.records.map recordSlots).sum

structure Keeping (b : Bridge) (extra : Multiset Slot) (c : Bridge) : Prop where
  accounted : c.core.Accounted (c.slots + extra)
  settles : b.core.Settles c.core
  kept : c.core.lost = false → b.core.Kept c.core
  records : c.records = b.records

variable {kernel : Kernel} {b c : Bridge} {extra : Multiset Slot}

lemma Keeping.start (h : b.core.Accounted (b.slots + extra)) : Keeping b extra b :=
  ⟨h, .refl _, fun _ => .refl _, rfl⟩

lemma slots_congr (h : c.records = b.records) : c.slots = b.slots := by
  unfold slots
  rw [h]

/-- A change that touches no slot, handle or registration. -/
lemma Keeping.congr {d : Bridge} (h : Keeping b extra c) (hcore : d.core = c.core)
    (hrecords : d.records = c.records) : Keeping b extra d := by
  refine ⟨?_, ?_, ?_, hrecords.trans h.records⟩
  · rw [hcore, slots_congr hrecords]
    exact h.accounted
  · rw [hcore]
    exact h.settles
  · rw [hcore]
    exact h.kept

lemma onCore_keeping {α : Type} {p : Prog Core Error α}
    (hp : ∀ s extra, Keeps (Core.From s extra) p) : Keeps (Keeping b extra) (onCore p) := by
  apply Spec.of_focus
  intro c hc
  have hnext : ∀ t, Core.From c.core (c.slots + extra) t →
      Keeping b extra { c with core := t } := by
    intro t ht
    refine ⟨ht.accounted, hc.settles.trans ht.kept.toSettles, ?_, hc.records⟩
    intro halive
    refine (hc.kept ?_).trans ht.kept
    by_contra hlost
    rw [ht.kept.lost (by simpa using hlost)] at halive
    cases halive
  exact ((hp _ _).enter (.start hc.accounted)).post (fun _ => hnext) fun _ => hnext

lemma request_keeping {α : Type} (answer : ℕ → Result α) :
    Keeps (Keeping b extra) (onCore (Core.request answer)) :=
  onCore_keeping fun _ _ => Core.request_from answer

/-! ## Device loss -/

/-- A lost device may drop its registrations. -/
lemma Keeping.lost {t : Core} (h : Keeping b extra c) (ht : Core.Settled c.core (c.slots + extra) t)
    (hlost : t.lost = true) : Keeping b extra { c with core := t } := by
  refine ⟨ht.accounted, h.settles.trans ht.settles, ?_, h.records⟩
  intro halive
  rw [show ({ c with core := t } : Bridge).core.lost = true from hlost] at halive
  cases halive

lemma loseLocked_loses :
    Spec (Keeping b extra) loseLocked (fun _ c => Keeping b extra c ∧ c.core.lost = true)
      fun _ => Keeping b extra := by
  refine .write (fun c => Keeping b extra c ∧ c.core.lost = true) ?_ ?_
  · intro c hc
    exact ⟨hc.lost (Core.Settled.markLost ⟨hc.accounted, .refl _⟩) rfl, rfl⟩
  apply Spec.read
  rintro c ⟨hc, hlost⟩
  refine .either (.of_pure fun d hd => hd ▸ ⟨hc, hlost⟩) ?_
  refine .write (fun d => Keeping b extra d ∧ d.core.lost = true) ?_ ?_
  · rintro _ rfl
    refine ⟨hc.congr rfl ?_, hlost⟩
    unfold Bridge.records
    rw [List.map_map]
    congr 1
    funext queue
    cases queue <;> rfl
  · apply Spec.of_focus
    rintro d ⟨hd, hlost⟩
    refine (Core.failAll_settled.enter ⟨hd.accounted, .refl _⟩).post ?_ ?_
    · intro _ t ht
      exact ⟨hd.lost ht (ht.settles.lost hlost), ht.settles.lost hlost⟩
    · intro _ t ht
      exact hd.lost ht (ht.settles.lost hlost)

lemma loseLocked_keeping : Keeps (Keeping b extra) loseLocked :=
  loseLocked_loses.after fun _ _ h => h.1

lemma loseLocked_total : Total loseLocked := by
  refine .seq (.of_modify _) fun _ => .read fun _ => ?_
  refine .branch (.of_pure _) (.seq (.of_modify _) fun _ => ?_)
  exact .of_focus Core.failAll_total

lemma orLose_keeping {p : Prog Bridge Error Unit} (hp : Keeps (Keeping b extra) p) :
    Keeps (Keeping b extra) (orLose p) :=
  Spec.observe hp (fun _ => .ret) fun _ => loseLocked_keeping

/-! ## The checks before a batch -/

variable {context : ℕ} {queue : Queue}

lemma queueRef_eq_ok :
    b.queueRef context = .ok queue ↔ context ≠ 0 ∧ b.queues[context - 1]? = some (some queue) := by
  unfold queueRef
  split_ifs with h0
  · simp [h0]
  split
  · next found hfound => simp [h0, hfound]
  · next hnone =>
    simp only [false_iff, not_and, reduceCtorEq]
    exact fun _ => hnone queue

lemma records_setQueue (context : ℕ) (queue : Queue) :
    (b.setQueue context queue).records = b.records.set (context - 1) (some queue.owned) := by
  unfold records setQueue
  rw [List.map_set]
  rfl

lemma records_getElem? (h : b.queueRef context = .ok queue) :
    b.records[context - 1]? = some (some queue.owned) := by
  unfold records
  rw [List.getElem?_map, (queueRef_eq_ok.mp h).2]
  rfl

/-- A queue that owns what it owned. -/
lemma records_setQueue_same (h : b.records[context - 1]? = some (some queue.owned)) :
    (b.setQueue context queue).records = b.records := by
  obtain ⟨hlt, heq⟩ := List.getElem?_eq_some_iff.mp h
  rw [records_setQueue, ← heq]
  exact List.set_getElem_self hlt

lemma checkError_keeping (context : ℕ) : Keeps (Keeping b extra) (checkError kernel context) := by
  apply Spec.read
  intro c hc
  have hsame : ∀ d, c = d → Keeping b extra d := fun d hd => hd ▸ hc
  cases hqueue : c.queueRef context with
  | error e => exact .of_pure hsame
  | ok queue =>
    refine .either (.of_throw hsame) ?_
    refine .observe ((request_keeping kernel.serve).enter hc) ?_ ?_
    · exact fun _ => .ret
    intro e
    refine .write (Keeping b extra) ?_ Spec.raise
    intro d hd
    refine hd.congr rfl (records_setQueue_same ?_)
    rw [hd.records, ← hc.records]
    exact (records_getElem? hqueue :)

lemma scanLocked_keeping : Keeps (Keeping b extra) (scanLocked kernel) := by
  have hlose : ∀ e : Error, Keeps (Keeping b extra) (do
      loseLocked
      throw e : Prog Bridge Error Unit) :=
    fun e => Spec.next loseLocked_keeping Spec.raise
  apply Spec.read
  intro c hc
  refine .either ((hlose _).enter hc) ?_
  apply Spec.look
  refine Spec.observe ((Keeps.of_each (fun i => checkError_keeping (i + 1)) _).enter hc) ?_ ?_
  · intro _
    refine .observe (request_keeping kernel.serve) ?_ ?_
    · exact fun _ => .ret
    · exact fun _ => hlose _
  · exact fun e => hlose _

lemma reclaim_keeping : Keeps (Keeping b extra) (reclaim kernel) :=
  orLose_keeping (request_keeping kernel.serve)

lemma onCore_live_keeps (inv : Bridge → Prop) : Keeps inv (onCore Core.live) := by
  apply Spec.of_focus
  intro c hc
  refine (Core.live_keeps (c.core = ·)).post ?_ ?_
  all_goals
    rintro _ _ rfl
    exact hc

lemma preflight_keeping (scan : Bool) : Keeps (Keeping b extra) (preflight kernel scan) := by
  refine Spec.next (onCore_live_keeps _) ?_
  refine Spec.next (Keeps.onlyIf scanLocked_keeping) ?_
  exact reclaim_keeping

/-! ## Properties of the handles -/

/-- A property that only the handles and the history of allocations decide, and that
further allocations keep. -/
def Stable (track : Core → Prop) : Prop := ∀ s t, Core.SameHandles s t → track s → track t

/-- References accounted for, with a property of the core. -/
structure Tracked (track : Core → Prop) (extra : Multiset Slot) (b : Bridge) : Prop where
  accounted : b.core.Accounted (b.slots + extra)
  tracked : track b.core

variable {track : Core → Prop}

lemma Keeping.tracked (h : Keeping b extra c) (htrack : Stable track) (hb : track b.core) :
    Tracked track extra c :=
  ⟨h.accounted, htrack _ _ h.settles.toSameHandles hb⟩

lemma tracked_of_keeping {α : Type} {p : Prog Bridge Error α} (htrack : Stable track)
    (hp : ∀ b, Keeps (Keeping b extra) p) : Keeps (Tracked track extra) p := by
  apply Spec.of_states
  intro b hb
  refine ((hp b).enter (.start hb.accounted)).post ?_ ?_
  all_goals exact fun _ c hc => hc.tracked htrack hb.tracked

lemma Tracked.regroup {extra' : Multiset Slot} (h : Tracked track extra b) (heq : extra' = extra) :
    Tracked track extra' b := heq ▸ h

/-- A program of the core that turns the references `left` into `owned`, or into
`failed`. -/
lemma onCore_tracked_at {α : Type} {p : Prog Core Error α} {left failed : Multiset Slot}
    {owned : α → Multiset Slot} (htrack : Stable track) (hb : Tracked track (left + extra) b)
    (hp : ∀ rest, Spec (Core.Bound b.core (left + rest)) p (fun a => Core.Bound b.core (owned a + rest))
      fun _ => Core.Bound b.core (failed + rest)) :
    Spec (b = ·) (onCore p) (fun a => Tracked track (owned a + extra))
      fun _ => Tracked track (failed + extra) := by
  apply Spec.of_focus
  rintro _ rfl
  have hnext : ∀ (slots : Multiset Slot) (t : Core), Core.Bound b.core (slots + (b.slots + extra)) t →
      Tracked track (slots + extra) { b with core := t } := by
    intro slots t ht
    refine ⟨ht.accounted.regroup ?_, htrack _ _ ht.handles hb.tracked⟩
    show b.slots + (slots + extra) = slots + (b.slots + extra)
    abel
  refine ((hp (b.slots + extra)).enter ⟨hb.accounted.regroup ?_, .refl _⟩).post
    (fun a t => hnext (owned a) t) fun _ t => hnext failed t
  abel

/-- A program of the core that keeps the handles and the references. -/
lemma onCore_keeps_tracked {α : Type} {p : Prog Core Error α} (htrack : Stable track)
    (hp : ∀ s extra, Keeps (Core.Bound s extra) p) : Keeps (Tracked track extra) (onCore p) := by
  apply Spec.of_states
  intro b hb
  have h := @onCore_tracked_at b extra track α p 0 0 (fun _ => 0) htrack (hb.regroup (zero_add extra))
    fun rest => by simpa only [zero_add, Keeps] using hp b.core rest
  simpa only [zero_add] using h

/-- A program of the core that takes over one reference, also where it fails. -/
lemma onCore_takes_tracked {α : Type} {p : Prog Core Error α} {slot : Slot} (htrack : Stable track)
    (hb : Tracked track ({slot} + extra) b)
    (hp : ∀ rest, Spec (Core.Bound b.core ({slot} + rest)) p (fun _ => Core.Bound b.core rest)
      fun _ => Core.Bound b.core rest) :
    Ends b (onCore p) (Tracked track extra) := by
  have h := @onCore_tracked_at b extra track α p {slot} 0 (fun _ => 0) htrack hb
    fun rest => by simpa only [zero_add] using hp rest
  simpa only [zero_add] using h

end Bridge

end NvidiaProlapse
