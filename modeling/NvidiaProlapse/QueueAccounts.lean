import NvidiaProlapse.Queue
import NvidiaProlapse.WatcherAccounts
import Mathlib.Data.List.TakeWhile

/-!
# What a queue submission does to slot references

A queue owns its retirement word and the held slots of accepted batches. A
submission gives back those of retired batches and, from its acceptance on, owns one
reference to each slot of its own batch.
-/
namespace NvidiaProlapse
open Programs Gpfifo Multiset List

namespace Core

variable {s t : Core} {extra : Multiset Slot}

lemma Kept.releaseAll (h : Kept s t) (slots : List Slot) : Kept s (t.releaseAll slots) := by
  refine ⟨h.toSettles.releaseAll slots, h.toRefreshed.congr ?_ ?_, ?_⟩
  · rw [releaseAll_eq]
  · rw [releaseAll_eq]
  · rw [releaseAll_eq]
    exact h.watcher

variable {slots : List Slot}

lemma From.releaseAll (h : From s ((slots : Multiset Slot) + extra) t) :
    From s extra (t.releaseAll slots) :=
  ⟨h.accounted.releaseAll, h.kept.releaseAll slots⟩

/-- Slots somebody owns may be retained. -/
lemma From.retainAll (h : From s extra t) (howned : ∀ slot ∈ slots, slot ∈ t.owners + extra) :
    From s ((slots : Multiset Slot) + extra) (slots.foldl retain t) := by
  induction slots generalizing t extra with
  | nil => exact h.regroup (by simp)
  | cons slot slots ih =>
    have hslot := h.accounted.retain (howned slot mem_cons_self)
    have hfirst : From s ({slot} + extra) (t.retain slot) :=
      ⟨hslot, h.kept.toSettles.congr rfl rfl rfl rfl rfl rfl fun h => h,
        h.kept.toRefreshed.congr rfl rfl, h.kept.watcher⟩
    refine (ih hfirst ?_).regroup ?_
    · intro other hother
      have hmem := howned other (mem_cons_of_mem slot hother)
      simp only [mem_add] at hmem ⊢
      tauto
    · rw [← cons_coe, ← singleton_add]
      abel

end Core

namespace Queue

/-- What a queue owns. -/
def slots (queue : Queue) : Multiset Slot :=
  {queue.shared.retire} + (queue.held.map Prod.snd : Multiset Slot)

/-- Held slots of retired batches were given back. -/
def GivesBack (retired : ℕ) (before after : List (ℕ × Slot)) : Prop :=
  ∃ dropped, before = dropped ++ after ∧ ∀ held ∈ dropped, held.1 ≤ retired

structure Kept (before after : Queue) : Prop where
  retire : after.shared.retire = before.shared.retire
  held : GivesBack after.ledger.retired before.held after.held

/-- The queue owns the slots of one more batch. -/
structure Holds (before : Queue) (batch : List Slot) (after : Queue) : Prop where
  retire : after.shared.retire = before.shared.retire
  held : ∃ token left, GivesBack after.ledger.retired before.held left ∧
    after.held = left ++ batch.map fun slot => (token, slot)

/-- References accounted for, with a property of the queue. -/
structure Cell (s : Core) (extra : Multiset Slot) (shape : Queue → Prop) (cell : QueueCell) : Prop where
  core : Core.From s (cell.queue.slots + extra) cell.core
  shape : shape cell.queue

variable {kernel : Kernel} {s : Core} {extra : Multiset Slot} {shape : Queue → Prop} {q : Queue}

lemma Kept.same {queue : Queue} (hretire : queue.shared.retire = q.shared.retire)
    (hheld : queue.held = q.held) : Kept q queue :=
  ⟨hretire, [], hheld.symm, fun _ h => absurd h not_mem_nil⟩

variable {α : Type} {encode : Encoder} {pushes : List Push} {shadows : List (Slot × ℕ)}
  {signals waits : List SemaphoreOp}

lemma onCore_cell {p : Prog Core Error α} (hp : ∀ extra, Keeps (Core.From s extra) p) :
    Keeps (Cell s extra shape) (onCore p) := by
  apply Spec.of_focus
  intro cell hcell
  refine ((hp _).enter hcell.core).post ?_ ?_
  all_goals exact fun _ _ ht => ⟨ht, hcell.shape⟩

lemma request_cell (answer : ℕ → Result α) :
    Keeps (Cell s extra shape) (onCore (Core.request answer)) :=
  onCore_cell fun _ => Core.request_from answer

/-- A change of the queue that touches no slot. -/
lemma setQueue_cell {change : Queue → Queue}
    (hslots : ∀ queue, (change queue).slots = queue.slots)
    (hshape : ∀ queue, shape queue → shape (change queue)) :
    Keeps (Cell s extra shape) (setQueue change) := by
  apply Spec.of_modify
  intro cell hcell
  exact ⟨hcell.core.regroup (by rw [hslots]), hshape _ hcell.shape⟩

lemma markLost_cell : Keeps (Cell s extra (Kept q)) (setQueue markLost) :=
  setQueue_cell (fun _ => rfl) fun _ h => ⟨h.retire, h.held⟩

/-- The ledger has retired batches whose slots the queue still holds. -/
structure Retires (before : Queue) (retired : ℕ) (after : Queue) : Prop where
  retire : after.shared.retire = before.shared.retire
  held : after.held = before.held
  retired : after.ledger.retired = retired

variable {cell : QueueCell} {batch : List Slot}

lemma releaseThrough_cell {retired : ℕ} (h : Cell s extra (Retires q retired) cell) :
    Cell s extra (Kept q) (releaseThrough retired cell) := by
  obtain ⟨hcore, hretires⟩ := h
  have hparts := takeWhile_append_dropWhile (p := fun held => decide (held.1 ≤ retired))
    (l := cell.queue.held)
  refine ⟨?_, hretires.retire, cell.queue.held.takeWhile fun held => decide (held.1 ≤ retired),
    hretires.held.symm.trans hparts.symm, ?_⟩
  · apply Core.From.releaseAll
    refine hcore.regroup ?_
    have hsplit := congrArg (fun held : List (ℕ × Slot) => (held.map Prod.snd : Multiset Slot)) hparts
    simp only [map_append, ← coe_add] at hsplit
    unfold slots
    rw [← hsplit]
    show _ + ({cell.queue.shared.retire} + ((cell.queue.held.dropWhile fun held =>
      decide (held.1 ≤ retired)).map Prod.snd : Multiset Slot) + extra) = _
    abel
  · intro held hheld
    rw [show (releaseThrough retired cell).queue.ledger.retired = retired from hretires.retired]
    have hdone := mem_takeWhile_imp hheld
    exact of_decide_eq_true hdone

lemma retireCompletion_cell :
    Spec (Cell s extra (q = ·)) (retireCompletion kernel) (fun _ => Cell s extra (Kept q))
      fun _ => Cell s extra (Kept q) := by
  have hkept : ∀ c, Cell s extra (q = ·) c → Cell s extra (Kept q) c := by
    rintro c ⟨hcore, hqueue⟩
    exact ⟨hcore, .same (by rw [← hqueue]) (by rw [← hqueue])⟩
  apply Spec.read
  intro cell hcell
  have hsame : ∀ c, cell = c → Cell s extra (Kept q) c := fun c hc => hc ▸ hkept cell hcell
  refine .either (.of_throw hsame) ?_
  refine .either (.of_pure hsame) ?_
  refine .compute ?_ (fun _ c _ hc => hsame c hc)
  intro completed _
  refine .seq (((request_cell kernel.completion).enter hcell).fallback fun _ c hc => hkept c hc) ?_
  intro shown
  refine .either ?_ ?_
  · exact (Spec.next markLost_cell Spec.raise).before hkept
  cases cell.queue.ledger.retire completed with
  | error e =>
    exact (Spec.next markLost_cell Spec.raise).before hkept
  | ok ledger =>
    refine .write (Cell s extra (Retires q ledger.retired)) ?_ ?_
    · rintro c ⟨hcore, hqueue⟩
      exact ⟨hcore, by rw [← hqueue], by rw [← hqueue], rfl⟩
    · exact .of_modify fun c hc => releaseThrough_cell hc

lemma raiseShadows_cell (shadows : List (Slot × ℕ)) :
    Keeps (Cell s extra shape) (raiseShadows shadows) := by
  apply onCore_cell
  intro extra
  apply Keeps.of_each
  intro shadow
  apply Spec.fetched
  intro t ht pool hpool
  apply Spec.change
  exact ht.stored (Core.sameSlots_raiseShadow hpool)

lemma writeCommands_cell (encoded : Encoded) (shadows : List (Slot × ℕ)) :
    Keeps (Cell s extra shape) (writeCommands kernel encoded shadows) := by
  refine Spec.next (Keeps.onlyIf (request_cell kernel.serve)) ?_
  refine Spec.next (Keeps.onlyIf (request_cell kernel.serve)) ?_
  refine .next (request_cell kernel.serve) ?_
  refine .next (raiseShadows_cell shadows) ?_
  exact request_cell kernel.serve

lemma hold_cell (token : ℕ) (hbatch : ∀ slot ∈ batch, slot ∈ s.payloadSlots + extra)
    (h : Cell s extra (Kept q) cell) : Cell s extra (Holds q batch) (hold token batch cell) := by
  obtain ⟨hcore, hkept⟩ := h
  refine ⟨?_, hkept.retire, token, cell.queue.held, hkept.held, rfl⟩
  refine (hcore.retainAll ?_).regroup ?_
  · intro slot hslot
    have hpayload : cell.core.payloadSlots = s.payloadSlots := by
      unfold Core.payloadSlots
      rw [hcore.kept.syncs]
    have hmem := hbatch slot hslot
    simp only [Core.owners, mem_add, hpayload] at hmem ⊢
    tauto
  · show {cell.queue.shared.retire} + (((cell.queue.held ++ batch.map fun slot => (token, slot)).map
      Prod.snd : List Slot) : Multiset Slot) + extra = _
    unfold slots
    simp only [List.map_append, List.map_map, ← coe_add]
    have hsnd : (Prod.snd ∘ fun slot => (token, slot)) = (id : Slot → Slot) := rfl
    rw [hsnd, List.map_id]
    abel

lemma writeRing_cell (token slot : ℕ) (pushes : List Push) (encoded : Encoded) :
    Keeps (Cell s extra (Holds q batch)) (writeRing kernel token slot pushes encoded) := by
  have hsame : ∀ change : Queue → Queue, (∀ queue, (change queue).shared.retire = queue.shared.retire) →
      (∀ queue, (change queue).held = queue.held) →
      (∀ queue, (change queue).ledger.retired = queue.ledger.retired) →
      Keeps (Cell s extra (Holds q batch)) (setQueue change) := by
    intro change hretire hheld hretired
    apply setQueue_cell
    · intro queue
      unfold slots
      rw [hretire, hheld]
    intro queue h
    refine ⟨(hretire queue).trans h.retire, ?_⟩
    rw [hheld, hretired]
    exact h.held
  apply Spec.read
  intro cell hcell
  refine Spec.next ((Keeps.of_each ?_ _).enter hcell) ?_
  · intro segment
    exact Spec.seq (request_cell kernel.serve) fun _ =>
      hsame _ (fun _ => rfl) (fun _ => rfl) fun _ => rfl
  · exact .next (hsame _ (fun _ => rfl) (fun _ => rfl) fun _ => rfl) (request_cell kernel.serve)

/-- What the answer of a submission says about the queue. -/
def Answers (before : Queue) (batch : List Slot) : SubmitStatus → Queue → Prop
  | .submitted _ => Holds before batch
  | .full _ => Kept before

/-- A failed submission: a batch that was accepted before the failure stays with the
lost queue. -/
def Fails (before : Queue) (batch : List Slot) (after : Queue) : Prop :=
  Kept before after ∨ Holds before batch after ∧ after.lost = true

lemma Cell.mono {shape' : Queue → Prop} (h : Cell s extra shape cell)
    (hshape : ∀ queue, shape queue → shape' queue) : Cell s extra shape' cell :=
  ⟨h.core, hshape _ h.shape⟩

lemma submitEncoded_cell (hbatch : ∀ slot ∈ batch, slot ∈ s.payloadSlots + extra) :
    Spec (Cell s extra (Kept q)) (submitEncoded kernel encode pushes waits signals batch shadows)
      (fun status => Cell s extra (Answers q batch status))
      fun _ => Cell s extra fun queue => Kept q queue ∨ Holds q batch queue := by
  have hkept : ∀ c, Cell s extra (Kept q) c →
      Cell s extra (fun queue => Kept q queue ∨ Holds q batch queue) c :=
    fun c hc => hc.mono fun _ => .inl
  have hholds : ∀ c, Cell s extra (Holds q batch) c →
      Cell s extra (fun queue => Kept q queue ∨ Holds q batch queue) c :=
    fun c hc => hc.mono fun _ => .inr
  refine .compute ?_ (fun _ c _ hc => hkept c hc)
  intro encoded _
  apply Spec.read
  intro cell hcell
  dsimp only
  split
  · exact .of_throw fun c hc => hkept c (hc ▸ hcell)
  · exact .of_throw fun c hc => hkept c (hc ▸ hcell)
  · exact .unchanged hcell
  next token slot _ =>
  refine .seq (((writeCommands_cell encoded shadows).enter hcell).fallback
    fun _ c hc => hkept c hc) fun _ => ?_
  refine .keeping (setQueue_cell (fun _ => rfl) fun _ h => ⟨h.retire, h.held⟩)
    (fun _ c hc => hkept c hc) fun _ => ?_
  refine .write (Cell s extra (Holds q batch)) (fun c hc => hold_cell token hbatch hc) ?_
  refine .keeping (writeRing_cell token slot pushes encoded) (fun _ c hc => hholds c hc) fun _ => ?_
  exact .of_pure fun _ h => h

lemma submit_cell (hbatch : ∀ slot ∈ batch, slot ∈ s.payloadSlots + extra) :
    Spec (Cell s extra (q = ·)) (submit kernel encode pushes waits signals batch shadows)
      (fun status => Cell s extra (Answers q batch status)) fun _ => Cell s extra (Fails q batch) := by
  have hkept : ∀ c, Cell s extra (Kept q) c → Cell s extra (Fails q batch) c :=
    fun c hc => hc.mono fun _ => .inl
  apply Spec.read
  intro cell hcell
  have hsame : ∀ c, cell = c → Cell s extra (Fails q batch) c := by
    rintro _ rfl
    exact hcell.mono fun queue hqueue => .inl (.same (by rw [← hqueue]) (by rw [← hqueue]))
  refine .either (.of_throw hsame) ?_
  refine .either (.of_throw hsame) ?_
  refine .either (.of_throw hsame) ?_
  refine .seq ((retireCompletion_cell.enter hcell).fallback fun _ c hc => hkept c hc) fun _ => ?_
  refine .observe (submitEncoded_cell hbatch) ?_ ?_
  · exact fun _ => .of_pure fun _ h => h
  intro e
  refine .write (Cell s extra (Fails q batch)) ?_ Spec.raise
  rintro c ⟨hcore, hshape⟩
  refine ⟨hcore, ?_⟩
  rcases hshape with hkept | hholds
  · exact .inl ⟨hkept.retire, hkept.held⟩
  · exact .inr ⟨⟨hholds.retire, hholds.held⟩, rfl⟩

end Queue

end NvidiaProlapse
