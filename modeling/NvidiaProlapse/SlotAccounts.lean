import NvidiaProlapse.References
import NvidiaProlapse.Watcher

/-!
# Owners of slot references

A native payload, a shared point or source and a gate registration own one
reference each. `Accounted core extra` says that the reference counts of the pool
are those of these owners together with `extra`, the references that queues and the
call in progress hold.
-/
namespace NvidiaProlapse
open Programs List

namespace SlotPool

def Installed (pool : SlotPool) (slot : Slot) : Prop := slot < pool.pages.length * slotsPerPage

/-- The counts are those of `owners`, and the free stack is the rest of the pool. -/
def Balanced (pool : SlotPool) (owners : Multiset Slot) : Prop :=
  References.Balanced pool.Installed pool.refs pool.free owners

variable {pool pool' : SlotPool} {owners : Multiset Slot} {slot : Slot}

lemma new_balanced (view : TimelineView) : (new view).Balanced 0 where
  count := by simp [new]
  nodup := by simp [new]
  mem_free := by simp [new, Installed]
  owned := by simp

lemma Balanced.tryAllocate (h : pool.Balanced owners)
    (halloc : pool.tryAllocate = some (slot, pool')) :
    pool'.Balanced ({slot} + owners) ∧ slot ∉ owners := by
  unfold SlotPool.tryAllocate at halloc
  split at halloc
  · cases halloc
  next top free hfree =>
  cases halloc
  unfold Balanced at h
  rw [hfree] at h
  exact References.Balanced.take h

lemma Balanced.retain (h : pool.Balanced owners) (hslot : slot ∈ owners) :
    (pool.retain slot).Balanced ({slot} + owners) := by
  exact References.Balanced.retain h hslot

lemma Balanced.release (h : pool.Balanced ({slot} + owners)) :
    (pool.release slot).Balanced owners := by
  exact References.Balanced.release h

lemma lt_add_iff_offset (n base width : ℕ) :
    n < base + width ↔ (∃ i, i < width ∧ base + i = n) ∨ n < base := by
  constructor
  · intro hlt
    by_cases hold : n < base
    · exact .inr hold
    · exact .inl ⟨n - base, by omega, by omega⟩
  · rintro (⟨i, hi, rfl⟩ | hold) <;> omega

lemma Balanced.installPage (h : pool.Balanced owners) {cpu gpu : ℕ}
    (hinstall : pool.installPage cpu gpu = .ok pool') : pool'.Balanced owners := by
  unfold SlotPool.installPage at hinstall
  split_ifs at hinstall
  cases hinstall
  apply References.Balanced.install h
  · exact nodup_range.map fun a b hab => Nat.add_left_cancel hab
  · intro slot hslot
    simp only [mem_map, mem_range] at hslot
    obtain ⟨i, -, rfl⟩ := hslot
    exact Nat.not_lt.mpr (Nat.le_add_right _ i)
  · intro slot
    simp only [Installed, length_append, length_singleton, mem_map, mem_range,
      Nat.add_mul, Nat.one_mul]
    exact lt_add_iff_offset slot _ _

end SlotPool

/-! ## The owners -/

def Payload.slots : Payload → Multiset Slot
  | .native slot => {slot}
  | .foreign _ => 0
  | .shared _ => 0

def Shared.slots (shared : Shared) : Multiset Slot :=
  (shared.points.map Prod.snd : Multiset Slot) + (shared.sources.map Prod.fst : Multiset Slot)

/-- What the handle at a position of the table owns. -/
def handleSlots : Option SyncObj → Multiset Slot
  | some sync => sync.state.payload.slots
  | none => 0

namespace Core

def payloadSlots (core : Core) : Multiset Slot := (core.syncs.map handleSlots).sum

def sharedSlots (core : Core) : Multiset Slot := (core.shareds.map Shared.slots).sum

def gateSlots (core : Core) : Multiset Slot :=
  (core.watcher.gates.map Prod.snd : Multiset Slot) +
    (core.watcher.sharedGates.map fun gate => gate.2.2 : Multiset Slot)

def owners (core : Core) : Multiset Slot := core.payloadSlots + core.sharedSlots + core.gateSlots

/-- The payload of a handle names a shared payload of the table, and only a binary
handle holds a sync_file. -/
structure HandleOk (shareds : ℕ) (sync : SyncObj) : Prop where
  named : ∀ shared, sync.state.payload = .shared shared → shared < shareds
  binary : ∀ foreign, sync.state.payload = .foreign foreign → sync.timeline = false

structure Accounted (core : Core) (extra : Multiset Slot) : Prop where
  balanced : core.pool.Balanced (core.owners + extra)
  handles : ∀ sync, some sync ∈ core.syncs → HandleOk core.shareds.length sync
  opened : core.pool.closed = false

variable {core : Core} {extra : Multiset Slot} {slot : Slot}

variable {sync sync' : SyncObj} {core' : Core} {id shared : ℕ} {object : Shared}

variable {n : ℕ} {extra' dropped : Multiset Slot} {payload : Payload}

lemma HandleOk.mono {m : ℕ} (h : HandleOk n sync) (hle : n ≤ m) :
    HandleOk m sync := ⟨fun shared hs => (h.named shared hs).trans_le hle, h.binary⟩

lemma HandleOk.native {slot : Slot} (h : sync.state.payload = .native slot) : HandleOk n sync :=
  ⟨fun _ hs => by simp [h] at hs, fun _ hf => by simp [h] at hf⟩

/-- The multiset of references in hand may be regrouped. -/
lemma Accounted.regroup (h : core.Accounted extra) (heq : extra' = extra) :
    core.Accounted extra' := heq ▸ h

/-- Changes that touch no owner: words, memory files, sync_files and requests. -/
lemma Accounted.congr (h : core.Accounted extra) (hrefs : core'.pool.refs = core.pool.refs)
    (hfree : core'.pool.free = core.pool.free) (hpages : core'.pool.pages = core.pool.pages)
    (hclosed : core'.pool.closed = core.pool.closed) (hsyncs : core'.syncs = core.syncs)
    (hshareds : core'.shareds = core.shareds) (hgates : core'.watcher.gates = core.watcher.gates)
    (hsharedGates : core'.watcher.sharedGates = core.watcher.sharedGates) :
    core'.Accounted extra := by
  have howners : core'.owners = core.owners := by
    simp [owners, payloadSlots, sharedSlots, gateSlots, hsyncs, hshareds, hgates, hsharedGates]
  refine ⟨?_, ?_, hclosed.trans h.opened⟩
  · have hbalanced := h.balanced
    unfold SlotPool.Balanced SlotPool.Installed at hbalanced ⊢
    rw [hrefs, hfree, hpages, howners]
    exact hbalanced
  · rw [hsyncs, hshareds]
    exact h.handles

lemma Accounted.release (h : core.Accounted ({slot} + extra)) :
    (core.release slot).Accounted extra := by
  refine ⟨?_, h.handles, h.opened⟩
  apply SlotPool.Balanced.release
  refine (?_ : core.owners + ({slot} + extra) = {slot} + (core.owners + extra)) ▸ h.balanced
  abel

lemma Accounted.retain (h : core.Accounted extra) (hslot : slot ∈ core.owners + extra) :
    (core.retain slot).Accounted ({slot} + extra) := by
  refine ⟨?_, h.handles, h.opened⟩
  refine (?_ : {slot} + (core.owners + extra) = core.owners + ({slot} + extra)) ▸
    h.balanced.retain hslot
  abel

/-- Released slots change the pool only. -/
lemma releaseAll_eq (core : Core) (slots : List Slot) :
    core.releaseAll slots = { core with pool := slots.foldl SlotPool.release core.pool } := by
  induction slots generalizing core with
  | nil => rfl
  | cons slot slots ih => exact ih (core.release slot)

@[simp] lemma view_releaseAll (core : Core) (slots : List Slot) :
    (core.releaseAll slots).pool.view = core.pool.view := by
  induction slots generalizing core with
  | nil => rfl
  | cons slot slots ih => exact ih (core.release slot)

lemma Accounted.releaseAll {slots : List Slot} (h : core.Accounted ((slots : Multiset Slot) + extra)) :
    (core.releaseAll slots).Accounted extra := by
  induction slots generalizing core with
  | nil => exact h.regroup (by simp)
  | cons slot slots ih =>
    apply ih
    apply Accounted.release
    refine h.regroup ?_
    rw [← Multiset.cons_coe, ← Multiset.singleton_add, add_assoc]

lemma syncRef_eq_ok :
    core.syncRef id = .ok sync ↔ id ≠ 0 ∧ core.syncs[id - 1]? = some (some sync) := by
  unfold syncRef
  split_ifs with h0
  · simp [h0]
  split
  · next found hfound => simp [h0, hfound]
  · next hnone =>
    simp only [false_iff, not_and, reduceCtorEq]
    exact fun _ => hnone sync

lemma syncRef_congr (h : core'.syncs = core.syncs) (id : ℕ) :
    core'.syncRef id = core.syncRef id := by
  unfold syncRef
  rw [h]

lemma Accounted.handle (h : core.Accounted extra) (hsync : core.syncRef id = .ok sync) :
    HandleOk core.shareds.length sync :=
  h.handles sync (mem_of_getElem? (syncRef_eq_ok.mp hsync).2)

/-- A native payload owns its slot. -/
lemma mem_payloadSlots (hsync : core.syncRef id = .ok sync)
    (hpayload : sync.state.payload = .native slot) : slot ∈ core.payloadSlots := by
  have hmem := mem_of_getElem? (syncRef_eq_ok.mp hsync).2
  refine Multiset.mem_of_le (single_le_sum (fun _ _ => Multiset.zero_le _) _
    (mem_map_of_mem hmem)) ?_
  simp [handleSlots, hpayload, Payload.slots]

/-- An exchange of owners with the references in hand. -/
lemma Accounted.exchange (h : core.Accounted extra) (hpool : core'.pool = core.pool)
    (howners : core'.owners + extra' = core.owners + extra)
    (hhandles : ∀ sync, some sync ∈ core'.syncs → HandleOk core'.shareds.length sync) :
    core'.Accounted extra' := by
  refine ⟨?_, hhandles, by rw [hpool]; exact h.opened⟩
  rw [howners, hpool]
  exact h.balanced

lemma owners_setSync (sync' : SyncObj) (hsync : core.syncRef id = .ok sync) :
    (core.setSync id sync').owners + sync.state.payload.slots =
      core.owners + sync'.state.payload.slots := by
  have hsum : (core.setSync id sync').payloadSlots + sync.state.payload.slots =
      core.payloadSlots + sync'.state.payload.slots :=
    References.sum_set handleSlots (some sync') (syncRef_eq_ok.mp hsync).2
  calc (core.setSync id sync').owners + sync.state.payload.slots
      = ((core.setSync id sync').payloadSlots + sync.state.payload.slots) +
          (core.sharedSlots + core.gateSlots) := by
        show (core.setSync id sync').payloadSlots + core.sharedSlots + core.gateSlots + _ = _
        abel
    _ = core.owners + sync'.state.payload.slots := by
        rw [hsum]
        unfold owners
        abel

lemma owners_setShared (object' : Shared) (hobject : core.shareds[shared]? = some object) :
    (core.setShared shared object').owners + object.slots = core.owners + object'.slots := by
  have hsum : (core.setShared shared object').sharedSlots + object.slots =
      core.sharedSlots + object'.slots := References.sum_set Shared.slots object' hobject
  calc (core.setShared shared object').owners + object.slots
      = ((core.setShared shared object').sharedSlots + object.slots) +
          (core.payloadSlots + core.gateSlots) := by
        show core.payloadSlots + (core.setShared shared object').sharedSlots + core.gateSlots + _ = _
        abel
    _ = core.owners + object'.slots := by
        rw [hsum]
        unfold owners
        abel

lemma handles_setSync (h : core.Accounted extra) (hok : HandleOk core.shareds.length sync') :
    ∀ sync, some sync ∈ (core.setSync id sync').syncs →
      HandleOk (core.setSync id sync').shareds.length sync := by
  intro other hother
  rcases mem_or_eq_of_mem_set hother with hold | hnew
  · exact h.handles other hold
  · cases hnew
    exact hok

lemma handles_setShared {object' : Shared} (h : core.Accounted extra) :
    ∀ sync, some sync ∈ (core.setShared shared object').syncs →
      HandleOk (core.setShared shared object').shareds.length sync := by
  intro sync hsync
  show HandleOk (core.shareds.set shared object').length sync
  rw [length_set]
  exact h.handles sync hsync

/-- A handle takes another payload: what it owned is in hand instead. -/
lemma Accounted.setSync (h : core.Accounted (sync'.state.payload.slots + extra))
    (hsync : core.syncRef id = .ok sync) (hok : HandleOk core.shareds.length sync') :
    (core.setSync id sync').Accounted (sync.state.payload.slots + extra) := by
  refine h.exchange rfl ?_ (handles_setSync h hok)
  rw [← add_assoc, owners_setSync sync' hsync, add_assoc]

/-- A change of the other fields of a handle. -/
lemma Accounted.setSync_same (h : core.Accounted extra) (hsync : core.syncRef id = .ok sync)
    (hpayload : sync'.state.payload = sync.state.payload) (htimeline : sync'.timeline = sync.timeline) :
    (core.setSync id sync').Accounted extra := by
  have hold := h.handle hsync
  have hok : HandleOk core.shareds.length sync' := by
    constructor
    · rw [hpayload]
      exact hold.named
    · rw [hpayload, htimeline]
      exact hold.binary
  refine h.exchange rfl ?_ (handles_setSync h hok)
  have howners := owners_setSync sync' hsync
  rw [hpayload] at howners
  rw [add_right_cancel howners]

/-- The local slots of a shared payload split into those that stay and those that
are dropped. A payload outside the table has none. -/
lemma sharedSlots_setShared (hsplit : (core.sharedAt shared).slots = object.slots + dropped) :
    (core.setShared shared object).sharedSlots + dropped = core.sharedSlots := by
  by_cases hin : shared < core.shareds.length
  · have hobject : core.shareds[shared]? = some (core.sharedAt shared) := by
      simp [sharedAt, hin]
    have hsum : (core.setShared shared object).sharedSlots + (core.sharedAt shared).slots =
        core.sharedSlots + object.slots := References.sum_set Shared.slots object hobject
    rw [hsplit, add_comm object.slots, ← add_assoc] at hsum
    exact add_right_cancel hsum
  · have hempty : (core.sharedAt shared).slots = 0 := by
      simp [sharedAt, Shared.slots, getElem?_eq_none (Nat.le_of_not_lt hin)]
    have hsame : core.setShared shared object = core := by
      simp [setShared, set_eq_of_length_le (Nat.le_of_not_lt hin)]
    rw [hempty] at hsplit
    obtain ⟨-, rfl⟩ := add_eq_zero.mp hsplit.symm
    rw [hsame, add_zero]

lemma Accounted.shrink (h : core.Accounted extra)
    (hsplit : (core.sharedAt shared).slots = object.slots + dropped) :
    (core.setShared shared object).Accounted (dropped + extra) := by
  refine h.exchange rfl ?_ (handles_setShared h)
  unfold owners
  rw [← sharedSlots_setShared hsplit]
  show core.payloadSlots + (core.setShared shared object).sharedSlots + core.gateSlots +
    (dropped + extra) = _
  abel

/-- A shared payload of the table takes slots in hand and gives others up. -/
lemma Accounted.trade {taken given : Multiset Slot} (h : core.Accounted (taken + extra))
    (hin : shared < core.shareds.length)
    (hslots : object.slots + given = (core.sharedAt shared).slots + taken) :
    (core.setShared shared object).Accounted (given + extra) := by
  refine h.exchange rfl ?_ (handles_setShared h)
  have hobject : core.shareds[shared]? = some (core.sharedAt shared) := by
    simp [sharedAt, hin]
  have howners := owners_setShared object hobject
  apply add_right_cancel (b := (core.sharedAt shared).slots)
  calc (core.setShared shared object).owners + (given + extra) + (core.sharedAt shared).slots
      = ((core.setShared shared object).owners + (core.sharedAt shared).slots) + given + extra := by
        abel
    _ = core.owners + (object.slots + given) + extra := by
        rw [howners]
        abel
    _ = core.owners + (taken + extra) + (core.sharedAt shared).slots := by
        rw [hslots]
        abel

lemma Accounted.dropShared (h : core.Accounted extra) (shared : ℕ) :
    (core.dropShared shared).Accounted extra := by
  unfold Core.dropShared
  split_ifs
  · exact h
  apply Accounted.releaseAll
  apply Accounted.releaseAll
  rw [← add_assoc]
  apply h.shrink
  simp [Shared.slots]

lemma Accounted.dropPayload (h : core.Accounted (payload.slots + extra)) :
    (core.dropPayload payload).Accounted extra := by
  cases payload with
  | native slot => exact .release h
  | foreign foreign => exact h.regroup (by simp [Payload.slots])
  | shared shared =>
    apply Accounted.dropShared
    exact h.regroup (by simp [Payload.slots])

/-- A handle takes a payload in hand and drops its own. -/
lemma Accounted.rebind (h : core.Accounted (sync'.state.payload.slots + extra))
    (hsync : core.syncRef id = .ok sync) (hok : HandleOk core.shareds.length sync') :
    ((core.setSync id sync').dropPayload sync.state.payload).Accounted extra :=
  (h.setSync hsync hok).dropPayload

lemma Accounted.replace (h : core.Accounted (payload.slots + extra))
    (hsync : core.syncRef id = .ok sync)
    (hshared : ∀ shared, payload = .shared shared → shared < core.shareds.length)
    (hforeign : ∀ foreign, payload = .foreign foreign → sync.timeline = false) :
    (core.replace id sync payload).Accounted extra :=
  Accounted.rebind h hsync ⟨hshared, hforeign⟩

lemma Accounted.replace_native (h : core.Accounted ({slot} + extra))
    (hsync : core.syncRef id = .ok sync) : (core.replace id sync (.native slot)).Accounted extra :=
  Accounted.rebind h hsync (.native rfl)

end Core

end NvidiaProlapse
