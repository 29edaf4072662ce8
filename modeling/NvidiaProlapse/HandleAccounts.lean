import NvidiaProlapse.Allocations
import NvidiaProlapse.SyncAccounts

/-!
# What calls on handles do to slot references

Every call keeps the references accounted for, with one exception: a reset of a
timeline payload whose slot somebody else references, too, allocates a replacement
slot that nobody owns afterwards.
-/
namespace NvidiaProlapse.Core
open Programs List

variable {kernel : Kernel} {extra : Multiset Slot} {core : Core}

/-- The slot in an optional hand. -/
def inHand (fresh : Option Slot) : Multiset Slot := (fresh.toList : Multiset Slot)

/-! ## Stores into slots -/

/-- The pools differ in the words of their slots. -/
def SameSlots (pool pool' : SlotPool) : Prop := ∃ words, pool' = { pool with words := words }

lemma SameSlots.refl (pool : SlotPool) : SameSlots pool pool := ⟨pool.words, rfl⟩

lemma SameSlots.trans {p q r : SlotPool} (h : SameSlots p q) (h' : SameSlots q r) :
    SameSlots p r := by
  obtain ⟨words, rfl⟩ := h
  obtain ⟨words', rfl⟩ := h'
  exact ⟨words', rfl⟩

variable {pool pool' : SlotPool} {slot id : ℕ} {s t : Core} {sync : SyncObj}

lemma sameSlots_store32 {value : ℕ}
    (h : pool.store32 slot value = .ok pool') : SameSlots pool pool' := by
  unfold SlotPool.store32 at h
  split at h
  · cases h
  · cases h
    exact ⟨_, rfl⟩

lemma sameSlots_initTimeline {value : ℕ} (h : pool.initTimeline slot value = .ok pool') :
    SameSlots pool pool' := by
  unfold SlotPool.initTimeline at h
  split at h
  · cases h
  split at h
  all_goals
    cases h
    exact ⟨_, rfl⟩

lemma sameSlots_hostSignal {value : ℕ} {changed : Bool}
    (h : pool.hostSignal slot value = .ok (changed, pool')) : SameSlots pool pool' := by
  unfold SlotPool.hostSignal at h
  split at h
  · cases h
  split at h
  · cases h
    exact ⟨_, rfl⟩
  split at h
  · cases h
  split_ifs at h
  all_goals
    cases h
    exact ⟨_, rfl⟩

lemma sameSlots_raiseShadow {value : ℕ} (h : pool.raiseShadow slot value = .ok pool') :
    SameSlots pool pool' := by
  unfold SlotPool.raiseShadow at h
  split at h
  · cases h
  split at h
  all_goals
    cases h
    exact ⟨_, rfl⟩

lemma Accounted.stored (h : core.Accounted extra) (hpool : SameSlots core.pool pool) :
    ({ core with pool := pool } : Core).Accounted extra := by
  obtain ⟨words, rfl⟩ := hpool
  exact h.congr rfl rfl rfl rfl rfl rfl rfl rfl

lemma From.stored (h : From s extra core) (hpool : SameSlots core.pool pool) :
    From s extra { core with pool := pool } := by
  refine ⟨h.accounted.stored hpool, ?_, h.kept.toRefreshed.congr rfl rfl, h.kept.watcher⟩
  obtain ⟨words, rfl⟩ := hpool
  exact h.kept.toSettles.congr rfl rfl rfl rfl rfl rfl fun h => h

lemma store32_open (hopen : pool.closed = false) (slot value : ℕ) :
    pool.store32 slot value = .ok (pool.setWord32 slot value) := by
  unfold SlotPool.store32
  rw [SlotPool.live_eq_ok.mpr hopen]

/-! ## Methods -/

lemma ready_from (id value : ℕ) (pending : Bool) :
    Keeps (From s extra) (ready kernel id value pending) := by
  apply Spec.fetched
  intro t ht sync _
  cases sync.state.payload with
  | native slot =>
    split_ifs
    · refine .given ht ?_
      intro current _
      exact .unchanged ht
    · refine .given ht ?_
      intro word _
      exact .unchanged ht
  | foreign foreign =>
    refine .seq ((foreignReady_from foreign pending).enter ht) ?_
    intro _
    exact .ret
  | shared shared =>
    refine .seq ((refresh_from shared).enter ht) ?_
    intro _
    apply Spec.read
    intro u hu
    refine .given hu ?_
    intro _ _
    exact .unchanged hu

lemma value_from (id : ℕ) : Keeps (From s extra) (value id) := by
  apply Spec.fetched
  intro t ht sync _
  cases sync.state.payload with
  | native slot =>
    refine .given ht ?_
    intro _ _
    exact .unchanged ht
  | foreign foreign => exact .refused ht
  | shared shared =>
    refine .seq ((refresh_from shared).enter ht) ?_
    intro _
    apply Spec.read
    intro u hu
    exact .unchanged hu

/-! ## Replacement slots -/

/-- The method keeps every reference accounted for; a replacement it did not use is
handed back, and one that was passed to a failing call is still in hand. -/
def Replaces (fresh : Option Slot) (extra : Multiset Slot) (t : Core)
    (p : Prog Core Error (Option Slot × Bool)) (bad : Error → Prop) : Prop :=
  Spec (t = ·) p (fun out u => u.Accounted (inHand out.1 + extra))
    fun e u => bad e ∧ u.Accounted (inHand fresh + extra)

section Replacements

variable {t : Core} {id value : ℕ} {sync : SyncObj} {fresh : Option Slot} {missing : String}

section

variable (ht : t.Accounted (inHand fresh + extra)) (hsync : t.syncRef id = .ok sync)

include ht hsync

lemma rebindFresh_replaces :
    Replaces fresh extra t (rebindFresh id sync fresh missing) fun e =>
      fresh = none ∧ e = .contract missing := by
  cases fresh with
  | none => exact .of_throw fun u hu => ⟨⟨rfl, rfl⟩, hu ▸ ht⟩
  | some slot =>
    refine .write (·.Accounted extra) ?_ (.of_pure fun u hu => hu.regroup (by simp [inHand]))
    rintro _ rfl
    exact ht.replace_native hsync

/-- A reset fails only for a timeline, for an exhausted generation or for want of a
replacement. -/
lemma reset_replaces :
    Replaces fresh extra t (reset id fresh) fun e =>
      sync.timeline = true ∧ e = .contract "reset of timeline payload" ∨
      t.needsFreshSlot sync = false ∧ e = exhausted ∨
      t.needsFreshSlot sync = true ∧ fresh = none := by
  apply Spec.look
  refine .compute ?_ ?_
  swap
  · intro e u herr
    rw [hsync] at herr
    cases herr
  intro found hfound
  rw [hsync] at hfound
  cases hfound
  split_ifs with htimeline
  · exact .of_throw fun u hu => ⟨.inl ⟨htimeline, rfl⟩, hu ▸ ht⟩
  cases hpayload : sync.state.payload with
  | native slot =>
    dsimp only
    split_ifs with hrefs
    · rw [store32_open ht.opened]
      refine .compute ?_ (nofun)
      intro pool hpool
      cases hpool
      refine .last ?_
      exact (ht.stored ⟨_, rfl⟩).setSync_same hsync rfl rfl
    · refine (rebindFresh_replaces ht hsync).fallback ?_
      rintro e u ⟨⟨hnone, -⟩, hu⟩
      exact ⟨.inr (.inr ⟨by simp [needsFreshSlot, hpayload, hrefs], hnone⟩), hu⟩
  | foreign foreign =>
    refine (rebindFresh_replaces ht hsync).fallback ?_
    rintro e u ⟨⟨hnone, -⟩, hu⟩
    exact ⟨.inr (.inr ⟨by simp [needsFreshSlot, hpayload], hnone⟩), hu⟩
  | shared shared =>
    dsimp only
    cases checkedSucc (t.load shared .target) with
    | none =>
      exact .of_throw fun u hu =>
        ⟨.inr (.inl ⟨by simp [needsFreshSlot, hpayload], rfl⟩), hu ▸ ht⟩
    | some target =>
      apply Spec.known (exec_store t shared .target target)
      refine .last ?_
      have hstored : (t.setWord shared .target target).Accounted (inHand fresh + extra) :=
        ht.congr rfl rfl rfl rfl rfl rfl rfl rfl
      exact hstored.setSync_same hsync rfl rfl

lemma signalFresh_replaces (hbinary : sync.timeline = false) :
    Replaces fresh extra t (signal.signalFresh id sync fresh) fun _ => fresh = none := by
  cases fresh with
  | none => exact .of_throw fun u hu => ⟨rfl, hu ▸ ht⟩
  | some slot =>
    unfold signal.signalFresh
    rw [hbinary]
    apply Spec.look
    rw [store32_open ht.opened]
    refine .compute ?_ (nofun)
    intro pool hpool
    cases hpool
    have hstored : ({ t with pool := t.pool.setWord32 slot 1 } : Core).Accounted
        (inHand (some slot) + extra) := ht.stored ⟨_, rfl⟩
    refine .known (exec_modify _ t) ?_
    exact (rebindFresh_replaces hstored hsync).fallback fun _ _ h => ⟨h.1.1, h.2⟩

/-- A signal fails only where the host value of a timeline cannot be raised, or for
want of a replacement. -/
lemma signal_replaces :
    Replaces fresh extra t (signal id value fresh) fun e =>
      (∃ slot, sync.timeline = true ∧ t.pool.hostSignal slot value = .error e) ∨
      sync.timeline = false ∧ t.needsFreshSlot sync = true ∧ fresh = none := by
  have hok := ht.handle hsync
  apply Spec.look
  refine .compute ?_ ?_
  swap
  · intro e u herr
    rw [hsync] at herr
    cases herr
  intro found hfound
  rw [hsync] at hfound
  cases hfound
  cases hpayload : sync.state.payload with
  | native slot =>
    dsimp only
    split_ifs with htimeline hrefs
    · refine .compute ?_ (fun e u herr hu => ⟨.inl ⟨slot, htimeline, herr⟩, hu ▸ ht⟩)
      rintro ⟨changed, pool⟩ hpool
      refine .last ?_
      exact (ht.stored (sameSlots_hostSignal hpool)).setSync_same hsync rfl rfl
    · rw [store32_open ht.opened]
      refine .compute ?_ (nofun)
      intro pool hpool
      cases hpool
      refine .last ?_
      exact ht.stored ⟨_, rfl⟩
    · have hbinary : sync.timeline = false := by simpa using htimeline
      refine (signalFresh_replaces ht hsync hbinary).fallback ?_
      rintro e u ⟨hnone, hu⟩
      exact ⟨.inr ⟨hbinary, by simp [needsFreshSlot, hpayload, hrefs], hnone⟩, hu⟩
  | foreign foreign =>
    have hbinary := hok.binary foreign hpayload
    refine (signalFresh_replaces ht hsync hbinary).fallback ?_
    rintro e u ⟨hnone, hu⟩
    exact ⟨.inr ⟨hbinary, by simp [needsFreshSlot, hpayload], hnone⟩, hu⟩
  | shared shared =>
    apply Spec.known (exec_maximum t shared .pending _)
    apply Spec.known (exec_maximum _ shared .completed _)
    apply Spec.unchanged
    exact ht.congr rfl rfl rfl rfl rfl rfl rfl rfl

end

/-- A method that does not ask for a slot runs once. -/
lemma withReplacement_once {method : Option Slot → Prog Core Error (Option Slot × Bool)}
    {good : Core → Prop} {bad : Error → Core → Prop}
    (hmethod : Spec (t = ·) (method fresh) (fun out u => good (u.releaseAll out.1.toList))
      fun e u => needsSlot e = false ∧ bad e u) :
    Spec (t = ·) (withReplacement kernel method fresh) (fun _ => good) bad := by
  refine .observe hmethod ?_ ?_
  · rintro ⟨unused, changed⟩
    exact .of_modify fun _ hu => hu
  intro e
  apply Spec.of_states
  rintro u ⟨hneeds, hu⟩
  dsimp only
  rw [if_neg (by simp [hneeds])]
  exact .refused hu

end Replacements

lemma slotIf_grown {needed : Bool} (h : s.Accounted extra) : Spec (s = ·) (slotIf kernel needed)
      (fun fresh t => t.Accounted (inHand fresh + extra) ∧ Grown s t ∧ fresh.isSome = needed ∧
        ∀ slot ∈ fresh, s.pool.refs slot = 0)
      fun _ t => t.Accounted extra ∧ Grown s t := by
  cases needed with
  | false =>
    apply Spec.unchanged
    exact ⟨h.regroup (by simp [inHand]), .refl s, rfl, by simp⟩
  | true =>
    refine .seq (slot_grown h) ?_
    intro slot
    apply Spec.of_pure
    intro t ht
    exact ⟨ht.accounted.regroup (by simp [inHand]), ht.grown, rfl, by simp [ht.free]⟩

/-- Other slots of the pool may be allocated without a change of this answer. -/
lemma Grown.needsFreshSlot (h : Grown s t) (hs : s.Accounted extra)
    (hsync : s.syncRef id = .ok sync) : t.needsFreshSlot sync = s.needsFreshSlot sync := by
  unfold Core.needsFreshSlot
  cases hpayload : sync.state.payload with
  | native slot =>
    have hmem : slot ∈ s.owners + extra := by
      simp only [owners, Multiset.mem_add]
      exact .inl (.inl (.inl (mem_payloadSlots hsync hpayload)))
    have hrefs : s.pool.refs slot ≠ 0 := by
      rw [hs.balanced.count slot]
      exact (Multiset.count_pos.mpr hmem).ne'
    simp [h.refs slot hrefs]
  | foreign foreign => rfl
  | shared shared => rfl

lemma live_keeps (inv : Core → Prop) : Keeps inv live := by
  apply Spec.read
  intro t ht
  split_ifs
  · exact .refused ht
  · exact .unchanged ht

/-- A timeline payload whose slot somebody else references, too. -/
def CapturedTimeline (core : Core) (id : ℕ) : Prop :=
  ∃ sync, core.syncRef id = .ok sync ∧ sync.timeline = true ∧ core.needsFreshSlot sync = true

/-- A property that a method keeps after the allocation for it. -/
def MethodKeeps (s : Core) (extra : Multiset Slot) (good : Core → Prop)
    (method : Option Slot → Prog Core Error (Option Slot × Bool)) : Prop :=
  ∀ fresh t, t.Accounted (inHand fresh + extra) → Grown s t → (∀ slot ∈ fresh, s.pool.refs slot = 0) →
    Spec (t = ·) (method fresh) (fun out u => good (u.releaseAll out.1.toList)) fun _ => good

lemma methodKeeps_trivial (s : Core) (extra : Multiset Slot)
    (method : Option Slot → Prog Core Error (Option Slot × Bool)) :
    MethodKeeps s extra (fun _ => True) method :=
  fun _ _ _ _ _ _ _ => ⟨fun _ _ _ => trivial, fun _ _ _ => trivial⟩

lemma syncReset_keeps {good : Core → Prop} (id : ℕ) (h : s.Accounted extra)
    (hgood : ∀ t, Grown s t → good t) (hreset : MethodKeeps s extra good (reset id)) :
    Spec (s = ·) (syncReset kernel id) (fun _ t => t.Accounted extra ∧ good t)
      fun _ t => (t.Accounted extra ∨
        s.CapturedTimeline id ∧ ∃ slot, t.Accounted ({slot} + extra)) ∧ good t := by
  have hstart := hgood s (.refl s)
  refine .keeping (live_keeps _) (fun _ _ hs => hs ▸ ⟨.inl h, hstart⟩) fun _ => ?_
  apply Spec.look
  refine .given ⟨.inl h, hstart⟩ ?_
  intro sync hsync
  refine .seq ((slotIf_grown h).fallback fun _ t ht => ⟨.inl ht.1, hgood t ht.2⟩) ?_
  intro fresh
  apply Spec.of_states
  rintro t ⟨ht, hgrown, hneeded, hfree⟩
  have hneeds := hgrown.needsFreshSlot h hsync
  apply withReplacement_once
  refine ((reset_replaces ht ((hgrown.syncRef id).trans hsync)).both
    (hreset fresh t ht hgrown hfree)).post (fun _ _ h => ⟨h.1.releaseAll, h.2⟩) ?_
  rintro e u ⟨⟨hbad, hu⟩, hkept⟩
  rcases hbad with ⟨htimeline, rfl⟩ | ⟨hno, rfl⟩ | ⟨hyes, rfl⟩
  · refine ⟨by decide, ?_, hkept⟩
    cases fresh with
    | none => exact .inl (hu.regroup (by simp [inHand]))
    | some slot =>
      exact .inr ⟨⟨sync, hsync, htimeline, hneeded.symm⟩, slot, hu⟩
  · refine ⟨by decide, .inl ?_, hkept⟩
    rw [← hneeds, hno] at hneeded
    cases fresh with
    | none => exact hu.regroup (by simp [inHand])
    | some slot => cases hneeded
  · rw [← hneeds, hyes] at hneeded
    cases hneeded

lemma syncReset_accounted (id : ℕ) (h : s.Accounted extra) :
    Spec (s = ·) (syncReset kernel id) (fun _ t => t.Accounted extra) fun _ t => t.Accounted extra ∨
        s.CapturedTimeline id ∧ ∃ slot, t.Accounted ({slot} + extra) :=
  (syncReset_keeps id h (fun _ _ => trivial) (methodKeeps_trivial s extra _)).post
    (fun _ _ h => h.1) fun _ _ h => h.1

/-- Only a message that ends in these words asks for a slot. -/
lemma needsSlot_append (text : String) {ending : String}
    (h : ending.toList.getLast? = some ')') : needsSlot (.contract (text ++ ending)) = false := by
  show "needs a replacement slot".toList.isSuffixOf (text ++ ending).toList = false
  rw [String.toList_append, Bool.eq_false_iff]
  intro hsuffix
  obtain ⟨before, hbefore⟩ := isSuffixOf_iff_suffix.mp hsuffix
  have hlast : some 't' = some ')' := by
    simpa [h] using congrArg getLast? hbefore
  exact absurd hlast (by decide)

lemma needsSlot_extendPayload {low maximum : ℕ} {e : Error}
    (h : Fences.extendPayload low maximum = .error e) : needsSlot e = false := by
  unfold Fences.extendPayload at h
  dsimp only at h
  split at h
  · cases h
    decide
  · split_ifs at h
    cases h
    decide

/-- The error of a refused host value does not ask for a slot. -/
lemma needsSlot_hostSignal {value : ℕ} {e : Error} (h : pool.hostSignal slot value = .error e) :
    needsSlot e = false := by
  unfold SlotPool.hostSignal at h
  split at h
  · next hlive =>
    unfold SlotPool.live at hlive
    split_ifs at hlive
    cases hlive
    cases h
    rfl
  · split at h
    · cases h
    split at h
    · next hsplit =>
      cases h
      exact needsSlot_extendPayload hsplit
    · split_ifs at h
      cases h
      exact needsSlot_append _ (by decide)

lemma syncSignal_keeps {good : Core → Prop} (id value : ℕ) (h : s.Accounted extra)
    (hgood : ∀ t, Grown s t → good t) (hsignal : MethodKeeps s extra good (signal id value)) :
    Spec (s = ·) (syncSignal kernel id value) (fun _ t => t.Accounted extra ∧ good t)
      fun _ t => t.Accounted extra ∧ good t := by
  have hstart := hgood s (.refl s)
  refine .keeping (live_keeps _) (fun _ _ hs => hs ▸ ⟨h, hstart⟩) fun _ => ?_
  apply Spec.look
  refine .given ⟨h, hstart⟩ ?_
  intro sync hsync
  refine .seq ((slotIf_grown h).fallback fun _ t ht => ⟨ht.1, hgood t ht.2⟩) ?_
  intro fresh
  apply Spec.of_states
  rintro t ⟨ht, hgrown, hneeded, hfree⟩
  have hneeds := hgrown.needsFreshSlot h hsync
  apply withReplacement_once
  refine ((signal_replaces ht ((hgrown.syncRef id).trans hsync)).both
    (hsignal fresh t ht hgrown hfree)).post (fun _ _ h => ⟨h.1.releaseAll, h.2⟩) ?_
  rintro e u ⟨⟨hbad, hu⟩, hkept⟩
  rcases hbad with ⟨slot, htimeline, herr⟩ | ⟨hbinary, hyes, rfl⟩
  · refine ⟨needsSlot_hostSignal herr, ?_, hkept⟩
    rw [htimeline] at hneeded
    cases fresh with
    | none => exact hu.regroup (by simp [inHand])
    | some slot => cases hneeded
  · rw [← hneeds, hbinary, hyes] at hneeded
    cases hneeded

lemma syncSignal_accounted (id value : ℕ) :
    Keeps (·.Accounted extra) (syncSignal kernel id value) := by
  apply Spec.of_states
  intro s h
  exact (syncSignal_keeps id value h (fun _ _ => trivial) (methodKeeps_trivial s extra _)).post
    (fun _ _ h => h.1) fun _ _ h => h.1

/-! ## Reservations, exports, imports and moves -/

lemma syncRef_setSync_ne {other : ℕ} (sync : SyncObj) (hne : other ≠ id) (hid : id ≠ 0) :
    (core.setSync id sync).syncRef other = core.syncRef other := by
  unfold syncRef
  split_ifs with h0
  · rfl
  · have hindex : id - 1 ≠ other - 1 := by omega
    simp [setSync, getElem?_set_ne hindex]

lemma syncRef_setSync_self (sync' : SyncObj) (h : core.syncRef id = .ok sync) :
    (core.setSync id sync').syncRef id = .ok sync' := by
  obtain ⟨h0, hget⟩ := syncRef_eq_ok.mp h
  obtain ⟨hlt, -⟩ := List.getElem?_eq_some_iff.mp hget
  refine syncRef_eq_ok.mpr ⟨h0, ?_⟩
  simp [setSync, hlt]

/-- No handle is lost by setting one. -/
lemma syncRef_setSync_named {other : ℕ} {found : SyncObj} (sync' : SyncObj)
    (h : core.syncRef id = .ok sync) (hother : core.syncRef other = .ok found) :
    ∃ found', (core.setSync id sync').syncRef other = .ok found' := by
  by_cases heq : other = id
  · subst heq
    exact ⟨sync', syncRef_setSync_self sync' h⟩
  · exact ⟨found, (syncRef_setSync_ne sync' heq (syncRef_eq_ok.mp h).1).trans hother⟩

/-- A reservation binds the target to the payload of the source. -/
lemma syncReserve_spec {good : Core → Prop} {dst src : ℕ} (ht : good t)
    (hnative : ∀ sync target slot, t.syncRef src = .ok sync → t.syncRef dst = .ok target →
      sync.state.payload = .native slot → ∀ marked, marked = (t.retain slot).setSync src
        { sync with state := { sync.state with pending := some reserved } } →
      marked.syncRef dst = .ok target → good (marked.replace dst target (.native slot)))
    (hshared : ∀ sync target shared generation, t.syncRef src = .ok sync → sync.timeline = false →
      t.syncRef dst = .ok target → target.timeline = false → sync.state.payload = .shared shared →
      t.nextGeneration shared = .ok generation → ∀ started, started =
        t.setWord shared .target (max (t.load shared .target) generation) →
      good (((started.setWord shared .pending (max (started.load shared .pending) generation)).setSync dst
        { target with state := { target.state with
          payload := .shared shared, pending := none, snapshot := some generation } }).dropPayload
            target.state.payload)) : Ends t (syncReserve dst src) good := by
  refine .keeping (live_keeps _) (fun _ _ hs => hs ▸ ht) fun _ => ?_
  refine .guarded ht fun hne => .seq ?_ fun _ => .ret
  apply Spec.look
  refine .given ht fun sync hsync => .given ht fun target htarget => ?_
  refine .guarded ht fun hgood => ?_
  simp only [Bool.or_eq_true, not_or, Bool.not_eq_true] at hgood
  cases hpayload : sync.state.payload with
  | native slot =>
    refine .given ht fun signaled _ => ?_
    cases signaled with
    | true => exact .unchanged ht
    | false =>
      refine .last (hnative sync target slot hsync htarget hpayload _ rfl ?_)
      exact (syncRef_setSync_ne _ (Ne.symm hne) (syncRef_eq_ok.mp hsync).1).trans htarget
  | foreign foreign => exact .unchanged ht
  | shared shared =>
    refine .given ht fun generation hgeneration => ?_
    apply Spec.known (exec_maximum t shared .target generation)
    apply Spec.known (exec_maximum _ shared .pending generation)
    exact .last (hshared sync target shared generation hsync hgood.1.1 htarget hgood.1.2 hpayload
      hgeneration _ rfl)

/-- A new shared payload has no local slots. -/
lemma Accounted.pushShared {object : Shared} (h : core.Accounted extra)
    (hslots : object.slots = 0) :
    ({ core with shareds := core.shareds ++ [object] } : Core).Accounted extra := by
  refine h.exchange rfl ?_ ?_
  · simp [owners, payloadSlots, sharedSlots, gateSlots, hslots]
  · intro sync hsync
    exact (h.handles sync hsync).mono (by simp)

lemma createShared_accounted (ht : t.Accounted extra) (timeline : Bool) (completed pending : ℕ) :
    Spec (t = ·) (createShared kernel timeline completed pending)
      (fun shared u => u.Accounted extra ∧ u.syncs = t.syncs ∧ shared < u.shareds.length ∧
        (u.sharedAt shared).slots = 0)
      fun _ u => u.Accounted extra := by
  refine Spec.seq ((request_grown kernel.serve ht).fallback fun _ _ h => h.1) ?_
  intro _
  apply Spec.read
  rintro u ⟨hu, hgrown⟩
  refine .last ?_
  obtain ⟨pool, taken, requests, rfl⟩ := hgrown.rest
  refine ⟨(hu.pushShared rfl).congr rfl rfl rfl rfl rfl rfl rfl rfl, rfl, by simp, ?_⟩
  simp [sharedAt, Shared.slots]

section Shares

variable {sync : SyncObj} {id shared : ℕ} {slot : Slot}

/-- The handle names a shared payload and its slot is in hand. -/
lemma Accounted.shareState (h : core.Accounted extra) (hsync : core.syncRef id = .ok sync)
    (hpayload : sync.state.payload = .native slot) (hin : shared < core.shareds.length) :
    (core.setSync id (share.shareState sync shared)).Accounted ({slot} + extra) := by
  have hslots : sync.state.payload.slots = {slot} := by
    rw [hpayload]
    rfl
  rw [← hslots]
  refine .setSync (h.regroup (zero_add extra)) hsync ?_
  exact ⟨fun _ h => by cases h; exact hin, nofun⟩

/-- The slot goes to the shared payload. -/
lemma Accounted.giveSlot {object : Shared} (h : core.Accounted extra)
    (hsync : core.syncRef id = .ok sync) (hpayload : sync.state.payload = .native slot)
    (hin : shared < core.shareds.length) (hnone : (core.sharedAt shared).slots = 0)
    (hobject : object.slots = {slot}) :
    ((core.setShared shared object).setSync id (share.shareState sync shared)).Accounted extra := by
  have hshared := h.shareState hsync hpayload hin
  have hslots : object.slots + 0 = (core.sharedAt shared).slots + {slot} := by
    rw [hobject, hnone, zero_add, add_zero]
  exact (Accounted.trade hshared hin hslots).regroup (zero_add extra).symm

end Shares

/-- The slot of an unfinished signal goes to the new payload, any other slot is released. -/
lemma share_spec {good : Core → Prop} {made : Bool → ℕ → ℕ → Core → Prop} (ht : good t)
    (hcreate : ∀ timeline completed pending, completed ≤ pending → (timeline = false → pending ≤ 1) →
      Spec (t = ·) (createShared kernel timeline completed pending) (made timeline pending) fun _ => good)
    (hgive : ∀ sync slot pending shared u object, t.syncRef id = .ok sync →
      sync.state.payload = .native slot → made sync.timeline pending shared u →
      (sync.timeline = true ∧ object = { u.sharedAt shared with sources := [(slot, pending)] } ∨
        sync.timeline = false ∧ pending = 1 ∧
          object = { u.sharedAt shared with points := [(1, slot)] }) →
      good ((u.setShared shared object).setSync id (share.shareState sync shared)))
    (hdrop : ∀ sync slot pending shared u, t.syncRef id = .ok sync →
      sync.state.payload = .native slot → made sync.timeline pending shared u →
      good ((u.setSync id (share.shareState sync shared)).release slot)) :
    Ends t (share kernel id) good := by
  apply Spec.look
  refine .given ht ?_
  intro sync hsync
  cases hpayload : sync.state.payload with
  | shared shared => exact .unchanged ht
  | foreign foreign => exact .refused ht
  | native slot =>
    refine .branch (fun htime => .given ht fun completed _ => ?_) fun htime =>
      Spec.given ht fun word _ => ?_
    · refine .seq (hcreate _ _ _ (le_max_right _ _) (by simp)) fun shared => .finish ?_
      intro u hu
      rw [← htime] at hu
      split_ifs
      · exact hgive sync slot _ shared u _ hsync hpayload hu (.inl ⟨htime, rfl⟩)
      · exact hdrop sync slot _ shared u hsync hpayload hu
    · rw [Bool.not_eq_true] at htime
      refine .seq (hcreate _ _ _ ?_ ?_) fun shared => .finish ?_
      · by_cases hword : word = 1 <;> simp [hword]
      · intro _
        split_ifs <;> simp
      intro u hu
      rw [← htime] at hu
      split_ifs with hwaiting
      · simp only [Bool.and_eq_true, Bool.not_eq_true', decide_eq_false_iff_not] at hwaiting
        exact hgive sync slot _ shared u _ hsync hpayload hu
          (.inr ⟨htime, by simp [hwaiting.2], rfl⟩)
      · exact hdrop sync slot _ shared u hsync hpayload hu

/-- The handle names the shared payload, which takes over its slot or drops it. -/
lemma share_accounted (id : ℕ) : Keeps (·.Accounted extra) (share kernel id) := by
  apply Spec.of_states
  intro t ht
  refine share_spec ht (fun _ _ _ _ _ => createShared_accounted ht _ _ _) ?_ ?_
  · rintro sync slot pending shared u object hsync hpayload ⟨hu, hsyncs, hin, hnone⟩ hobject
    refine hu.giveSlot ((syncRef_congr hsyncs id).trans hsync) hpayload hin hnone ?_
    rcases hobject with ⟨-, rfl⟩ | ⟨-, -, rfl⟩ <;> simp_all [Shared.slots]
  · rintro sync slot pending shared u hsync hpayload ⟨hu, hsyncs, hin, -⟩
    exact (hu.shareState ((syncRef_congr hsyncs id).trans hsync) hpayload hin).release

lemma importOpaque_accounted (id : ℕ) (memory : Result ℕ) :
    Keeps (·.Accounted extra) (importOpaque id memory) := by
  apply Spec.fetched
  intro t ht sync hsync
  refine .given ht ?_
  intro memory _
  apply Spec.look
  refine .guarded ht fun _ => ?_
  apply Spec.change
  refine .replace ?_ hsync ?_ ?_
  · exact (ht.regroup (zero_add extra)).pushShared rfl
  · rintro shared ⟨⟩
    simp
  · rintro foreign ⟨⟩

lemma importSyncFile_accounted (id : ℕ) : Keeps (·.Accounted extra) (importSyncFile kernel id) := by
  apply Spec.fetched
  intro t ht sync hsync
  split_ifs with htimeline
  · exact .refused ht
  refine .seq ((request_grown kernel.status ht).fallback fun _ _ h => h.1) ?_
  intro status
  apply Spec.of_states
  rintro u ⟨hu, hgrown⟩
  refine .seq ((request_grown kernel.serve hu).fallback fun _ _ h => h.1) ?_
  intro _
  apply Spec.of_modify
  rintro v ⟨hv, hgrown'⟩
  refine .replace ?_ ?_ ?_ ?_
  · exact (hv.regroup (zero_add extra)).congr rfl rfl rfl rfl rfl rfl rfl rfl
  · exact ((hgrown.trans hgrown').syncRef id).trans hsync
  · rintro shared ⟨⟩
  · rintro foreign -
    simpa using htimeline

/-- A moved payload is in hand: its slots, and a state that a binary handle may hold. -/
def Moved (extra : Multiset Slot) (moved : SyncState) (t : Core) : Prop :=
  t.Accounted (moved.payload.slots + extra) ∧ HandleOk t.shareds.length ⟨false, moved⟩

/-- A native or foreign payload leaves with its state; a shared one stays with both. -/
lemma takeForMove_spec {good : Core → Prop} {ok : SyncState × Bool → Core → Prop} {fresh : Slot}
    (ht : good t)
    (hleave : ∀ sync, t.syncRef id = .ok sync → sync.timeline = false →
      (∀ shared, sync.state.payload ≠ .shared shared) →
      ok (sync.state, false) (t.setSync id { sync with state := ⟨.native fresh, none, 0, none⟩ }))
    (hstay : ∀ sync shared next changed, t.syncRef id = .ok sync → sync.timeline = false →
      sync.state.payload = .shared shared → checkedSucc (t.load shared .target) = some next →
      ok (⟨.shared shared, none, 0, some (sync.state.snapshot.getD (t.load shared .target))⟩, changed)
        (((t.setWord shared .target next).setSync id
          { sync with state := { sync.state with snapshot := none } }).release fresh)) :
    Spec (t = ·) (takeForMove id fresh) ok fun _ => good := by
  apply Spec.look
  refine .given ht ?_
  intro sync hsync
  refine .guarded ht fun hbinary => ?_
  rw [Bool.not_eq_true] at hbinary
  cases hpayload : sync.state.payload with
  | native slot | foreign foreign => exact .last (hleave sync hsync hbinary (by simp [hpayload]))
  | shared shared =>
    dsimp only
    cases hnext : checkedSucc (t.load shared .target) with
    | none => exact .refused ht
    | some next =>
      apply Spec.known (exec_store t shared .target next)
      exact .last (hstay sync shared next _ hsync hbinary hpayload hnext)

/-- The fresh slot is used or given back; it is still in hand where the move fails. -/
lemma takeForMove_accounted {fresh : Slot} (ht : t.Accounted ({fresh} + extra)) :
    Spec (t = ·) (takeForMove id fresh) (fun out => Moved extra out.1)
      fun _ u => u.Accounted ({fresh} + extra) := by
  refine takeForMove_spec ht ?_ ?_
  · intro sync hsync _ _
    exact ⟨.setSync ht hsync (.native rfl), ⟨(ht.handle hsync).named, fun _ _ => rfl⟩⟩
  · intro sync shared next _ hsync _ hpayload _
    refine ⟨?_, ⟨?_, fun _ _ => rfl⟩⟩
    · apply Accounted.release
      refine .setSync_same ?_ hsync rfl rfl
      exact (ht.regroup (by simp [Payload.slots])).congr rfl rfl rfl rfl rfl rfl rfl rfl
    · rintro _ ⟨⟩
      exact (ht.handle hsync).named shared hpayload

lemma takeForMove_other {fresh : Slot} : Yields (t = ·) (takeForMove id fresh)
    fun _ u => ∀ other, other ≠ id → u.syncRef other = t.syncRef other := by
  refine takeForMove_spec trivial ?_ ?_
  · intro sync hsync _ _ other hne
    exact syncRef_setSync_ne _ hne (syncRef_eq_ok.mp hsync).1
  · intro sync _ _ _ hsync _ _ _ other hne
    exact syncRef_setSync_ne _ hne (syncRef_eq_ok.mp hsync).1

/-! ## Calls -/

/-- A new handle has the slot that is allocated for it. -/
lemma syncCreate_spec {inv : Core → Prop} {allocated : Slot → Core → Prop} (timeline : Bool)
    (initial : ℕ) (hslot : Spec inv (Core.slot kernel) allocated fun _ => inv)
    (hstored : ∀ slot t pool, SameSlots t.pool pool → allocated slot t →
      allocated slot { t with pool := pool })
    (hpush : ∀ slot t sync, allocated slot t → sync.state.payload = .native slot →
      inv { t with syncs := t.syncs ++ [some sync] })
    (hback : ∀ slot t, allocated slot t → inv (t.release slot)) :
    Keeps inv (syncCreate kernel timeline initial) := by
  refine .keeping (live_keeps _) (fun _ _ h => h) fun _ => ?_
  refine .seq hslot ?_
  intro slot
  have hnew : Spec (allocated slot) (newSync timeline initial slot)
      (fun sync t => allocated slot t ∧ sync.state.payload = .native slot) fun _ => allocated slot := by
    apply Spec.fetched
    intro t ht pool hpool
    refine .write (allocated slot) ?_ (.of_pure fun u hu => ⟨hu, rfl⟩)
    rintro _ rfl
    refine hstored slot t pool ?_ ht
    split_ifs at hpool
    · exact sameSlots_initTimeline hpool
    · exact sameSlots_store32 hpool
    · cases hpool
      exact ⟨_, rfl⟩
  refine .observe hnew ?_ ?_
  · intro sync
    refine .write inv ?_ (.read fun t ht => .unchanged ht)
    rintro t ⟨ht, hpayload⟩
    exact hpush slot t sync ht hpayload
  · intro e
    exact .write inv (hback slot) Spec.raise

lemma syncCreate_accounted (timeline : Bool) (initial : ℕ) :
    Keeps (·.Accounted extra) (syncCreate kernel timeline initial) := by
  refine syncCreate_spec timeline initial slot_accounted (fun _ _ _ hpool ht => ht.stored hpool) ?_
    fun _ _ ht => ht.release
  intro slot t sync ht hpayload
  have hslots : ((t.syncs ++ [some sync]).map handleSlots).sum = t.payloadSlots + {slot} := by
    simp [payloadSlots, handleSlots, hpayload, Payload.slots]
  refine ht.exchange rfl ?_ ?_
  · show ((t.syncs ++ [some sync]).map handleSlots).sum + t.sharedSlots + t.gateSlots + extra =
      t.payloadSlots + t.sharedSlots + t.gateSlots + ({slot} + extra)
    rw [hslots]
    abel
  · intro other hother
    rcases mem_append.mp hother with hold | hnew
    · exact ht.handles other hold
    · cases mem_singleton.mp hnew
      exact .native hpayload

lemma syncDestroy_accounted (id : ℕ) : Keeps (·.Accounted extra) (syncDestroy id) := by
  apply Spec.fetched
  intro t ht sync hsync
  apply Spec.change
  apply Accounted.dropPayload
  have hsum : ((t.syncs.set (id - 1) none).map handleSlots).sum + sync.state.payload.slots =
      t.payloadSlots + 0 := References.sum_set handleSlots none (syncRef_eq_ok.mp hsync).2
  refine ht.exchange rfl ?_ ?_
  · show ((t.syncs.set (id - 1) none).map handleSlots).sum + t.sharedSlots + t.gateSlots +
      (sync.state.payload.slots + extra) = t.payloadSlots + t.sharedSlots + t.gateSlots + extra
    rw [← add_zero t.payloadSlots, ← hsum]
    abel
  · intro other hother
    rcases mem_or_eq_of_mem_set hother with hold | hnew
    · exact ht.handles other hold
    · cases hnew

/-- A fresh slot takes the place of the payload that is moved. -/
lemma syncMove_spec {good bad : Core → Prop} {allocated : Slot → Core → Prop}
    {moved : SyncState × Bool → Core → Prop} {dst src : ℕ} (ht : bad t)
    (hslot : Spec (t = ·) (Core.slot kernel) allocated fun _ => bad)
    (htake : ∀ fresh u, Allocates t u → allocated fresh u →
      Spec (u = ·) (takeForMove src fresh) moved fun _ v => bad (v.release fresh))
    (hinstall : ∀ target out v, dst ≠ src → target.timeline = false → v.syncRef dst = .ok target →
      moved out v → good (v.installMoved dst target out.1)) :
    Spec (t = ·) (syncMove kernel dst src) (fun _ => good) fun _ => bad := by
  refine .keeping (live_keeps _) (fun _ _ hs => hs ▸ ht) fun _ => ?_
  refine .guarded ht fun hne => ?_
  apply Spec.look
  refine .given ht fun source _ => ?_
  apply Spec.look
  refine .given ht fun target htarget => ?_
  refine .guarded ht fun hbinary => ?_
  simp only [Bool.or_eq_true, not_or, Bool.not_eq_true] at hbinary
  refine .seq ((hslot.both (slot_allocates.enter (.refl t))).fallback fun _ _ h => h.1) fun fresh => ?_
  apply Spec.of_states
  rintro u ⟨hu, hsame, -⟩
  refine .observe ((htake fresh u hsame hu).both takeForMove_other) ?_ ?_
  · intro out
    refine .of_modify fun v hv => hinstall target out v (Ne.symm hne) hbinary.2 ?_ hv.1
    exact (hv.2 dst (Ne.symm hne)).trans ((syncRef_congr (by rw [hsame.rest]) dst).trans htarget)
  · intro e
    exact .write bad (fun v hv => hv.1) Spec.raise

lemma syncMove_accounted (dst src : ℕ) : Keeps (·.Accounted extra) (syncMove kernel dst src) := by
  apply Spec.of_states
  intro t ht
  refine syncMove_spec ht ((slot_grown ht).fallback fun _ _ h => h.1)
    (fun fresh u _ hu => (takeForMove_accounted hu.accounted).fallback fun _ v hv => hv.release) ?_
  rintro target out v - hbinary htarget ⟨hv, hmoved⟩
  refine .rebind hv htarget ?_
  rw [hbinary]
  exact hmoved

lemma syncReserve_accounted (dst src : ℕ) : Keeps (·.Accounted extra) (syncReserve dst src) := by
  apply Spec.of_states
  intro t ht
  refine syncReserve_spec ht ?_ ?_
  · rintro sync target slot hsync - hpayload _ rfl htarget
    have hslot : slot ∈ t.owners + extra := by
      simp only [owners, Multiset.mem_add]
      exact .inl (.inl (.inl (mem_payloadSlots hsync hpayload)))
    exact .replace_native ((ht.retain hslot).setSync_same hsync rfl rfl) htarget
  · rintro sync target shared generation hsync - htarget - hpayload - _ rfl
    refine .rebind ?_ htarget ?_
    · exact (ht.regroup (zero_add extra)).congr rfl rfl rfl rfl rfl rfl rfl rfl
    · refine ⟨fun _ h => ?_, fun _ h => by cases h⟩
      cases h
      exact (ht.handle hsync).named shared hpayload

end NvidiaProlapse.Core
