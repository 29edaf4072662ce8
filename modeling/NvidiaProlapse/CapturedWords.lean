import NvidiaProlapse.HandleMethods
import NvidiaProlapse.SlotConservation

/-!
# CPU writes and captured slots

A CPU reset or signal of a binary payload writes a slot only where the payload owns
its only reference, or where the slot was just allocated for the call. The words of
every slot with another owner are left as they were.
-/
namespace NvidiaProlapse.Core
open Programs Multiset

variable {kernel : Kernel} {extra : Multiset Slot} {s t : Core} {id value : ℕ} {slot : Slot}

lemma words_releaseAll (core : Core) (slots : List Slot) :
    (core.releaseAll slots).pool.words = core.pool.words := by
  induction slots generalizing core with
  | nil => rfl
  | cons slot slots ih => exact ih (core.release slot)

lemma words_dropPayload (core : Core) (payload : Payload) :
    (core.dropPayload payload).pool.words = core.pool.words := by
  cases payload with
  | native slot => rfl
  | foreign foreign => rfl
  | shared shared =>
    show (core.dropShared shared).pool.words = _
    unfold dropShared
    split_ifs
    · rfl
    · rw [words_releaseAll, words_releaseAll]
      rfl

lemma words_setWord32_ne (pool : SlotPool) {other : Slot} (value : ℕ) (hne : slot ≠ other) :
    (pool.setWord32 other value).words slot = pool.words slot :=
  Function.update_of_ne hne ..

lemma words_store32 {pool pool' : SlotPool} {other : Slot} (hne : slot ≠ other)
    (h : pool.store32 other value = .ok pool') : pool'.words slot = pool.words slot := by
  unfold SlotPool.store32 at h
  split at h
  · cases h
  · cases h
    exact words_setWord32_ne pool value hne

/-- The words of the slot are as they were in `s`. -/
def Spared (s : Core) (slot : Slot) (t : Core) : Prop := t.pool.words slot = s.pool.words slot

variable {fresh : Option Slot} {sync : SyncObj}

/-- Another owner keeps a payload from writing its slot in place. -/
lemma ne_of_extra {own : Slot} {hand : Multiset Slot} (ht : t.Accounted (hand + extra))
    (hsync : t.syncRef id = .ok sync) (hpayload : sync.state.payload = .native own)
    (hrefs : t.pool.refs own = 1) (hslot : slot ∈ extra) : slot ≠ own := by
  rintro rfl
  have hcount := ht.balanced.count slot
  have hpos := count_pos.mpr (mem_payloadSlots hsync hpayload)
  have hpos' := count_pos.mpr hslot
  simp only [owners, count_add] at hcount
  omega

lemma Rewritten.spared {signalled : Option ℕ} {u : Core} (h : Rewritten t id fresh signalled u)
    (ht : t.Accounted (inHand fresh + extra)) (hslot : slot ∈ extra)
    (hfresh : ∀ other ∈ fresh, slot ≠ other)
    (hbinary : signalled = none ∨ ∀ sync, t.syncRef id = .ok sync → sync.timeline = false)
    (hspared : Spared s slot t) : Spared s slot u := by
  obtain ⟨sync, hsync, hcase⟩ := h
  cases hcase with
  | inPlace hpayload hrefs hpool _ =>
    exact (words_store32 (ne_of_extra ht hsync hpayload hrefs hslot) hpool).trans hspared
  | counted htimeline _ =>
    rcases hbinary with hreset | hbinary
    · cases hreset
    · cases (hbinary sync hsync).symm.trans htimeline
  | @bound _ other pool _ hother hpool =>
    show ((Core.setSync { t with pool := pool } id _).dropPayload _).pool.words slot = _
    rw [words_dropPayload]
    rcases hpool with rfl | hpool
    · exact hspared
    · exact (words_store32 (hfresh other hother) hpool).trans hspared
  | advanced _ _ _ | completed _ => exact hspared

/-! ## The calls -/

lemma refs_ne_zero (h : s.Accounted extra) (hslot : slot ∈ extra) : s.pool.refs slot ≠ 0 := by
  have hcount := h.balanced.count slot
  have hpos := count_pos.mpr hslot
  rw [count_add] at hcount
  omega

lemma Spared.releaseAll {t : Core} (h : Spared s slot t) (slots : List Slot) :
    Spared s slot (t.releaseAll slots) := by
  show (t.releaseAll slots).pool.words slot = _
  rw [words_releaseAll]
  exact h

lemma spared_of_rewrites {signalled : Option ℕ}
    {method : Option Slot → Prog Core Error (Option Slot × Bool)} (h : s.Accounted extra)
    (hslot : slot ∈ extra)
    (hmethod : ∀ t fresh, Spec (t = ·) (method fresh) (fun _ => Rewritten t id fresh signalled)
      fun _ => (t = ·))
    (hbinary : signalled = none ∨ ∀ sync, s.syncRef id = .ok sync → sync.timeline = false) :
    MethodKeeps s extra (Spared s slot) method := by
  intro fresh t ht hgrown hfree
  have hrefs := refs_ne_zero h hslot
  have hspared : Spared s slot t := hgrown.words slot hrefs
  refine (hmethod t fresh).post (fun out u hu => ?_) fun _ _ hu => hu ▸ hspared
  refine (hu.spared ht hslot ?_ ?_ hspared).releaseAll out.1.toList
  · rintro other hother rfl
    exact hrefs (hfree slot hother)
  · rw [hgrown.syncRef id]
    exact hbinary

lemma syncReset_spared (h : s.Accounted extra) (hslot : slot ∈ extra) :
    Ends s (syncReset kernel id) (Spared s slot) :=
  (syncReset_keeps id h (fun _ ht => ht.words slot (refs_ne_zero h hslot))
    (spared_of_rewrites h hslot (reset_rewrites · id) (.inl rfl))).post (fun _ _ h => h.2) fun _ _ h => h.2

lemma syncSignal_spared (h : s.Accounted extra) (hslot : slot ∈ extra)
    (hbinary : ∀ sync, s.syncRef id = .ok sync → sync.timeline = false) :
    Ends s (syncSignal kernel id value) (Spared s slot) :=
  (syncSignal_keeps id value h (fun _ ht => ht.words slot (refs_ne_zero h hslot))
    (spared_of_rewrites h hslot (signal_rewrites · id value) (.inr hbinary))).post
    (fun _ _ h => h.2) fun _ _ h => h.2

end NvidiaProlapse.Core
