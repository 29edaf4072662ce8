import NvidiaProlapse.CapturedWords

/-!
# Handles detached from a slot

A handle is detached from a slot while it names another payload, or once the slot was
allocated again. Only a move or a reservation that hands over the slot from another
handle can undo that; every other call binds a handle to a freshly allocated slot, to
a shared payload or to a foreign one.
-/
namespace NvidiaProlapse.Core
open Programs

/-- As long as the slot was not allocated again since its `n`th allocation, the handle
does not name it. -/
structure Detached (id : ℕ) (slot : Slot) (n : ℕ) (core : Core) : Prop where
  since : n ≤ core.taken slot
  apart : core.taken slot = n → ∀ sync, core.syncRef id = .ok sync → sync.state.payload ≠ .native slot

variable {kernel : Kernel} {id n : ℕ} {slot : Slot} {s t : Core}

lemma Detached.congr (h : Detached id slot n s) (hsyncs : t.syncs = s.syncs)
    (htaken : ∀ other, s.taken other ≤ t.taken other) : Detached id slot n t := by
  refine ⟨h.since.trans (htaken slot), ?_⟩
  intro hn sync hsync
  refine h.apart ?_ sync ((syncRef_congr hsyncs id).symm.trans hsync)
  have hle := htaken slot
  have hsince := h.since
  omega

lemma detached_stable : Bridge.Stable (Detached id slot n) :=
  fun _ _ hsame h => h.congr hsame.syncs hsame.taken

lemma Detached.dropPayload (h : Detached id slot n t) (payload : Payload) :
    Detached id slot n (t.dropPayload payload) :=
  detached_stable _ _ (dropPayload_sameHandles t payload) h

variable {other dst src : ℕ} {sync : SyncObj} {fresh : Slot}

variable {sync' : SyncObj} {payload : Payload}

lemma Detached.setSync (h : Detached id slot n t) (hsync : t.syncRef other = .ok sync)
    (hpayload : other = id → t.taken slot = n → sync'.state.payload ≠ .native slot) :
    Detached id slot n (t.setSync other sync') := by
  refine ⟨h.since, ?_⟩
  intro hn found hfound
  by_cases heq : id = other
  · subst heq
    rw [syncRef_setSync_self sync' hsync] at hfound
    cases hfound
    exact hpayload rfl hn
  · rw [syncRef_setSync_ne sync' heq (syncRef_eq_ok.mp hsync).1] at hfound
    exact h.apart hn found hfound

/-- The handle keeps its payload. -/
lemma Detached.setSync_same (h : Detached id slot n t) (hsync : t.syncRef other = .ok sync)
    (hsame : sync'.state.payload = sync.state.payload) :
    Detached id slot n (t.setSync other sync') := by
  apply h.setSync hsync
  rintro rfl hn
  rw [hsame]
  exact h.apart hn sync hsync

lemma Detached.replace (h : Detached id slot n t) (hsync : t.syncRef other = .ok sync)
    (hpayload : other = id → t.taken slot = n → payload ≠ .native slot) :
    Detached id slot n (t.replace other sync payload) :=
  (h.setSync hsync hpayload).dropPayload _

/-- A handle is detached by its replacement. -/
lemma detached_replace (hsync : t.syncRef id = .ok sync) (hsince : n ≤ t.taken slot)
    (hpayload : t.taken slot = n → payload ≠ .native slot) :
    Detached id slot n (t.replace id sync payload) := by
  apply Detached.dropPayload
  refine ⟨hsince, ?_⟩
  intro hn found hfound
  rw [syncRef_setSync_self _ hsync] at hfound
  cases hfound
  exact hpayload hn

/-- Allocations are never undone. -/
lemma taken_lasting (slot : Slot) (n : ℕ) :
    Bridge.Lasting (fun _ => True) fun core => n ≤ core.taken slot where
  same := fun _ _ hsame h => h.trans (hsame.taken slot)
  based := fun _ _ => trivial
  rebind := by
    intro start core other fresh _ hcore _
    unfold Bridge.rebindNative
    cases core.syncRef other with
    | error e => exact hcore
    | ok sync => exact hcore.trans ((dropPayload_sameHandles (core.setSync other _) _).taken slot)
  commit := by
    intro core other context token value hcore
    unfold Bridge.commitSignal
    cases core.syncRef other with
    | error e | ok sync => exact hcore

lemma detached_lasting :
    Bridge.Lasting (fun core => n ≤ core.taken slot) (Detached id slot n) where
  same := detached_stable
  based := fun _ h => h.since
  rebind := by
    intro start core other fresh hstart hcore hfresh
    unfold Bridge.rebindNative
    cases hsync : core.syncRef other with
    | error e => exact hcore
    | ok sync =>
      refine hcore.replace hsync ?_
      rintro - hn heq
      cases heq
      omega
  commit := by
    intro core other context token value hcore
    unfold Bridge.commitSignal
    cases hsync : core.syncRef other with
    | error e => exact hcore
    | ok sync =>
      apply hcore.setSync_same hsync
      unfold Core.commitSignal
      split
      · split_ifs <;> rfl
      · rfl

/-! ## Allocations -/

lemma Allocates.sameHandles (h : Allocates s t) : SameHandles s t := by
  refine ⟨?_, ?_, h.taken⟩
  all_goals rw [h.rest]

lemma Detached.allocates (h : Detached id slot n s) (ht : Allocates s t) : Detached id slot n t :=
  detached_stable s t ht.sameHandles h

/-- The slot in hand may be bound to the handle. -/
def Unspent (slot : Slot) (n : ℕ) (fresh : Slot) (t : Core) : Prop := t.taken slot = n → fresh ≠ slot

lemma Detached.unspent (h : Detached id slot n s) (htaken : s.taken fresh < t.taken fresh) :
    Unspent slot n fresh t := by
  rintro hn rfl
  have hsince := h.since
  omega

lemma slot_detached :
    Spec (Detached id slot n) (Core.slot kernel)
      (fun fresh t => Detached id slot n t ∧ Unspent slot n fresh t) fun _ => Detached id slot n := by
  apply Spec.of_states
  intro s hs
  refine (slot_allocates.enter (.refl s)).post ?_ ?_
  · rintro fresh t ⟨hsame, htaken⟩
    exact ⟨hs.allocates hsame, hs.unspent htaken⟩
  · intro _ t hsame
    exact hs.allocates hsame

/-! ## Resets and signals -/

section Methods

variable {other value : ℕ} {sync : SyncObj} {fresh : Option Slot} {missing : String}

/-- A handle is detached and the slot in an optional hand may be bound to it. -/
def Supplied (id : ℕ) (slot : Slot) (n : ℕ) (fresh : Option Slot) (t : Core) : Prop :=
  Detached id slot n t ∧ ∀ f ∈ fresh, Unspent slot n f t

variable {signalled : Option ℕ}

lemma Rewritten.detached {u : Core} (h : Rewritten t other fresh signalled u)
    (ht : Supplied id slot n fresh t) : Detached id slot n u := by
  have hsame : ∀ u, u.syncs = t.syncs → u.taken = t.taken → Detached id slot n u :=
    fun u hsyncs htaken => ht.1.congr hsyncs fun _ => htaken ▸ le_rfl
  obtain ⟨sync, hsync, hcase⟩ := h
  cases hcase with
  | inPlace _ _ _ hremarks | counted _ hremarks => exact .setSync_same (hsame _ rfl rfl) hsync hremarks.payload
  | bound _ hfresh _ =>
    refine .replace (hsame _ rfl rfl) hsync ?_
    rintro - hn heq
    cases heq
    exact ht.2 slot hfresh hn rfl
  | advanced _ _ _ => exact .setSync_same (hsame _ rfl rfl) hsync rfl
  | completed _ => exact hsame _ rfl rfl

lemma Detached.releaseAll (h : Detached id slot n t) (slots : List Slot) :
    Detached id slot n (t.releaseAll slots) := by
  rw [releaseAll_eq]
  exact h.congr rfl fun _ => le_rfl

lemma detached_upkeep : Upkeep kernel other signalled (Detached id slot n)
    (Supplied id slot n) (Detached id slot n) where
  slot := slot_detached.after fun _ _ h => ⟨h.1, by simpa using h.2⟩
  empty := fun _ ht => ⟨ht, by simp⟩
  back := fun _ _ ht => ht.1
  step := fun _ _ _ ht hu => hu.detached ht
  release := fun _ _ ht => ht.releaseAll _

end Methods

lemma syncReset_detached (other : ℕ) : Keeps (Detached id slot n) (syncReset kernel other) :=
  detached_upkeep.syncReset fun _ h => h

lemma syncSignal_detached (other value : ℕ) :
    Keeps (Detached id slot n) (syncSignal kernel other value) := detached_upkeep.syncSignal fun _ h => h

/-! ## Other calls on handles -/

lemma Detached.push (h : Detached id slot n t) (hfresh : Unspent slot n fresh t)
    (hpayload : sync.state.payload = .native fresh) :
    Detached id slot n { t with syncs := t.syncs ++ [some sync] } := by
  refine ⟨h.since, ?_⟩
  intro hn found hfound
  obtain ⟨h0, hget⟩ := syncRef_eq_ok.mp hfound
  rcases lt_or_ge (id - 1) t.syncs.length with hlt | hge
  · rw [List.getElem?_append_left hlt] at hget
    exact h.apart hn found (syncRef_eq_ok.mpr ⟨h0, hget⟩)
  rw [List.getElem?_append_right hge] at hget
  have hnew := List.mem_of_getElem? hget
  simp only [List.mem_singleton, Option.some.injEq] at hnew
  subst hnew
  rw [hpayload]
  rintro ⟨⟩
  exact hfresh hn rfl

lemma syncCreate_detached (timeline : Bool) (initial : ℕ) :
    Keeps (Detached id slot n) (syncCreate kernel timeline initial) := by
  refine syncCreate_spec timeline initial slot_detached ?_ ?_ ?_
  · exact fun _ t _ _ ht => ⟨ht.1.congr rfl fun _ => le_rfl, ht.2⟩
  · exact fun _ t _ ht => ht.1.push ht.2
  · exact fun _ t ht => ht.1.congr rfl fun _ => le_rfl

lemma syncDestroy_detached (other : ℕ) : Keeps (Detached id slot n) (syncDestroy other) := by
  apply Spec.fetched
  intro t ht sync _
  apply Spec.change
  apply Detached.dropPayload
  refine ⟨ht.since, ?_⟩
  intro hn found hfound
  obtain ⟨h0, hget⟩ := syncRef_eq_ok.mp hfound
  rw [List.getElem?_set] at hget
  split_ifs at hget
  · cases hget
  · exact ht.apart hn found (syncRef_eq_ok.mpr ⟨h0, hget⟩)

/-- A handle names the slot. -/
def Has (core : Core) (id : ℕ) (slot : Slot) : Prop :=
  ∃ sync, core.syncRef id = .ok sync ∧ sync.state.payload = .native slot

/-- The moved payload may be installed in the handle. -/
def Movable (id : ℕ) (slot : Slot) (n : ℕ) (dst : ℕ) (moved : SyncState) (t : Core) : Prop :=
  Detached id slot n t ∧ (dst = id → moved.payload ≠ .native slot)

lemma takeForMove_detached (ht : Detached id slot n t) (hfresh : Unspent slot n fresh t)
    (hhas : dst = id → ¬ t.Has src slot) : Spec (t = ·) (takeForMove src fresh)
      (fun out => Movable id slot n dst out.1) fun _ => Detached id slot n := by
  refine takeForMove_spec ht ?_ ?_
  · intro sync hsync _ _
    refine ⟨ht.setSync hsync ?_, fun hdst hpayload => hhas hdst ⟨sync, hsync, hpayload⟩⟩
    rintro - hn heq
    cases heq
    exact hfresh hn rfl
  · intro sync shared next _ hsync _ _ _
    have hstored : Detached id slot n (t.setWord shared .target next) := ht.congr rfl fun _ => le_rfl
    have hset : Detached id slot n ((t.setWord shared .target next).setSync src
        { sync with state := { sync.state with snapshot := none } }) :=
      hstored.setSync_same hsync rfl
    exact ⟨hset.congr rfl fun _ => le_rfl, nofun⟩

lemma syncMove_detached (hs : Detached id slot n s) (hhas : dst = id → ¬ s.Has src slot) :
    Ends s (syncMove kernel dst src) (Detached id slot n) := by
  apply syncMove_spec hs ((slot_allocates.enter (.refl s)).fallback fun _ t ht => hs.allocates ht)
  · rintro fresh t hslot ⟨-, htaken⟩
    have hhas' : dst = id → ¬ t.Has src slot := by
      rintro hdst ⟨sync, hsync, hpayload⟩
      exact hhas hdst ⟨sync, (syncRef_congr hslot.sameHandles.syncs src).symm.trans hsync, hpayload⟩
    exact (takeForMove_detached (hs.allocates hslot) (hs.unspent htaken) hhas').fallback
      fun _ u hu => hu.congr rfl fun _ => le_rfl
  · rintro target out u - - htarget ⟨hu, hmoved⟩
    exact (hu.setSync htarget fun hdst _ => hmoved hdst).dropPayload _

lemma syncReserve_detached (hs : Detached id slot n s) (hhas : dst = id → ¬ s.Has src slot) :
    Ends s (syncReserve dst src) (Detached id slot n) := by
  refine syncReserve_spec hs ?_ ?_
  · rintro sync target own hsync - hpayload _ rfl htarget
    have hretained : Detached id slot n (s.retain own) := hs.congr rfl fun _ => le_rfl
    refine .replace (hretained.setSync_same hsync rfl) htarget ?_
    rintro hdst - heq
    cases heq
    exact hhas hdst ⟨sync, hsync, hpayload⟩
  · rintro sync target shared generation - - htarget - - - _ rfl
    apply Detached.dropPayload
    refine .setSync (hs.congr rfl fun _ => le_rfl) htarget ?_
    rintro - - ⟨⟩

lemma importOpaque_detached (other : ℕ) (memory : Result ℕ) :
    Keeps (Detached id slot n) (importOpaque other memory) := by
  apply Spec.fetched
  intro t ht sync hsync
  refine .given ht ?_
  intro memory _
  apply Spec.look
  refine .guarded ht fun _ => ?_
  apply Spec.change
  refine .replace ?_ hsync ?_
  · exact ht.congr rfl fun _ => le_rfl
  · rintro - - ⟨⟩

lemma importSyncFile_detached (other : ℕ) :
    Keeps (Detached id slot n) (importSyncFile kernel other) := by
  apply Spec.fetched
  intro t ht sync hsync
  refine .guarded ht fun _ => ?_
  refine .seq (((request_allocates kernel.status).enter (.refl t)).fallback
    fun _ u hu => ht.allocates hu) ?_
  intro status
  refine .seq ((request_allocates kernel.serve).fallback fun _ u hu => ht.allocates hu) ?_
  intro _
  apply Spec.of_modify
  intro u hu
  refine .replace ?_ ((syncRef_congr hu.sameHandles.syncs other).trans hsync) ?_
  · exact ht.congr hu.sameHandles.syncs hu.taken
  · rintro - - ⟨⟩

lemma createShared_detached (timeline : Bool) (completed pending : ℕ) (ht : Detached id slot n t) :
    Spec (t = ·) (createShared kernel timeline completed pending)
      (fun _ u => Detached id slot n u ∧ u.syncs = t.syncs) fun _ => Detached id slot n := by
  refine .seq (((request_allocates kernel.serve).enter (.refl t)).fallback
    fun _ u hu => ht.allocates hu) ?_
  intro _
  apply Spec.read
  intro u hu
  refine .last ?_
  exact ⟨ht.congr hu.sameHandles.syncs hu.taken, hu.sameHandles.syncs⟩

lemma share_detached (other : ℕ) : Keeps (Detached id slot n) (share kernel other) := by
  apply Spec.of_states
  intro t ht
  -- The handle names the shared payload, whatever becomes of its slot.
  have hshared : ∀ {u v : Core} {sync : SyncObj} (shared : ℕ), t.syncRef other = .ok sync →
      Detached id slot n u ∧ u.syncs = t.syncs → v.syncs = u.syncs → v.taken = u.taken →
      Detached id slot n (v.setSync other (share.shareState sync shared)) := by
    rintro u v sync shared hsync ⟨hu, hsyncs⟩ hv htaken
    refine .setSync (hu.congr hv fun _ => htaken ▸ le_rfl)
      ((syncRef_congr (hv.trans hsyncs) other).trans hsync) ?_
    rintro - - ⟨⟩
  refine share_spec ht (fun _ _ _ _ _ => createShared_detached _ _ _ ht) ?_ ?_
  · intro sync own pending shared u object hsync _ hu _
    exact hshared shared hsync hu rfl rfl
  · intro sync own pending shared u hsync _ hu
    exact (hshared shared hsync hu rfl rfl).congr rfl fun _ => le_rfl

end NvidiaProlapse.Core

namespace NvidiaProlapse.Bridge
open Programs

/-- The call hands the slot back to the handle from another one that names it. -/
def Returns (core : Core) (id : ℕ) (slot : Slot) : Call → Prop
  | .syncMove dst src => dst = id ∧ core.Has src slot
  | .syncReserve dst src => dst = id ∧ core.Has src slot
  | _ => False

lemma handlePart_detached {host : Host} {s : Core} {id n : ℕ} {slot : Slot} {call : Call}
    (hs : Core.Detached id slot n s) (hcall : ¬ Returns s id slot call) :
    Ends s (handlePart host call) (Core.Detached id slot n) := by
  have hkeeps : ∀ {p : Prog Core Error Unit}, Keeps (Core.Detached id slot n) p →
      Ends s p (Core.Detached id slot n) :=
    fun hp => hp.enter hs
  cases call with
  | syncCreate timeline initial => exact hkeeps (.ignore (Core.syncCreate_detached timeline initial))
  | syncDestroy other => exact hkeeps (Core.syncDestroy_detached other)
  | syncReset other => exact hkeeps (Core.syncReset_detached other)
  | syncSignal other value => exact hkeeps (Core.syncSignal_detached other value)
  | syncMove dst src =>
    exact Core.syncMove_detached hs fun hdst hhas => hcall ⟨hdst, hhas⟩
  | syncReserve dst src =>
    exact .seq (Core.syncReserve_detached hs fun hdst hhas => hcall ⟨hdst, hhas⟩) fun _ =>
      Spec.ret
  | importOpaque other memory =>
    exact hkeeps (.next (Core.live_keeps _) (Core.importOpaque_detached other memory))
  | importSyncFile other =>
    exact hkeeps (.next (Core.live_keeps _) (Core.importSyncFile_detached other))
  | exportOpaque other => exact hkeeps (.ignore (Core.share_detached other))
  | _ => exact .unchanged hs

end NvidiaProlapse.Bridge
