import NvidiaProlapse.BatchAccounts
import NvidiaProlapse.BridgeCalls

/-!
# What the other calls do to slot references

Contexts, exports and the calls on single handles. `Tracked track extra` carries a
property `track` of the handles along; the part of a call that changes handles has to
keep it.
-/
namespace NvidiaProlapse.Bridge
open Programs Gpfifo

variable {kernel : Kernel} {b c : Bridge} {extra : Multiset Slot} {base track : Core → Prop}
  {slot : Slot}

variable {α : Type} {id : ℕ} {s : Core} {encode : Encoder} {why : Prop}

/-- A program of the core that changes handles. -/
lemma onCore_handle {p : Prog Core Error α} {bad : Error → Core → Prop}
    (hp : Spec (b.core = ·) p (fun _ t => t.Accounted (b.slots + extra)) bad)
    (htrack : Spec (b.core = ·) p (fun _ => track) fun _ => track) :
    Spec (b = ·) (onCore p) (fun _ => Tracked track extra)
      fun e c => ∃ t, c = { b with core := t } ∧ bad e t ∧ track t := by
  apply Spec.of_focus
  rintro _ rfl
  refine (hp.both htrack).post ?_ ?_
  · exact fun _ t ht => ⟨ht.1, ht.2⟩
  · exact fun _ t ht => ⟨t, rfl, ht.1, ht.2⟩

lemma onCore_handle_keeps {p : Prog Core Error α} (hb : Tracked track extra b)
    (hp : ∀ extra, Keeps (·.Accounted extra) p)
    (htrack : Spec (b.core = ·) p (fun _ => track) fun _ => track) :
    Ends b (onCore p) (Tracked track extra) := by
  refine (onCore_handle ((hp _).enter hb.accounted) htrack).fallback ?_
  rintro _ _ ⟨t, rfl, ht, htrack⟩
  exact ⟨ht, htrack⟩

section

variable (htrack : Stable track)

include htrack

lemma slot_tracked :
    Spec (Tracked track extra) (onCore (Core.slot kernel))
      (fun slot => Tracked track ({slot} + extra)) fun _ => Tracked track extra := by
  apply Spec.of_focus
  intro b hb
  refine (Core.slot_from.enter (.start hb.accounted)).post ?_ ?_
  · rintro slot t ⟨ht, -⟩
    refine ⟨ht.accounted.regroup ?_, htrack _ _ ht.kept.toSameHandles hb.tracked⟩
    show b.slots + ({slot} + extra) = _
    abel
  · intro _ t ht
    exact ⟨ht.accounted, htrack _ _ ht.kept.toSameHandles hb.tracked⟩

lemma release_tracked (h : Tracked track ({slot} + extra) b) :
    Tracked track extra { b with core := b.core.release slot } := by
  refine ⟨Core.Accounted.release (h.accounted.regroup ?_),
    htrack b.core _ ⟨rfl, rfl, fun _ => le_rfl⟩ h.tracked⟩
  show {slot} + (b.slots + extra) = _
  abel

/-- A given-back reference before an error is returned. -/
lemma release_throw_tracked (e : Error) :
    Spec (Tracked track ({slot} + extra)) (do
      modify fun bridge : Bridge => { bridge with core := bridge.core.release slot }
      throw e : Prog Bridge Error α) (fun _ => Tracked track extra) fun _ => Tracked track extra :=
  Spec.write (Tracked track extra) (fun _ h => release_tracked htrack h) Spec.raise

lemma request_tracked (answer : ℕ → Result α) :
    Keeps (Tracked track extra) (onCore (Core.request answer)) :=
  tracked_of_keeping htrack fun _ => request_keeping answer

end

/-! ## Contexts -/

/-- A new queue owns its retirement word. -/
lemma slots_append (queue : Queue) (acquires : List (List (ℕ × Acquire))) :
    ({ b with queues := b.queues ++ [some queue], acquires := acquires } : Bridge).slots =
      b.slots + queue.slots := by
  unfold slots records
  simp only [List.map_append, List.sum_append, List.map_cons, List.map_nil, List.sum_singleton]
  rfl

lemma createContext_tracked (htrack : Stable track) (native64 : Bool) (tailGpu : ℕ)
    (share : Option ℕ) :
    Keeps (Tracked track extra) (createContext kernel native64 tailGpu share) := by
  refine .seq (slot_tracked htrack) ?_
  intro retire
  apply Spec.read
  intro b hb
  refine .observe (Spec.enter (?_ : Keeps (Tracked track ({retire} + extra)) _) hb) ?_
    fun e => release_throw_tracked htrack e
  · exact Spec.compute (fun _ _ => request_tracked htrack kernel.serve) fun _ _ _ h => h
  rintro ⟨⟩
  refine .write (Tracked track extra) ?_ (.read fun c hc => .unchanged hc)
  intro c hc
  refine ⟨hc.accounted.regroup ?_, hc.tracked⟩
  rw [slots_append]
  show c.slots + ({retire} + 0) + extra = _
  abel

lemma exportContext_tracked (htrack : Stable track) (native64 : Bool) (tailGpu : ℕ) :
    Keeps (Tracked track extra) (exportContext kernel native64 tailGpu) := by
  apply Spec.read
  intro b hb
  cases b.exportQueue with
  | some context => exact .unchanged hb
  | none =>
    refine .seq ((createContext_tracked htrack native64 tailGpu none).enter hb) fun context => ?_
    exact .write (Tracked track extra) (fun c hc => ⟨hc.accounted, hc.tracked⟩) Spec.ret

lemma contextFence_tracked (htrack : Stable track) (context token : ℕ) :
    Keeps (Tracked track extra) (contextFence kernel context token) := by
  apply Spec.read
  intro b hb
  have hsame : ∀ c, b = c → Tracked track extra c := fun c hc => hc ▸ hb
  refine .compute ?_ (fun _ c _ hc => hsame c hc)
  intro queue _
  exact .branch (fun _ => .of_throw hsame) fun _ =>
    (request_tracked htrack kernel.serve).enter hb

/-- The words of an acquired slot may change, and nothing else. -/
lemma sameSlots_unblockAcquire (completed : ℕ) (pool : SlotPool) (acquire : ℕ × Acquire) :
    Core.SameSlots pool (unblockAcquire completed pool acquire) := by
  unfold unblockAcquire
  split_ifs
  · exact .refl pool
  split
  · split
    · next hstore => exact Core.sameSlots_store32 hstore
    · exact .refl pool
  · split
    · next hsignal => exact Core.sameSlots_hostSignal hsignal
    · exact .refl pool

lemma sameSlots_unblock (completed : ℕ) (acquires : List (ℕ × Acquire)) (pool : SlotPool) :
    Core.SameSlots pool (acquires.foldl (unblockAcquire completed) pool) := by
  induction acquires generalizing pool with
  | nil => exact .refl pool
  | cons acquire acquires ih => exact (sameSlots_unblockAcquire completed pool acquire).trans (ih _)

lemma unblockLocked_tracked (htrack : Stable track) (context : ℕ) (h : Tracked track extra b) :
    Tracked track extra (b.unblockLocked context) := by
  unfold unblockLocked
  split
  · exact h
  · exact ⟨h.accounted.stored (sameSlots_unblock _ _ _),
      htrack b.core _ ⟨rfl, rfl, fun _ => le_rfl⟩ h.tracked⟩

/-- The queue's slots go back with it. -/
lemma dropQueue_tracked {context : ℕ} {queue : Queue} (htrack : Stable track)
    (hqueue : b.queueRef context = .ok queue) (h : Tracked track extra b) :
    Tracked track extra (b.dropQueue context queue) := by
  obtain ⟨rest, hrest, hset⟩ := slots_of_records_set hqueue
  have hrecords : (b.dropQueue context queue).records = b.records.set (context - 1) none := by
    unfold records dropQueue
    rw [List.map_set]
    rfl
  have hslots : (b.dropQueue context queue).slots = 0 + rest := hset _ none hrecords
  constructor
  · rw [hslots, zero_add]
    refine Core.Accounted.releaseAll (Core.Accounted.release (h.accounted.regroup ?_))
    rw [hrest]
    unfold Queue.slots
    abel
  · refine htrack b.core _ ?_ h.tracked
    show b.core.SameHandles ((b.core.release queue.shared.retire).releaseAll (queue.held.map Prod.snd))
    rw [Core.releaseAll_eq]
    exact ⟨rfl, rfl, fun _ => le_rfl⟩

lemma destroyContext_tracked (htrack : Stable track) (context : ℕ) (retired : Bool) :
    Keeps (Tracked track extra) (destroyContext kernel context retired) := by
  apply Spec.read
  intro b hb
  refine .given hb ?_
  intro _ _
  have hlose : Keeps (Tracked track extra) (onlyIf (retired = false) (do
      loseLocked
      modify fun bridge => bridge.unblockLocked context)) :=
    Keeps.onlyIf (.seq ((loseLocked_tracked htrack).fallback fun _ _ h => h.elim)
      fun _ => .of_modify fun _ h => unblockLocked_tracked htrack context h)
  refine .next (hlose.enter hb) ?_
  apply Spec.read
  intro c hc
  refine .given hc ?_
  intro queue hqueue
  refine .write (Tracked track extra) ?_ (tracked_of_keeping htrack fun _ => reclaim_keeping)
  rintro _ rfl
  exact dropQueue_tracked htrack hqueue hc

/-! ## Exports -/

/-- The slot that an export retains. -/
def Export.slots : Export → Multiset Slot
  | .slot slot => {slot}
  | _ => 0

lemma planExport_bound {sync : SyncObj} (hsync : s.syncRef id = .ok sync) :
    Spec (Core.Bound s extra) (planExport kernel sync)
      (fun out => Core.Bound s (out.slots + extra)) fun _ => Core.Bound s extra := by
  have hnone : ∀ t, Core.Bound s extra t → Core.Bound s (0 + extra) t := by
    intro t ht
    rwa [zero_add]
  apply Spec.read
  intro t ht
  have hsame : ∀ u, t = u → Core.Bound s extra u := fun u hu => hu ▸ ht
  cases hpayload : sync.state.payload with
  | foreign foreign =>
    have hrequest : Keeps (Core.Bound s extra) (Core.request kernel.serve) :=
      Core.bound_of_settled fun _ => Core.settled_of_from fun _ => Core.request_from kernel.serve
    exact .next (hrequest.enter ht) (.of_pure hnone)
  | native slot =>
    refine .given ht ?_
    intro word _
    refine .either (.of_pure fun u hu => hnone u (hsame u hu)) ?_
    cases sync.state.pending with
    | none => exact .refused ht
    | some pending =>
      refine .either ?_ (.of_pure fun u hu => hnone u (hsame u hu))
      refine .last ?_
      refine ⟨ht.accounted.retain ?_, ht.handles.syncs, ht.handles.shareds, ht.handles.taken⟩
      have hmem : slot ∈ t.payloadSlots :=
        Core.mem_payloadSlots ((Core.syncRef_congr ht.handles.syncs id).trans hsync) hpayload
      simp only [Core.owners, Multiset.mem_add]
      exact .inl (.inl (.inl hmem))
  | shared shared =>
    have hrefresh : Keeps (Core.Bound s extra) (Core.refresh shared) :=
      Core.bound_of_settled fun _ => Core.settled_of_from fun _ => Core.refresh_from shared
    refine .seq (hrefresh.enter ht) fun _ => ?_
    apply Spec.read
    intro u hu
    have hsame : ∀ v, u = v → Core.Bound s extra v := fun v hv => hv ▸ hu
    refine .either (.of_pure fun v hv => hnone v (hsame v hv)) ?_
    exact .guarded hu fun _ => .of_pure fun v hv =>
      hnone v (hsame v hv)

section

variable (htrack : Stable track)

include htrack

/-- An export batch holds a slot in hand. -/
lemma submitAcquire_tracked (context : ℕ) :
    Keeps (Tracked track ({slot} + extra)) (submitAcquire kernel encode context slot) := by
  apply Spec.read
  intro b hb
  refine .given hb ?_
  intro queue hqueue
  refine (onQueue_submit hqueue hb.accounted ?_).post ?_ ?_
  · rw [List.forall_mem_singleton]
    simp
  all_goals exact fun _ c hc => ⟨hc.accounted, htrack _ _ hc.kept.toSameHandles hb.tracked⟩

lemma exportSlot_tracked (native64 : Bool) (tailGpu : ℕ) :
    Spec (Tracked track ({slot} + extra)) (exportSlot kernel encode native64 tailGpu slot)
      (fun _ => Tracked track extra) fun _ => Tracked track extra := by
  refine .observe (exportContext_tracked htrack native64 tailGpu) ?_ fun e =>
    release_throw_tracked htrack e
  intro context
  refine .observe (submitAcquire_tracked htrack context) ?_ ?_
  · intro status
    refine .write (Tracked track extra) (fun _ h => release_tracked htrack h) ?_
    cases status with
    | full oldest => exact .raise
    | submitted token =>
      exact .write (Tracked track extra) (fun _ h => recordAcquires_tracked h)
        (contextFence_tracked htrack context token)
  · intro e
    exact .write (Tracked track extra) (fun _ h => release_tracked htrack h) Spec.raise

lemma exportGate_tracked (native64 : Bool) (tailGpu : ℕ) (shared target : ℕ) :
    Keeps (Tracked track extra) (exportGate kernel encode native64 tailGpu shared target) := by
  have hlose : ∀ e : Error, Keeps (Tracked track extra) (do
      loseLocked
      throw e : Prog Bridge Error Unit) := fun e =>
    Spec.seq ((loseLocked_tracked htrack).fallback fun _ _ h => h.elim) fun _ => .raise
  refine .seq (exportContext_tracked htrack native64 tailGpu) fun context => ?_
  refine .seq (slot_tracked htrack) fun gate => ?_
  refine .observe (submitAcquire_tracked htrack context) ?_ fun e => release_throw_tracked htrack e
  intro status
  cases status with
  | full oldest => exact release_throw_tracked htrack capacityExhausted
  | submitted token =>
    refine .write (Tracked track ({gate} + extra)) (fun _ h => recordAcquires_tracked h) ?_
    refine .observe (ensureWatcherHost_tracked htrack) ?_ ?_
    · intro _
      have hgate : Spec (Tracked track ({gate} + extra))
          (onCore (Core.sharedGate kernel shared target gate)) (fun _ => Tracked track extra)
          fun _ => Tracked track extra :=
        Spec.of_states fun d hd => onCore_takes_tracked htrack hd fun _ =>
          Core.sharedGate_bound shared target
      refine .observe hgate ?_ fun e => hlose e
      exact fun _ => contextFence_tracked htrack context token
    · intro e
      exact .write (Tracked track extra) (fun _ h => release_tracked htrack h) (hlose e)

lemma exportSyncFile_tracked (native64 : Bool) (tailGpu id : ℕ) :
    Keeps (Tracked track extra) (exportSyncFile kernel encode native64 tailGpu id) := by
  apply Spec.read
  intro b hb
  have hsame : ∀ c, b = c → Tracked track extra c := fun c hc => hc ▸ hb
  refine .compute ?_ (fun _ c _ hc => hsame c hc)
  intro sync hsync
  refine .either (.of_throw hsame) ?_
  refine .keeping (onCore_live_keeps _) (fun _ c hc => hsame c hc) fun _ => ?_
  have hplan : Spec (b = ·) (onCore (planExport kernel sync))
      (fun out => Tracked track (out.slots + extra)) fun _ => Tracked track extra := by
    have h := @onCore_tracked_at b extra track Export (planExport kernel sync) 0 0 Export.slots htrack
      (hb.regroup (zero_add extra)) fun rest => by
        simpa only [zero_add] using planExport_bound hsync
    simpa only [zero_add] using h
  refine .seq hplan fun out => ?_
  cases out with
  | done => exact .of_pure fun _ h => h.regroup (zero_add extra).symm
  | fence context token =>
    exact (contextFence_tracked htrack context token).before
      fun _ h => h.regroup (zero_add extra).symm
  | slot slot => exact exportSlot_tracked htrack native64 tailGpu
  | gate shared target =>
    exact (exportGate_tracked htrack native64 tailGpu shared target).before
      fun _ h => h.regroup (zero_add extra).symm

lemma exportOpaque_tracked (hb : Tracked track extra b)
    (hshare : Spec (b.core = ·) (Core.share kernel id) (fun _ => track) fun _ => track) :
    Ends b (exportOpaque kernel id) (Tracked track extra) := by
  refine .keeping (onCore_live_keeps _) (fun _ c hc => hc ▸ hb) fun _ => ?_
  refine .seq (onCore_handle_keeps hb (fun _ => Core.share_accounted id) hshare) ?_
  intro shared
  apply Spec.read
  intro c hc
  refine .either ?_ ((request_tracked htrack kernel.serve).enter hc)
  refine .next ((ensureWatcherHost_tracked htrack).enter hc) ?_
  have hpublish : Keeps (Tracked track extra) (onCore (Core.publish kernel shared)) :=
    onCore_keeps_tracked htrack fun _ _ => Core.bound_of_settled fun _ => Core.publish_settled shared
  exact .next hpublish (request_tracked htrack kernel.serve)

end

/-! ## Steps -/

lemma watch_settled (id : ℕ) : Keeps (Core.Settled s extra) (watch kernel id) := by
  apply Spec.fetched
  intro t ht sync _
  cases t.foreignOf sync with
  | some foreign => exact (Core.watchCpu_settled foreign).enter ht
  | none => exact .unchanged ht

lemma retainForeign_from : Keeps (Core.From s extra) (retainForeign kernel) := by
  refine .seq (Core.request_from kernel.status) fun status => ?_
  exact .of_modify fun t ht => ht.congr rfl rfl rfl rfl rfl rfl rfl

/-- The part of a call that changes handles outside of submissions. -/
def handlePart (host : Host) : Call → Prog Core Error Unit
  | .syncCreate timeline initial => ignore (Core.syncCreate host.kernel timeline initial)
  | .syncDestroy id => Core.syncDestroy id
  | .syncReset id => Core.syncReset host.kernel id
  | .syncSignal id value => Core.syncSignal host.kernel id value
  | .syncMove dst src => Core.syncMove host.kernel dst src
  | .syncReserve dst src => ignore (Core.syncReserve dst src)
  | .importOpaque id memory => do
    Core.live
    Core.importOpaque id memory
  | .importSyncFile id => do
    Core.live
    Core.importSyncFile host.kernel id
  | .exportOpaque id => ignore (Core.share host.kernel id)
  | _ => pure ()

/-- The calls that lose a slot. -/
def CallLeaks (host : Host) (b : Bridge) : Call → Prop
  | .syncReset id => b.core.CapturedTimeline id
  | .submit scan context pushes waits foreign signals =>
    SubmitStrands host.kernel scan context waits foreign b ∨
      SubmitLoses host.kernel host.encode scan context pushes waits foreign signals b
  | _ => False

/-- References accounted for, apart from those lost for the reason `why`. -/
def Short (track : Core → Prop) (extra : Multiset Slot) (why : Prop) (b : Bridge) : Prop :=
  ∃ lost : Multiset Slot, (lost ≠ 0 → why) ∧ Tracked track (lost + extra) b

lemma Tracked.short (h : Tracked track extra b) : Short track extra why b :=
  ⟨0, fun hne => absurd rfl hne, h.regroup (zero_add extra)⟩

lemma Spec.short {p : Prog Bridge Error Unit}
    (h : Spec (b = ·) p (fun _ => Tracked track extra) fun _ => Tracked track extra) :
    Ends b p (Short track extra why) :=
  h.post (fun _ _ h => h.short) fun _ _ h => h.short

lemma RolledBack.short {context : ℕ} {why' : Prop} {batch : List Slot} (htrack : Stable track)
    (hb : track b.core) (hwhy : why → why') (h : RolledBack b context extra why batch c) :
    Short track extra why' c := by
  obtain ⟨lost, hlost, hc⟩ := h.accounted
  exact ⟨lost, fun hne => hwhy (hlost hne), hc, htrack _ _ h.settles.toSameHandles hb⟩

lemma syncReset_short (hb : Tracked track extra b)
    (htrack : Spec (b.core = ·) (Core.syncReset kernel id) (fun _ => track) fun _ => track) :
    Ends b (onCore (Core.syncReset kernel id)) (Short track extra (b.core.CapturedTimeline id)) := by
  refine (onCore_handle (Core.syncReset_accounted id hb.accounted) htrack).post
    (fun _ _ h => h.short) ?_
  rintro _ _ ⟨t, rfl, hbad, ht⟩
  rcases hbad with hgood | ⟨hcaptured, slot, hslot⟩
  · exact Tracked.short ⟨hgood, ht⟩
  · refine ⟨{slot}, fun _ => hcaptured, hslot.regroup ?_, ht⟩
    show b.slots + ({slot} + extra) = _
    abel

lemma perform_short {host : Host} {call : Call} (hlasting : Lasting base track)
    (hb : Tracked track extra b)
    (hhandle : Spec (b.core = ·) (handlePart host call) (fun _ => track) fun _ => track) :
    Ends b (perform host call) (Short track extra (CallLeaks host b call)) := by
  have hstable := hlasting.same
  have hsettled : ∀ {p : Prog Core Error Unit}, (∀ s extra, Keeps (Core.Settled s extra) p) →
      Ends b (onCore p) (Short track extra (CallLeaks host b call)) :=
    fun h => Spec.short ((onCore_keeps_tracked hstable fun _ extra =>
      Core.bound_of_settled fun s => h s extra).enter hb)
  have hsettle : ∀ {f : Core → Core}, (∀ s extra t, Core.Settled s extra t →
      Core.Settled s extra (f t)) →
      Ends b (onCore (modify f)) (Short track extra (CallLeaks host b call)) :=
    fun h => hsettled fun s extra => Spec.of_modify fun t ht => h s extra t ht
  cases call with
  | syncCreate timeline initial =>
    exact Spec.short (onCore_handle_keeps hb
      (fun _ => Keeps.ignore (Core.syncCreate_accounted timeline initial)) hhandle)
  | syncDestroy id => exact Spec.short (onCore_handle_keeps hb (fun _ => Core.syncDestroy_accounted id) hhandle)
  | syncReset id => exact syncReset_short hb hhandle
  | syncSignal id value =>
    exact Spec.short (onCore_handle_keeps hb (fun _ => Core.syncSignal_accounted id value) hhandle)
  | syncMove dst src =>
    exact Spec.short (onCore_handle_keeps hb (fun _ => Core.syncMove_accounted dst src) hhandle)
  | syncReserve dst src =>
    exact Spec.short (onCore_handle_keeps hb
      (fun _ => Keeps.ignore (Core.syncReserve_accounted dst src)) hhandle)
  | ready id value pending =>
    exact hsettled fun _ _ => Keeps.ignore (Core.settled_of_from fun _ =>
      Core.ready_from id value pending)
  | value id =>
    exact hsettled fun _ _ => Keeps.ignore (Core.settled_of_from fun _ => Core.value_from id)
  | watch id => exact hsettled fun _ _ => watch_settled id
  | importOpaque id memory =>
    exact Spec.short (onCore_handle_keeps hb (fun _ => Spec.seq (Core.live_keeps _) fun _ =>
      Core.importOpaque_accounted id memory) hhandle)
  | importSyncFile id =>
    exact Spec.short (onCore_handle_keeps hb (fun _ => Spec.seq (Core.live_keeps _) fun _ =>
      Core.importSyncFile_accounted id) hhandle)
  | exportOpaque id => exact Spec.short (exportOpaque_tracked hstable hb (Spec.of_ignore hhandle))
  | exportSyncFile id =>
    refine Spec.short (Spec.keeping (onCore_live_keeps _) (fun _ c hc => hc ▸ hb) fun _ => ?_)
    exact (exportSyncFile_tracked hstable host.native64 host.tailGpu id).enter hb
  | retainForeign =>
    exact hsettled fun _ _ => Core.settled_of_from fun _ => retainForeign_from
  | submit scan context pushes waits foreign signals =>
    refine Spec.seq ((submit_settlement hlasting hb).fallback ?_) ?_
    · exact fun _ c hc => hc.short hstable hb.tracked Or.inl
    rintro (token | oldest)
    · refine Spec.of_pure ?_
      rintro c ⟨lost, hloses, hc⟩
      exact ⟨lost, fun hne => Or.inr (hloses hne), hc⟩
    · exact Spec.of_pure fun c hc => RolledBack.short hstable hb.tracked Or.inl hc
  | createContext share =>
    refine Spec.short (Spec.keeping (onCore_live_keeps _) (fun _ c hc => hc ▸ hb) fun _ => ?_)
    exact (Keeps.ignore (createContext_tracked hstable host.native64 host.tailGpu share)).enter hb
  | destroyContext context retired =>
    exact Spec.short ((destroyContext_tracked hstable context retired).enter hb)
  | service readable event => exact hsettled fun _ _ => Core.service_settled readable event
  | markLost => exact hsettle fun _ _ _ h => h.markLost
  | gpuWrite32 slot value | gpuWrite64 slot value => exact hsettle fun _ _ _ h => h.stored ⟨_, rfl⟩
  | peerFile memory | peerWrite memory words => exact hsettle fun _ _ _ h => h.setMemories _

end NvidiaProlapse.Bridge
