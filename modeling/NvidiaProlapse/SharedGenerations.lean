import NvidiaProlapse.SharedHandles

/-!
# Generations of shared binary payloads

Runs of operations on the handles of a device: handles are created, exported, imported,
reset, signalled on the CPU or by a batch, reserved, moved and destroyed, the GPU writes
slots and shared payloads publish them. Reserved and moved generations may be signalled
at any later time. The words of a binary memory file stay in order, a reset or moved
handle is neither ready nor pending, and the deferred signal of an older generation does
not make a handle ready that stands for the current one.
-/
namespace NvidiaProlapse.Core
open Programs

variable {kernel : Kernel} {s t u : Core} {id shared value g m : ℕ} {sync : SyncObj} {slot : Slot}

/-- An accepted batch that signals one shared payload: its plan, a slot and its point. -/
def gpuSignal (kernel : Kernel) (id value : ℕ) : Prog Core Error Unit := do
  let core ← get
  let sync ← outcome (core.syncRef id)
  match core.planSignal sync value with
  | .ok (.shared shared target) => do
    let point ← Core.slot kernel
    addPoint shared target point
  | .ok _ => pure ()
  | .error e => throw e

inductive Operation where
  | create (timeline : Bool) (initial : ℕ)
  | destroy (id : ℕ)
  | share (id : ℕ)
  | importOpaque (id : ℕ) (memory : Result ℕ)
  | importSyncFile (id : ℕ)
  | reset (id : ℕ)
  | signal (id value : ℕ)
  | gpuSignal (id value : ℕ)
  | gpuWrite (slot : Slot) (value : ℕ)
  | reserve (dst src : ℕ)
  | move (dst src : ℕ)
  | ready (id value : ℕ) (pending : Bool)
  | refresh (shared : ℕ)

def perform (kernel : Kernel) : Operation → Prog Core Error Unit
  | .create timeline initial => ignore (syncCreate kernel timeline initial)
  | .destroy id => syncDestroy id
  | .share id => ignore (share kernel id)
  | .importOpaque id memory => importOpaque id memory
  | .importSyncFile id => importSyncFile kernel id
  | .reset id => syncReset kernel id
  | .signal id value => syncSignal kernel id value
  | .gpuSignal id value => gpuSignal kernel id value
  | .gpuWrite slot value => modify fun core => { core with pool := core.pool.gpuWrite32 slot value }
  | .reserve dst src => ignore (syncReserve dst src)
  | .move dst src => syncMove kernel dst src
  | .ready id value pending => ignore (ready kernel id value pending)
  | .refresh shared => do
    let core ← get
    onlyIf (shared < core.shareds.length) (ignore (refresh shared))

/-- An operation may fail; what it wrote stays written. -/
def operate (kernel : Kernel) (core : Core) (operation : Operation) : Option Core :=
  some (exec (perform kernel operation) core).2

variable {target c : ℕ} {pending : Bool}

/-- A shared payload is signalled at the generation its handle remembers. -/
lemma planSignal_shared (h : s.planSignal sync value = .ok (.shared shared target)) :
    sync.state.payload = .shared shared ∧
      (sync.timeline = false → ∀ g ∈ sync.state.snapshot, target = g) := by
  unfold planSignal at h
  split at h
  · split_ifs at h
    · cases h
    · cases h
  · cases h
  next own hpayload =>
  split_ifs at h with htime
  · cases h
    exact ⟨hpayload, fun hbinary => absurd htime (by simp [hbinary])⟩
  split at h
  · next reserved hsnapshot =>
    cases h
    exact ⟨hpayload, fun _ g hg => Option.some.inj (hsnapshot.symm.trans hg)⟩
  next hsnapshot =>
  split at h
  · cases h
  · cases h
    exact ⟨hpayload, fun _ g hg => by rw [hsnapshot] at hg; cases hg⟩

/-! ## The order is kept -/

lemma gpuSignal_generational : Keeps Generational (gpuSignal kernel id value) := by
  apply Spec.fetched
  intro s hs sync hsync
  cases hplan : s.planSignal sync value with
  | error e => exact .refused hs
  | ok plan =>
    cases plan with
    | shared shared target =>
      have hknown := (hs.placed hsync (planSignal_shared hplan).1).known
      refine .seq ((slot_allocates.enter (.refl s)).fallback fun _ u hu => hs.allocates hu) ?_
      intro point
      apply Spec.of_states
      rintro t ⟨ht, -⟩
      refine addPoint_generational (hs.allocates ht) ?_
      rw [ht.rest]
      exact hknown
    | binary own | timeline own target | replaceForeign => exact .unchanged hs

lemma foreignReady_generational {foreign : ℕ} :
    Keeps Generational (foreignReady kernel foreign pending) := by
  have hstatus : Keeps Generational (foreignStatus kernel foreign) := by
    apply Spec.read
    intro s hs
    refine .either (.unchanged hs) ?_
    refine .seq (((request_allocates kernel.status).enter (.refl s)).post
      (fun _ u hu => hs.allocates hu) fun _ u hu => hs.allocates hu) ?_
    intro status
    refine .either ?_ Spec.ret
    refine .finish ?_
    exact fun u hu => hu.congr rfl rfl fun _ h => h
  refine .seq hstatus ?_
  intro status
  exact .either Spec.raise Spec.ret

lemma ready_generational : Keeps Generational (ready kernel id value pending) := by
  apply Spec.read
  intro s hs
  have hsame : ∀ u, s = u → u.Generational := fun u hu => hu ▸ hs
  refine .given hs ?_
  intro sync hsync
  cases hpayload : sync.state.payload with
  | native own =>
    refine .either ?_ ?_
    all_goals exact .compute (fun _ _ => .unchanged hs) (fun _ u _ hu => hsame u hu)
  | foreign foreign =>
    exact .seq (foreignReady_generational.enter hs) fun _ => .ret
  | shared shared =>
    refine .seq (refresh_generational hs (hs.placed hsync hpayload).known) ?_
    intro changed
    apply Spec.read
    intro t ht
    exact .compute (fun _ _ => .unchanged ht) fun _ u _ hu => hu ▸ ht

lemma perform_generational (operation : Operation) : Keeps Generational (perform kernel operation) := by
  cases operation with
  | create timeline initial => exact .ignore syncCreate_generational
  | destroy id => exact syncDestroy_generational
  | share id => exact .ignore share_generational
  | importOpaque id memory => exact importOpaque_generational
  | importSyncFile id => exact importSyncFile_generational
  | reset id => exact syncReset_generational id
  | signal id value => exact syncSignal_generational id value
  | gpuSignal id value => exact gpuSignal_generational
  | gpuWrite slot value => exact .of_modify fun s hs => hs.pool _
  | reserve dst src => exact .ignore syncReserve_generational
  | move dst src => exact syncMove_generational
  | ready id value pending => exact .ignore ready_generational
  | refresh shared =>
    apply Spec.read
    intro s hs
    refine .branch (fun hknown => ?_) fun _ => .unchanged hs
    exact .seq (refresh_generational hs hknown) fun _ => .ret

lemma operate_generational {operation : Operation} (hs : s.Generational)
    (hstep : operate kernel s operation = some t) : t.Generational := by
  cases hstep
  exact ((perform_generational operation).enter hs).state

lemma run_generational {view : TimelineView} {operations : List Operation}
    (hrun : Runs.run (operate kernel) (empty view) operations = some s) : s.Generational :=
  Runs.run_invariant (fun _ _ _ hs hstep => operate_generational hs hstep)
    (generational_empty view) hrun

/-! ## Ready and pending handles -/

def IsReady (kernel : Kernel) (core : Core) (id value : ℕ) (pending : Bool) : Prop :=
  ∃ changed, (exec (ready kernel id value pending) core).1 = .ok (true, changed)

/-- A handle of a shared payload is ready by the words after a publication. -/
lemma IsReady.published (h : IsReady kernel s id value pending) (hsync : s.syncRef id = .ok sync)
    (hpayload : sync.state.payload = .shared shared) : ∃ c u, Publishes s shared c u ∧
      (s.sharedTarget sync shared value ≤ u.load shared .completed ∨
        pending = true ∧ s.sharedTarget sync shared value ≤ u.load shared .pending) := by
  have hready : Yields (s = ·) (ready kernel id value pending) fun out _ => out.1 = true →
      ∃ c u, Publishes s shared c u ∧ (s.sharedTarget sync shared value ≤ u.load shared .completed ∨
          pending = true ∧ s.sharedTarget sync shared value ≤ u.load shared .pending) := by
    apply Spec.look
    refine .tried ?_
    intro found hfound
    cases hsync.symm.trans hfound
    rw [hpayload]
    refine .seq (refresh_publishes.fallback fun _ _ _ => trivial) ?_
    intro changed
    apply Spec.read
    rintro u ⟨c, hu⟩
    refine .tried ?_
    intro done hdone
    apply Spec.of_pure
    rintro _ rfl hyes
    refine ⟨c, u, hu, ?_⟩
    cases hyes
    unfold sharedReady at hdone
    split_ifs at hdone with hcompleted
    · exact .inl hcompleted
    · rw [Except.ok.injEq, Bool.and_eq_true, decide_eq_true_eq] at hdone
      exact .inr hdone
  obtain ⟨changed, hrun⟩ := h
  have hpair : exec (ready kernel id value pending) s =
      (.ok (true, changed), (exec (ready kernel id value pending) s).2) := Prod.ext hrun rfl
  exact (hready s rfl).1 _ _ hpair rfl

lemma Publishes.sharedAt_sub (hu : Publishes s shared c u) (i : ℕ) :
    (u.sharedAt i).memory = (s.sharedAt i).memory ∧
      (u.sharedAt i).points ⊆ (s.sharedAt i).points := by
  obtain ⟨points, sources, hshareds, hpoints, -⟩ := hu.shareds
  have hat : u.sharedAt i = (s.setShared shared
      { s.sharedAt shared with points := points, sources := sources }).sharedAt i := by
    unfold sharedAt
    rw [hshareds]
    rfl
  rcases sharedAt_setShared s shared i
    { s.sharedAt shared with points := points, sources := sources } with hsame | ⟨rfl, hset⟩
  · rw [hat, hsame]
    exact ⟨rfl, fun _ h => h⟩
  · rw [hat, hset]
    exact ⟨rfl, hpoints⟩

lemma Publishes.words_eq (hu : Publishes s shared c u) (m : ℕ) (word : Word) : u.words m word =
      (s.setWord shared .completed (max (s.load shared .completed) c)).words m word := by
  show u.memories.getD _ _ word = _
  rw [hu.memories]
  rfl

/-- Loads after a publication. -/
lemma Publishes.load_eq (hu : Publishes s shared c u) (i : ℕ) (word : Word) : u.load i word =
      (s.setWord shared .completed (max (s.load shared .completed) c)).load i word := by
  rw [load_eq_words, (hu.sharedAt_sub i).1]
  exact hu.words_eq _ word

lemma sharedTarget_current (hbinary : sync.timeline = false)
    (hsnapshot : sync.state.snapshot = none) (shared value : ℕ) :
    s.sharedTarget sync shared value = s.load shared .target := by
  unfold sharedTarget
  rw [hbinary, hsnapshot]
  rfl

/-- A handle of the current generation is not ready while its signal was not submitted. -/
lemma Generational.not_ready (hs : s.Generational) (hsync : s.syncRef id = .ok sync)
    (hbinary : sync.timeline = false) (hpayload : sync.state.payload = .shared shared)
    (hsnapshot : sync.state.snapshot = none)
    (hlt : s.load shared .pending < s.load shared .target) (value : ℕ) (pending : Bool) :
    ¬ IsReady kernel s id value pending := by
  intro hready
  obtain ⟨c, u, hu, hcase⟩ := hready.published hsync hpayload
  have hplaced := hs.placed hsync hpayload
  have hgood := hu.generational hs hplaced.known
  have hpending : u.load shared .pending = s.load shared .pending := by
    rw [hu.load_eq, load_setWord_ne _ _ _ _ (by decide)]
  have hkind : u.words (u.sharedAt shared).memory .kind = 0 := by
    show u.load shared .kind = 0
    rw [hu.load_eq, load_setWord_ne _ _ _ _ (by decide), hs.kind shared hplaced.known,
      hplaced.timeline, hbinary]
    rfl
  have hcompleted : u.load shared .completed ≤ u.load shared .pending := hgood.completed _ hkind
  rw [sharedTarget_current hbinary hsnapshot] at hcase
  omega

/-! ## Restarted handles -/

/-- The handle stands for a generation whose signal was not submitted. -/
structure Restarted (id shared : ℕ) (core : Core) : Prop where
  handle : ∃ sync, core.syncRef id = .ok sync ∧ sync.timeline = false ∧
    sync.state.payload = .shared shared ∧ sync.state.snapshot = none
  unsubmitted : core.load shared .pending < core.load shared .target

lemma Restarted.congr (h : Restarted id shared s) (hsync : t.syncRef id = s.syncRef id)
    (hload : ∀ word, t.load shared word = s.load shared word) : Restarted id shared t := by
  refine ⟨hsync ▸ h.handle, ?_⟩
  rw [hload, hload]
  exact h.unsubmitted

lemma Restarted.not_ready (h : Restarted id shared s) (hs : s.Generational) (value : ℕ)
    (pending : Bool) : ¬ IsReady kernel s id value pending := by
  obtain ⟨sync, hsync, hbinary, hpayload, hsnapshot⟩ := h.handle
  exact hs.not_ready hsync hbinary hpayload hsnapshot h.unsubmitted value pending

lemma load_dropPayload (s : Core) (payload : Payload) (shared : ℕ) (word : Word) :
    (s.dropPayload payload).load shared word = s.load shared word := by
  cases payload with
  | native own => rfl
  | foreign foreign => rfl
  | shared own =>
    show (s.dropShared own).load shared word = _
    unfold dropShared
    split_ifs
    · rfl
    rw [releaseAll_eq, releaseAll_eq]
    show (s.setShared own _).load shared word = _
    exact load_setShared (by rfl) shared word

/-- The step that restarts a generation: the target advances and the handle forgets its
own generation. -/
lemma Generational.restarted {next : ℕ} (hs : s.Generational) (hsync : s.syncRef id = .ok sync)
    (hbinary : sync.timeline = false) (hpayload : sync.state.payload = .shared shared)
    (hnext : checkedSucc (s.load shared .target) = some next) :
    Restarted id shared ((s.setWord shared .target next).setSync id
      { sync with state := { sync.state with snapshot := none } }) := by
  have hplaced := hs.placed hsync hpayload
  have hsucc := checkedSucc_eq hnext
  have hkind : s.words (s.sharedAt shared).memory .kind = 0 := by
    have := hs.kind shared hplaced.known
    rwa [hplaced.timeline, hbinary] at this
  refine ⟨⟨_, syncRef_setSync_self _ hsync, hbinary, hpayload, rfl⟩, ?_⟩
  show (s.setWord shared .target next).load shared .pending <
    (s.setWord shared .target next).load shared .target
  rw [load_setWord_ne _ _ _ _ (by decide), words_setWord_self hs hplaced.known]
  have hle : s.load shared .pending ≤ s.load shared .target := hs.pending _ hkind
  omega

lemma Allocates.syncRef (h : Allocates s t) (id : ℕ) : t.syncRef id = s.syncRef id := by
  rw [h.rest]
  rfl

/-- Until the handle is rewritten, slots are allocated. -/
lemma upkeep_after {signalled : Option ℕ} {good : Core → Prop}
    (hstep : ∀ fresh t u, Allocates s t → Rewritten t id fresh signalled u → good u)
    (hrelease : ∀ t slots, good t → good (t.releaseAll slots)) :
    Upkeep kernel id signalled (Allocates s) (fun _ => Allocates s) good where
  slot := slot_allocates.after fun _ _ h => h.1
  empty := fun _ ht => ht
  back := fun _ _ ht => ht
  step := hstep
  release := hrelease

lemma syncReset_restarts (hs : s.Generational) (hsync : s.syncRef id = .ok sync)
    (hpayload : sync.state.payload = .shared shared) :
    Yields (s = ·) (syncReset kernel id) fun _ => Restarted id shared := by
  refine ((upkeep_after ?_ ?_).syncReset fun _ _ => trivial).enter (.refl s)
  · rintro fresh t u ht ⟨found, hfound, hcase⟩
    cases ((ht.syncRef id).trans hsync).symm.trans hfound
    cases hcase with
    | inPlace hnative _ _ _ => cases hpayload.symm.trans hnative
    | bound hlocal _ _ => exact absurd hpayload (hlocal shared)
    | advanced hbinary hshared hnext =>
      cases hpayload.symm.trans hshared
      exact (hs.allocates ht).restarted hfound hbinary hpayload hnext
  · intro t slots ht
    rw [releaseAll_eq]
    exact ht.congr rfl fun _ => rfl

lemma syncMove_restarts {dst src : ℕ} (hs : s.Generational) (hsync : s.syncRef src = .ok sync)
    (hpayload : sync.state.payload = .shared shared) :
    Yields (s = ·) (syncMove kernel dst src) fun _ => Restarted src shared := by
  apply @syncMove_spec _ _ _ _ _ (fun _ => Restarted src shared) _ _ trivial
    ((slot_allocates.enter (.refl s)).fallback fun _ _ _ => trivial)
  · intro fresh t ht _
    refine takeForMove_spec trivial ?_ ?_
    · intro found hfound _ hnone
      cases ((ht.syncRef src).trans hsync).symm.trans hfound
      exact absurd hpayload (hnone shared)
    · intro found _ next _ hfound hbinary hshared hnext
      cases ((ht.syncRef src).trans hsync).symm.trans hfound
      cases hpayload.symm.trans hshared
      exact ((hs.allocates ht).restarted hfound hbinary hpayload hnext).congr rfl fun _ => rfl
  · intro target out u hne _ htarget hu
    refine hu.congr ?_ fun word => load_dropPayload _ _ _ _
    unfold installMoved
    rw [syncRef_congr (dropPayload_sameHandles _ _).syncs]
    exact syncRef_setSync_ne _ (Ne.symm hne) (syncRef_eq_ok.mp htarget).1

/-! ## Deferred signals -/

/-- The generation is completed, or the slot of one not below it is released and only
its publication is missing. -/
def Done (core : Core) (memory generation : ℕ) : Prop :=
  generation ≤ core.words memory .completed ∨
    ∃ i < core.shareds.length, (core.sharedAt i).memory = memory ∧
      ∃ point ∈ (core.sharedAt i).points,
        generation ≤ point.1 ∧ core.pool.word32 point.2 = 1

/-- What a publication completes was completed, or its slot was released. -/
lemma Publishes.done (hu : Publishes s shared c u) (hs : s.Generational)
    (hknown : shared < s.shareds.length) (hbinary : (s.sharedAt shared).timeline = false)
    (hle : g ≤ max (s.load shared .completed) c) : s.Done (s.sharedAt shared).memory g := by
  obtain ⟨-, heq | ⟨point, hpoint, hword, heq⟩⟩ :=
    published_ok (hs.sources shared hknown hbinary) hu.value
  · rw [heq, max_self] at hle
    exact .inl hle
  · rcases le_max_iff.mp hle with hold | hnew
    · exact .inl hold
    · exact .inr ⟨shared, hknown, rfl, point, hpoint, heq ▸ hnew, hword⟩

/-- A handle without a generation of its own is ready only when the current one is done. -/
lemma Generational.done_of_ready (hs : s.Generational) (hsync : s.syncRef id = .ok sync)
    (hbinary : sync.timeline = false) (hpayload : sync.state.payload = .shared shared)
    (hsnapshot : sync.state.snapshot = none) (hready : IsReady kernel s id value false) :
    s.Done (s.sharedAt shared).memory (s.load shared .target) := by
  obtain ⟨c, u, hu, hcase⟩ := hready.published hsync hpayload
  have hplaced := hs.placed hsync hpayload
  obtain hle | ⟨hfalse, -⟩ := hcase
  · rw [sharedTarget_current hbinary hsnapshot, hu.load_eq,
      words_setWord_self hs hplaced.known] at hle
    exact hu.done hs hplaced.known (hplaced.timeline.trans hbinary) hle
  · cases hfalse

/-- The signal of the generation `g` of a memory file, fixed when it was reserved or
moved, happens later: on the CPU, or in the steps of a GPU signal. -/
inductive Deferred (kernel : Kernel) (g memory : ℕ) (s : Core) : Core → Prop where
  | signal {id value shared : ℕ} {sync : SyncObj} {t : Core} (hsync : s.syncRef id = .ok sync)
      (hbinary : sync.timeline = false) (hpayload : sync.state.payload = .shared shared)
      (hmemory : (s.sharedAt shared).memory = memory) (hsnapshot : sync.state.snapshot = some g)
      (hrun : exec (syncSignal kernel id value) s = (.ok (), t)) : Deferred kernel g memory s t
  | submit {id value shared : ℕ} {sync : SyncObj} {t : Core} (hsync : s.syncRef id = .ok sync)
      (hbinary : sync.timeline = false) (hpayload : sync.state.payload = .shared shared)
      (hmemory : (s.sharedAt shared).memory = memory) (hsnapshot : sync.state.snapshot = some g)
      (hrun : exec (gpuSignal kernel id value) s = (.ok (), t)) : Deferred kernel g memory s t
  | complete {slot : Slot}
      (hslot : ∀ i < s.shareds.length, (s.sharedAt i).memory = memory →
        ∀ point ∈ (s.sharedAt i).points, point.2 = slot → point.1 ≤ g) :
      Deferred kernel g memory s { s with pool := s.pool.gpuWrite32 slot 1 }
  | publish {shared : ℕ} {changed : Bool} {t : Core} (hknown : shared < s.shareds.length)
      (hrun : exec (refresh shared) s = (.ok changed, t)) : Deferred kernel g memory s t

/-- What a deferred signal leaves alone: handles, memory files of payloads, the target,
and what is done above `g`. -/
structure Harmless (g memory : ℕ) (s t : Core) : Prop where
  syncs : t.syncs = s.syncs
  files : ∀ i, (t.sharedAt i).memory = (s.sharedAt i).memory
  target : g ≤ s.words memory .target → t.words memory .target = s.words memory .target
  done : ∀ generation, g < generation → t.Done memory generation → s.Done memory generation

lemma Publishes.harmless (hu : Publishes s shared c u) (hs : s.Generational)
    (hknown : shared < s.shareds.length)
    (hbinary : (s.sharedAt shared).memory = m → (s.sharedAt shared).timeline = false) :
    Harmless g m s u := by
  obtain ⟨points, sources, hshareds, -, -⟩ := hu.shareds
  have hlength : u.shareds.length = s.shareds.length := by
    rw [hshareds, List.length_set]
  refine ⟨hu.syncs, fun i => (hu.sharedAt_sub i).1, ?_, ?_⟩
  · intro _
    rw [hu.words_eq, words_setWord_ne _ _ _ _ (by decide)]
  rintro generation - (hle | ⟨i, hi, hmemory, point, hpoint, hge, hword⟩)
  · rw [hu.words_eq] at hle
    rcases words_setWord s shared .completed (max (s.load shared .completed) c) m .completed with
      hsame | ⟨hm, -, hnew⟩
    · rw [hsame] at hle
      exact .inl hle
    · rw [hnew] at hle
      subst hm
      exact hu.done hs hknown (hbinary rfl) hle
  · obtain ⟨hsame, hsub⟩ := hu.sharedAt_sub i
    refine .inr ⟨i, hlength ▸ hi, hsame.symm.trans hmemory, point, hsub hpoint, hge, ?_⟩
    rwa [SlotPool.word32, hu.words] at hword

lemma Done.allocates (ht : Allocates s t) {generation : ℕ} (h : t.Done m generation) :
    s.Done m generation := by
  have hshareds : t.shareds = s.shareds := by rw [ht.rest]
  have hmemories : t.memories = s.memories := by rw [ht.rest]
  have hat : t.sharedAt = s.sharedAt := by
    unfold sharedAt
    rw [hshareds]
  rcases h with hle | ⟨i, hi, hmemory, point, hpoint, hge, hword⟩
  · refine .inl ?_
    unfold words at hle ⊢
    rwa [hmemories] at hle
  rw [hat] at hmemory hpoint
  refine .inr ⟨i, hshareds ▸ hi, hmemory, point, hpoint, hge, ?_⟩
  rw [SlotPool.word32] at hword
  rcases ht.words point.2 with hsame | hzero
  · rwa [hsame] at hword
  · rw [hzero] at hword
    exact absurd hword (by decide)

lemma Records.sharedAt_eq {point : Slot} (hu : Records s shared target point u) (i : ℕ) :
    u.sharedAt i = s.sharedAt i ∨ i = shared ∧ u.sharedAt i = { s.sharedAt shared with
      points := (insertPoint target point (s.sharedAt shared).points).1 } := by
  have hat : u.sharedAt i = (s.setShared shared { s.sharedAt shared with
      points := (insertPoint target point (s.sharedAt shared).points).1 }).sharedAt i := by
    unfold sharedAt
    rw [hu.shareds]
    rfl
  rw [hat]
  exact sharedAt_setShared s shared i _

lemma Records.harmless {point : Slot} (hu : Records s shared target point u)
    (hbinary : (s.sharedAt shared).timeline = false) (hs : s.Generational)
    (hknown : shared < s.shareds.length) (hmemory : (s.sharedAt shared).memory = m) :
    Harmless target m s u := by
  have hmemories := hu.memories
  rw [if_pos hbinary] at hmemories
  have hwords : ∀ word, word ≠ .pending → u.words m word =
      (s.setWord shared .target (max (s.load shared .target) target)).words m word := by
    intro word hword
    rw [← words_setWord_ne (s.setWord shared .target (max (s.load shared .target) target)) shared
      (max (s.load shared .pending) target) m hword]
    show u.memories.getD _ _ word = _
    rw [hmemories]
    rfl
  have hlength : u.shareds.length = s.shareds.length := by
    rw [hu.shareds, List.length_set]
  refine ⟨hu.syncs, ?_, ?_, ?_⟩
  · intro i
    rcases hu.sharedAt_eq i with hsame | ⟨rfl, hset⟩
    · rw [hsame]
    · rw [hset]
  · intro hle
    rw [hwords _ (by decide)]
    subst hmemory
    show (s.setWord shared .target _).load shared .target = s.load shared .target
    rw [words_setWord_self hs hknown]
    exact max_eq_left hle
  · rintro generation hlt (hle | ⟨i, hi, him, p, hp, hge, hword⟩)
    · rw [hwords _ (by decide), words_setWord_ne _ _ _ _ (by decide)] at hle
      exact .inl hle
    rw [SlotPool.word32, hu.words] at hword
    rcases hu.sharedAt_eq i with hsame | ⟨rfl, hset⟩
    · rw [hsame] at him hp
      exact .inr ⟨i, hlength ▸ hi, him, p, hp, hge, hword⟩
    rw [hset] at hp
    rcases mem_insertPoint hp with rfl | hold
    · exact absurd hge (not_le.mpr hlt)
    · exact .inr ⟨i, hknown, hmemory, p, hold, hge, hword⟩

lemma Harmless.after (h : Harmless g m t u) (ht : Allocates s t) : Harmless g m s u := by
  have hwords : t.words = s.words := by
    rw [ht.rest]
    rfl
  have hat : t.sharedAt = s.sharedAt := by
    rw [ht.rest]
    rfl
  refine ⟨?_, ?_, ?_, fun generation hlt hdone => (h.done generation hlt hdone).allocates ht⟩
  · rw [h.syncs, ht.rest]
  · intro i
    rw [h.files, hat]
  · rw [← hwords]
    exact h.target

lemma Harmless.releaseAll (h : Harmless g m s t) (slots : List Slot) :
    Harmless g m s (t.releaseAll slots) := by
  have hrest := releaseAll_eq t slots
  have hpool := words_releaseAll t slots
  generalize t.releaseAll slots = u at hrest hpool
  have hat : u.sharedAt = t.sharedAt := by
    rw [hrest]
    rfl
  have hwords : u.words = t.words := by
    rw [hrest]
    rfl
  constructor
  · rw [hrest]
    exact h.syncs
  · rw [hat]
    exact h.files
  · rw [hwords]
    exact h.target
  rintro generation hlt (hle | ⟨i, hi, him, p, hp, hge, hword⟩)
  · exact h.done generation hlt (.inl (hwords ▸ hle))
  rw [hat] at him hp
  refine h.done generation hlt (.inr ⟨i, ?_, him, p, hp, hge, ?_⟩)
  · rw [hrest] at hi
    exact hi
  · rwa [SlotPool.word32, hpool] at hword

/-- A CPU signal completes the generation that the handle remembers. -/
lemma completing_harmless (t : Core) (shared : ℕ) : Harmless g m t (t.completing shared g) := by
  unfold completing
  refine ⟨rfl, fun _ => rfl, ?_, ?_⟩
  · intro _
    rw [words_setWord_ne _ _ _ _ (by decide), words_setWord_ne _ _ _ _ (by decide)]
  rintro generation hlt (hle | hpoint)
  · refine .inl ?_
    rcases words_setWord (t.setWord shared .pending (max (t.load shared .pending) g)) shared
      .completed _ m .completed with hsame | ⟨hm, -, hnew⟩
    · rw [hsame, words_setWord_ne _ _ _ _ (by decide)] at hle
      exact hle
    rw [hnew, load_setWord_ne _ _ _ _ (by decide)] at hle
    subst hm
    rcases le_max_iff.mp hle with hold | hnew
    · exact hold
    · exact absurd hnew (not_le.mpr hlt)
  · exact .inr hpoint

lemma syncSignal_harmless (hsync : s.syncRef id = .ok sync) (hbinary : sync.timeline = false)
    (hpayload : sync.state.payload = .shared shared) (hsnapshot : sync.state.snapshot = some g) :
    Yields (s = ·) (syncSignal kernel id value) fun _ => Harmless g m s := by
  refine ((upkeep_after ?_ fun t slots ht => ht.releaseAll slots).syncSignal
    fun _ _ => trivial).enter (.refl s)
  rintro fresh t u ht ⟨found, hfound, hcase⟩
  cases ((ht.syncRef id).trans hsync).symm.trans hfound
  cases hcase with
  | inPlace hnative _ _ _ => cases hpayload.symm.trans hnative
  | counted htimeline _ => cases hbinary.symm.trans htimeline
  | bound hlocal _ _ => exact absurd hpayload (hlocal shared)
  | completed hshared =>
    cases hpayload.symm.trans hshared
    have htarget : t.sharedTarget sync shared value = g := by
      unfold sharedTarget
      rw [hbinary, hsnapshot]
      rfl
    rw [htarget]
    exact (completing_harmless t shared).after ht

lemma gpuSignal_harmless (hs : s.Generational) (hsync : s.syncRef id = .ok sync)
    (hbinary : sync.timeline = false) (hpayload : sync.state.payload = .shared shared)
    (hmemory : (s.sharedAt shared).memory = m) (hsnapshot : sync.state.snapshot = some g) :
    Yields (s = ·) (gpuSignal kernel id value) fun _ => Harmless g m s := by
  have hsame : Harmless g m s s := ⟨rfl, fun _ => rfl, fun _ => rfl, fun _ _ h => h⟩
  apply Spec.look
  refine .tried ?_
  intro found hfound
  cases hsync.symm.trans hfound
  cases hplan : s.planSignal sync value with
  | error e => exact .thrown
  | ok plan =>
    cases plan with
    | shared own target =>
      obtain ⟨hown, htarget⟩ := planSignal_shared hplan
      cases hpayload.symm.trans hown
      cases htarget hbinary g hsnapshot
      refine .seq ((slot_allocates.enter (.refl s)).fallback fun _ _ _ => trivial) ?_
      intro point
      apply Spec.of_states
      rintro t ⟨ht, -⟩
      have hgood := hs.allocates ht
      have hplaced' : t.Placed sync shared := hgood.placed ((ht.syncRef id).trans hsync) hpayload
      have hmemory' : (t.sharedAt shared).memory = m := by
        rw [ht.rest]
        exact hmemory
      refine addPoint_records.post ?_ fun _ _ h => h.elim
      intro _ u hu
      exact (hu.harmless (hplaced'.timeline.trans hbinary) hgood hplaced'.known hmemory').after ht
    | binary own | timeline own target | replaceForeign => exact .unchanged hsame

lemma Deferred.harmless (h : Deferred kernel g m s t) (hs : s.Generational)
    (hkind : s.words m .kind = 0) : Harmless g m s t := by
  cases h with
  | signal hsync hbinary hpayload hmemory hsnapshot hrun =>
    exact ((syncSignal_harmless hsync hbinary hpayload hsnapshot) s rfl).1 _ _ hrun
  | submit hsync hbinary hpayload hmemory hsnapshot hrun =>
    exact ((gpuSignal_harmless hs hsync hbinary hpayload hmemory hsnapshot) s rfl).1 _ _ hrun
  | @complete slot hslot =>
    refine ⟨rfl, fun _ => rfl, fun _ => rfl, ?_⟩
    rintro generation hlt (hle | ⟨i, hi, him, p, hp, hge, hword⟩)
    · exact .inl hle
    by_cases heq : p.2 = slot
    · have := hslot i hi him p hp heq
      omega
    refine .inr ⟨i, hi, him, p, hp, hge, ?_⟩
    rwa [SlotPool.word32, SlotPool.gpuWrite32, words_setWord32_ne s.pool 1 heq] at hword
  | @publish shared changed t hknown hrun =>
    obtain ⟨c, hu⟩ := (refresh_publishes s rfl).1 _ _ hrun
    apply hu.harmless hs hknown
    rintro rfl
    have hsame := hs.kind shared hknown
    rw [load_eq_words, hkind] at hsame
    by_contra htime
    simp [htime] at hsame

/-- No step of the deferred signal makes a handle of a later generation ready. -/
lemma Harmless.not_ready (h : Harmless g m s t) (ht : t.Generational)
    (hsync : s.syncRef id = .ok sync) (hbinary : sync.timeline = false)
    (hpayload : sync.state.payload = .shared shared) (hsnapshot : sync.state.snapshot = none)
    (hmemory : (s.sharedAt shared).memory = m) (hlt : g < s.load shared .target)
    (hdone : ¬ s.Done m (s.load shared .target)) (value : ℕ) : ¬ IsReady kernel t id value false := by
  intro hready
  have hsync' : t.syncRef id = .ok sync := (syncRef_congr h.syncs id).trans hsync
  have hafter := ht.done_of_ready hsync' hbinary hpayload hsnapshot hready
  have htarget : t.load shared .target = s.load shared .target := by
    rw [load_eq_words, load_eq_words, h.files, hmemory]
    apply h.target
    rw [← hmemory]
    exact hlt.le
  rw [htarget, h.files, hmemory] at hafter
  exact hdone (h.done _ hlt hafter)

/-- Along every run of operations the words of each binary shared payload and the
generations of its handles are in order; a reset or moved handle is neither ready nor
pending; and a deferred signal of a generation below the target makes no handle ready
that stands for the target. -/
theorem shared_generations_in_order {kernel : Kernel} {view : TimelineView}
    {operations : List Operation} {s : Core}
    (hrun : Runs.run (operate kernel) (empty view) operations = some s) :
    (∀ shared < s.shareds.length, (s.sharedAt shared).timeline = false →
      s.load shared .completed ≤ s.load shared .pending ∧
        s.load shared .pending ≤ s.load shared .target) ∧
    (∀ id sync shared, s.syncRef id = .ok sync → sync.timeline = false →
      sync.state.payload = .shared shared → ∀ g ∈ sync.state.snapshot, g ≤ s.load shared .target) ∧
    (∀ id sync shared t, s.syncRef id = .ok sync → sync.state.payload = .shared shared →
      exec (syncReset kernel id) s = (.ok (), t) →
        ∀ value pending, ¬ IsReady kernel t id value pending) ∧
    (∀ dst src sync shared t, s.syncRef src = .ok sync → sync.state.payload = .shared shared →
      exec (syncMove kernel dst src) s = (.ok (), t) →
        ∀ value pending, ¬ IsReady kernel t src value pending) ∧
    ∀ id sync shared g t, s.syncRef id = .ok sync → sync.timeline = false →
      sync.state.payload = .shared shared → sync.state.snapshot = none →
      Deferred kernel g (s.sharedAt shared).memory s t → g < s.load shared .target →
      ¬ s.Done (s.sharedAt shared).memory (s.load shared .target) →
        ∀ value, ¬ IsReady kernel t id value false := by
  have hs := run_generational hrun
  have hkind : ∀ shared < s.shareds.length, (s.sharedAt shared).timeline = false →
      s.words (s.sharedAt shared).memory .kind = 0 := by
    intro shared hknown htime
    have hword := hs.kind shared hknown
    rwa [htime] at hword
  refine ⟨?_, ?_, ?_, ?_, ?_⟩
  · intro shared hknown htime
    exact ⟨hs.completed _ (hkind shared hknown htime), hs.pending _ (hkind shared hknown htime)⟩
  · intro id sync shared hsync hbinary hpayload
    exact (hs.placed hsync hpayload).snapshot hbinary
  · intro id sync shared t hsync hpayload hreset
    have hgood := ((syncReset_generational id).enter hs s rfl).1 _ _ hreset
    exact ((syncReset_restarts hs hsync hpayload s rfl).1 _ _ hreset).not_ready hgood
  · intro dst src sync shared t hsync hpayload hmove
    have hgood := (syncMove_generational.enter hs s rfl).1 _ _ hmove
    exact ((syncMove_restarts hs hsync hpayload s rfl).1 _ _ hmove).not_ready hgood
  intro id sync shared g t hsync hbinary hpayload hsnapshot hdeferred hlt hdone
  have hplaced := hs.placed hsync hpayload
  have hharmless := hdeferred.harmless hs
    (hkind shared hplaced.known (hplaced.timeline.trans hbinary))
  refine hharmless.not_ready ?_ hsync hbinary hpayload hsnapshot rfl hlt hdone
  cases hdeferred with
  | signal _ _ _ _ _ hexec => exact ((syncSignal_generational _ _).enter hs s rfl).1 _ _ hexec
  | submit _ _ _ _ _ hexec => exact (gpuSignal_generational.enter hs s rfl).1 _ _ hexec
  | complete _ => exact hs.pool _
  | publish hknown hexec => exact (refresh_generational hs hknown s rfl).1 _ _ hexec

/-- The state after operations on a quiet device. -/
def afterOperations (operations : List Operation) : Core :=
  operations.foldl (fun core operation => (exec (perform Bridge.quietKernel operation) core).2)
    (empty .native64)

lemma run_afterOperations (operations : List Operation) :
    Runs.run (operate Bridge.quietKernel) (empty .native64) operations =
      some (afterOperations operations) := by
  suffices h : ∀ core : Core, Runs.run (operate Bridge.quietKernel) core operations =
      some (operations.foldl
        (fun core operation => (exec (perform Bridge.quietKernel operation) core).2) core) from h _
  induction operations with
  | nil => exact fun _ => rfl
  | cons operation operations ih => exact fun _ => ih _

/-- A handle is exported, its first generation is reserved for another handle, and it is
reset. -/
def reservedThenReset : List Operation :=
  [.create false 0, .share 1, .create false 0, .reserve 2 1, .reset 1]

theorem shared_generations_in_order_reserved :
    ((afterOperations reservedThenReset).load 0 .completed ≤
        (afterOperations reservedThenReset).load 0 .pending ∧
      (afterOperations reservedThenReset).load 0 .pending ≤
        (afterOperations reservedThenReset).load 0 .target) ∧
    ∀ value, ¬ IsReady Bridge.quietKernel
      (exec (syncSignal Bridge.quietKernel 2 0) (afterOperations reservedThenReset)).2 1 value
      false := by
  obtain ⟨hordered, -, -, -, hdeferred⟩ :=
    shared_generations_in_order (run_afterOperations reservedThenReset)
  have hfound : ∀ id sync, ((afterOperations reservedThenReset).syncRef id).toOption = some sync →
      (afterOperations reservedThenReset).syncRef id = .ok sync := by
    intro id sync h
    cases hsync : (afterOperations reservedThenReset).syncRef id with
    | error e =>
      rw [hsync] at h
      cases h
    | ok found =>
      rw [hsync] at h
      cases h
      rfl
  have hsignal : ∀ out : Result Unit × Core, out.1.toOption = some () → out = (.ok (), out.2) := by
    rintro ⟨_ | _, _⟩ h
    · cases h
    · rfl
  refine ⟨hordered 0 (by decide +kernel) (by decide +kernel), ?_⟩
  refine hdeferred 1 ⟨false, ⟨.shared 0, none, 0, none⟩⟩ 0 1 _ (hfound _ _ (by decide +kernel)) rfl
    rfl rfl ?_ (by decide +kernel) ?_
  · exact .signal (hfound 2 ⟨false, ⟨.shared 0, none, 0, some 1⟩⟩ (by decide +kernel)) rfl rfl
      (by decide +kernel) rfl (hsignal _ (by decide +kernel))
  · unfold Done
    decide +kernel

end NvidiaProlapse.Core
