import NvidiaProlapse.SharedMethods

/-!
# Handing payloads on keeps the generations in order

Reservations and moves give a handle a generation that was started, exports and imports
one that names none, and a new handle names no shared payload.
-/
namespace NvidiaProlapse.Core
open Programs List

variable {kernel : Kernel} {s t u : Core} {id shared value g : ℕ} {sync : SyncObj} {slot : Slot}

/-! ## Reservations, moves, exports and imports -/

/-- The next generation is not below the target. -/
lemma le_nextGeneration (h : s.nextGeneration shared = .ok g) : s.load shared .target ≤ g := by
  unfold nextGeneration at h
  dsimp only at h
  split_ifs at h
  · cases hnext : checkedSucc (s.load shared .target) with
    | none =>
      rw [hnext] at h
      cases h
    | some next =>
      rw [hnext] at h
      cases h
      have := checkedSucc_eq hnext
      omega
  · cases h
    exact le_rfl

variable {dst src : ℕ} {timeline : Bool}

lemma syncReserve_generational : Keeps Generational (syncReserve dst src) := by
  apply Spec.of_states
  intro s hs
  refine syncReserve_spec hs ?_ ?_
  · rintro sync target own hsync - - _ rfl -
    have hmarked : ((s.retain own).setSync src
        { sync with state := { sync.state with pending := some reserved } }).Generational :=
      (hs.pool _).setSync_same hsync ⟨rfl, rfl, fun _ h => h⟩
    exact hmarked.replace nofun
  · intro sync target shared generation hsync hsource _ htarget hpayload hgeneration s1 hs1
    have hplaced := hs.placed hsync hpayload
    have hknown := hplaced.known
    have htime : (s.sharedAt shared).timeline = false := hplaced.timeline.trans hsource
    have hstarted : s1.Generational := by
      rw [hs1]
      exact hs.setWord hknown (by decide) (le_max_left _ _) (nofun)
        nofun
    have hnow : s1.load shared .target = generation := by
      rw [hs1, words_setWord_self hs hknown, max_eq_right (le_nextGeneration hgeneration)]
    have hshareds : s1.shareds = s.shareds := by
      rw [hs1]
      rfl
    have hat : s1.sharedAt shared = s.sharedAt shared := by
      rw [hs1]
      rfl
    have hknown1 : shared < s1.shareds.length := hshareds ▸ hknown
    have hkind1 : s1.words (s1.sharedAt shared).memory .kind = 0 := by
      have := hstarted.kind shared hknown1
      rwa [hat, htime] at this
    have hsubmitted : (s1.setWord shared .pending
        (max (s1.load shared .pending) generation)).Generational := by
      refine hstarted.setWord hknown1 (by decide) (le_max_left _ _) (nofun) ?_
      intro _ _
      rw [hnow]
      exact max_le ((hstarted.pending _ hkind1).trans_eq hnow) le_rfl
    apply Generational.dropPayload
    apply hsubmitted.setSync
    intro shared' heq
    cases heq
    refine ⟨hknown1, ?_, ?_⟩
    · show (s1.sharedAt shared).timeline = target.timeline
      rw [hat, htime, htarget]
    · rintro - g hg
      cases hg
      rw [load_setWord_ne _ _ _ _ (by decide), hnow]

/-- A moved payload can be installed in a binary handle. -/
def Installable (moved : SyncState) (t : Core) : Prop :=
  t.Generational ∧ ∀ shared, moved.payload = .shared shared →
    shared < t.shareds.length ∧ (t.sharedAt shared).timeline = false ∧
      ∀ g ∈ moved.snapshot, g ≤ t.load shared .target

lemma takeForMove_generational :
    Spec Generational (takeForMove id slot) (fun out => Installable out.1) fun _ => Generational := by
  apply Spec.of_states
  intro t ht
  refine takeForMove_spec ht ?_ ?_
  · intro sync _ _ hnone
    refine ⟨ht.setSync ?_, fun shared h => absurd h (hnone shared)⟩
    rintro _ ⟨⟩
  · intro sync shared next _ hsync hbinary hpayload hnext
    have hplaced := ht.placed hsync hpayload
    have hsucc := checkedSucc_eq hnext
    constructor
    · apply Generational.pool
      exact (ht.advance hplaced.known hnext).setSync_same hsync ⟨rfl, rfl, nofun⟩
    intro shared' heq
    cases heq
    refine ⟨hplaced.known, hplaced.timeline.trans hbinary, ?_⟩
    intro g hg
    cases hg
    show _ ≤ (t.setWord shared .target next).load shared .target
    rw [words_setWord_self ht hplaced.known, hsucc]
    have hle := hplaced.sharedTarget_le hbinary 0
    unfold sharedTarget at hle
    rw [hbinary] at hle
    exact Nat.le_succ_of_le hle

lemma syncMove_generational : Keeps Generational (syncMove kernel dst src) := by
  apply Spec.of_states
  intro s hs
  refine syncMove_spec hs (slot_generational.enter hs)
    (fun fresh t _ ht => (takeForMove_generational.enter ht).fallback fun _ u hu => hu.pool _) ?_
  rintro target out u - hbinary - ⟨hu, hmoved⟩
  apply Generational.dropPayload
  apply hu.setSync
  intro shared hpayload
  obtain ⟨hknown, htime, hsnapshot⟩ := hmoved shared hpayload
  exact ⟨hknown, htime.trans hbinary.symm, fun _ => hsnapshot⟩

lemma words_append (s : Core) (memory : SyncMemory) (m : ℕ) :
    ({ s with memories := s.memories ++ [memory] } : Core).words m = s.words m ∨
      m = s.memories.length ∧
        ({ s with memories := s.memories ++ [memory] } : Core).words m = memory := by
  unfold words
  simp only [getD_eq_getElem?_getD]
  rcases lt_trichotomy m s.memories.length with hlt | rfl | hgt
  · exact .inl (by rw [getElem?_append_left hlt])
  · exact .inr (by simp)
  · refine .inl ?_
    rw [getElem?_eq_none (by simp; omega), getElem?_eq_none hgt.le]

/-- A new memory file. -/
lemma Generational.pushMemory {memory : SyncMemory} (h : s.Generational)
    (hmemory : memory .kind = 0 →
      memory .completed ≤ memory .pending ∧ memory .pending ≤ memory .target) :
    ({ s with memories := s.memories ++ [memory] } : Core).Generational := by
  have hload : ∀ i < s.shareds.length, ∀ word,
      ({ s with memories := s.memories ++ [memory] } : Core).load i word = s.load i word := by
    intro i hi word
    rcases words_append s memory (s.sharedAt i).memory with hsame | ⟨heq, -⟩
    · exact congrFun hsame word
    · exact absurd heq (h.backed i hi).ne
  refine ⟨?_, ?_, ?_, ?_, h.sources, ?_, ?_⟩
  · intro i hi
    refine (h.backed i hi).trans ?_
    simp
  · intro i hi
    rw [hload i hi]
    exact h.kind i hi
  · intro m
    rcases words_append s memory m with hsame | ⟨-, hnew⟩
    · rw [hsame]
      exact h.completed m
    · rw [hnew]
      exact fun hkind => (hmemory hkind).1
  · intro m
    rcases words_append s memory m with hsame | ⟨-, hnew⟩
    · rw [hsame]
      exact h.pending m
    · rw [hnew]
      exact fun hkind => (hmemory hkind).2
  · intro i hi
    rw [hload i hi]
    exact h.points i hi
  · intro sync hsync shared hpayload
    exact (h.handles sync hsync shared hpayload).raise
      ⟨le_rfl, fun _ _ => rfl, fun i hi => (hload i hi .target).ge⟩

lemma sharedAt_append (s : Core) (object : Shared) {i : ℕ} (hi : i < s.shareds.length) :
    ({ s with shareds := s.shareds ++ [object] } : Core).sharedAt i = s.sharedAt i := by
  unfold sharedAt
  simp only [getD_eq_getElem?_getD]
  rw [getElem?_append_left hi]

lemma sharedAt_append_self (s : Core) (object : Shared) :
    ({ s with shareds := s.shareds ++ [object] } : Core).sharedAt s.shareds.length = object := by
  unfold sharedAt
  simp

/-- A new shared payload over a known memory file. -/
lemma Generational.pushShared {memory : ℕ} (h : s.Generational)
    (hmemory : memory < s.memories.length) (hkind : s.words memory .kind = if timeline then 1 else 0) :
    ({ s with shareds := s.shareds ++ [⟨memory, timeline, [], []⟩] } : Core).Generational := by
  have hcases : ∀ i < (s.shareds ++ [(⟨memory, timeline, [], []⟩ : Shared)]).length,
      i < s.shareds.length ∨ i = s.shareds.length := by
    intro i hi
    rw [length_append, length_singleton] at hi
    omega
  have hload : ∀ i < s.shareds.length, ∀ word,
      ({ s with shareds := s.shareds ++ [⟨memory, timeline, [], []⟩] } : Core).load i word =
        s.load i word := by
    intro i hi word
    rw [load_eq_words, sharedAt_append s _ hi]
    rfl
  refine ⟨?_, ?_, h.completed, h.pending, ?_, ?_, ?_⟩
  · intro i hi
    rcases hcases i hi with hlt | rfl
    · rw [sharedAt_append s _ hlt]
      exact h.backed i hlt
    · rw [sharedAt_append_self]
      exact hmemory
  · intro i hi
    rcases hcases i hi with hlt | rfl
    · rw [sharedAt_append s _ hlt, hload i hlt]
      exact h.kind i hlt
    · rw [load_eq_words, sharedAt_append_self]
      exact hkind
  · intro i hi
    rcases hcases i hi with hlt | rfl
    · rw [sharedAt_append s _ hlt]
      exact h.sources i hlt
    · rw [sharedAt_append_self]
      exact fun _ => rfl
  · intro i hi
    rcases hcases i hi with hlt | rfl
    · rw [sharedAt_append s _ hlt, hload i hlt]
      exact h.points i hlt
    · rw [sharedAt_append_self]
      intro _ point hpoint
      cases hpoint
  · intro sync hsync shared hpayload
    refine (h.handles sync hsync shared hpayload).raise ⟨?_, ?_, ?_⟩
    · simp
    · intro i hi
      rw [sharedAt_append s _ hi]
    · intro i hi
      rw [hload i hi]

lemma importOpaque_generational {memory : Result ℕ} : Keeps Generational (importOpaque id memory) := by
  apply Spec.fetched
  intro t ht sync hsync
  refine .given ht ?_
  intro memory _
  apply Spec.look
  refine .guarded ht fun hformat => ?_
  rw [not_or, not_not, not_not] at hformat
  obtain ⟨hheader, hkind⟩ := hformat
  have hmemory : memory < t.memories.length := by
    by_contra hge
    rw [getD_eq_getElem?_getD, getElem?_eq_none (not_lt.mp hge)] at hheader
    exact absurd hheader (by decide)
  apply Spec.change
  apply Generational.dropPayload
  apply (ht.pushShared hmemory hkind).setSync
  intro shared heq
  cases heq
  refine ⟨by simp, ?_, ?_⟩
  · rw [sharedAt_append_self]
  · rintro - g hg
    cases hg

lemma importSyncFile_generational : Keeps Generational (importSyncFile kernel id) := by
  apply Spec.fetched
  intro t ht sync hsync
  refine .guarded ht fun _ => ?_
  refine .seq (((request_allocates kernel.status).enter (.refl t)).fallback
    fun _ u hu => ht.allocates hu) ?_
  intro status
  refine .seq ((request_allocates kernel.serve).fallback fun _ u hu => ht.allocates hu) ?_
  intro _
  apply Spec.of_modify
  intro u hu
  refine .replace ?_ nofun
  exact (ht.allocates hu).congr rfl rfl fun _ h => h

/-- The new payload has no local slots. -/
structure Created (t : Core) (timeline : Bool) (pending shared : ℕ) (u : Core) : Prop where
  good : u.Generational
  syncs : u.syncs = t.syncs
  known : shared < u.shareds.length
  timeline : (u.sharedAt shared).timeline = timeline
  pending : u.load shared .pending = pending

lemma createShared_generational {completed pending : ℕ} (ht : t.Generational)
    (hle : completed ≤ pending) (hone : timeline = false → pending ≤ 1) :
    Spec (t = ·) (createShared kernel timeline completed pending) (Created t timeline pending)
      fun _ => Generational := by
  refine .seq (((request_allocates kernel.serve).enter (.refl t)).fallback
    fun _ u hu => ht.allocates hu) ?_
  intro _
  apply Spec.read
  intro u hu
  have hgood := ht.allocates hu
  suffices hcreated : ∀ memory : SyncMemory, memory .completed = completed →
      memory .pending = pending → memory .target = 1 → memory .kind = (if timeline then 1 else 0) →
      Created t timeline pending u.shareds.length { u with
        memories := u.memories ++ [memory]
        shareds := u.shareds ++ [⟨u.memories.length, timeline, [], []⟩] } from
    .last (hcreated _ rfl rfl rfl rfl)
  intro memory hcompleted hpending htarget hkind
  have hpushed : ({ u with memories := u.memories ++ [memory] } : Core).Generational := by
    apply hgood.pushMemory
    rw [hcompleted, hpending, htarget, hkind]
    intro hkind
    refine ⟨hle, hone ?_⟩
    cases timeline with
    | false => rfl
    | true => cases hkind
  have hnew : ({ u with memories := u.memories ++ [memory] } : Core).words u.memories.length =
      memory := by
    unfold words
    simp
  have hat : ({ u with
      memories := u.memories ++ [memory]
      shareds := u.shareds ++ [⟨u.memories.length, timeline, [], []⟩] } : Core).sharedAt
      u.shareds.length = ⟨u.memories.length, timeline, [], []⟩ := by
    unfold sharedAt
    simp
  refine ⟨hpushed.pushShared ?_ ?_, ?_, ?_, ?_, ?_⟩
  · simp
  · rw [hnew, hkind]
  · exact hu.rest ▸ rfl
  · simp
  · rw [hat]
  · rw [load_eq_words, hat]
    exact (congrFun hnew .pending).trans hpending

lemma share_generational : Keeps Generational (share kernel id) := by
  apply Spec.of_states
  intro t ht
  -- The handle names the new payload and remembers no generation.
  have hshared : ∀ {u : Core} {shared : ℕ} {sync : SyncObj}, u.Generational →
      shared < u.shareds.length → (u.sharedAt shared).timeline = sync.timeline →
      (u.setSync id (share.shareState sync shared)).Generational := by
    intro u shared sync hu hknown htime
    apply hu.setSync
    intro shared' heq
    cases heq
    exact ⟨hknown, htime, nofun⟩
  refine share_spec ht (fun _ _ _ hle hone => createShared_generational ht hle hone) ?_ ?_
  · intro sync slot pending shared u object _ _ hu hobject
    have hsame : object.memory = (u.sharedAt shared).memory ∧
        object.timeline = (u.sharedAt shared).timeline := by
      rcases hobject with ⟨-, rfl⟩ | ⟨-, -, rfl⟩ <;> exact ⟨rfl, rfl⟩
    refine hshared (hu.good.setShared hsame.1 hsame.2 ?_) (by simpa [Core.setShared] using hu.known) ?_
    · intro hbinary
      rw [hsame.2, hu.timeline] at hbinary
      rcases hobject with ⟨htime, rfl⟩ | ⟨htime, hone, rfl⟩
      · rw [hbinary] at htime
        cases htime
      refine ⟨hu.good.sources shared hu.known (hu.timeline.trans htime), forall_mem_singleton.mpr ?_⟩
      rw [hu.pending, hone]
    · rcases sharedAt_setShared u shared shared object with heq | ⟨-, heq⟩
      · rw [heq, hu.timeline]
      · rw [heq, hsame.2, hu.timeline]
  · intro sync slot pending shared u _ _ hu
    exact (hshared hu.good hu.known hu.timeline).pool _

/-! ## New and destroyed handles -/

lemma syncCreate_generational {initial : ℕ} :
    Keeps Generational (syncCreate kernel timeline initial) := by
  refine syncCreate_spec timeline initial slot_generational ?_ ?_ ?_
  · exact fun _ t pool _ ht => ht.pool pool
  · exact fun _ t _ ht hpayload => ht.push (by simp [hpayload])
  · exact fun _ t ht => ht.pool _

lemma syncDestroy_generational : Keeps Generational (syncDestroy id) := by
  apply Spec.fetched
  intro t ht sync _
  apply Spec.change
  apply Generational.dropPayload
  refine ht.congr rfl rfl ?_
  intro other hother
  rcases mem_or_eq_of_mem_set hother with hmem | heq
  · exact hmem
  · cases heq

end NvidiaProlapse.Core
