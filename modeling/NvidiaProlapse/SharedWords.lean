import NvidiaProlapse.CapturedWords

/-!
# Words of shared payloads in order

A binary shared payload counts generations in its memory file: `target` is the current
one, `pending` the last one whose signal was submitted and `completed` the last one
that was signalled. `Generational` says that they are in this order for every binary
memory file, that a local point stands for a submitted generation and that a handle
remembers no generation above the target. Every method of a handle keeps it.
-/
namespace NvidiaProlapse.Core
open Programs List

/-- The words of a memory file. -/
def words (core : Core) (memory : ℕ) : SyncMemory := core.memories.getD memory fun _ => 0

/-- A handle of a shared payload agrees with it on the kind, and its generation was
started. -/
structure Placed (core : Core) (sync : SyncObj) (shared : ℕ) : Prop where
  known : shared < core.shareds.length
  timeline : (core.sharedAt shared).timeline = sync.timeline
  snapshot : sync.timeline = false → ∀ g ∈ sync.state.snapshot, g ≤ core.load shared .target

structure Generational (core : Core) : Prop where
  backed : ∀ i < core.shareds.length, (core.sharedAt i).memory < core.memories.length
  kind : ∀ i < core.shareds.length,
    core.load i .kind = if (core.sharedAt i).timeline then 1 else 0
  completed : ∀ m, core.words m .kind = 0 → core.words m .completed ≤ core.words m .pending
  pending : ∀ m, core.words m .kind = 0 → core.words m .pending ≤ core.words m .target
  sources : ∀ i < core.shareds.length, (core.sharedAt i).timeline = false →
    (core.sharedAt i).sources = []
  points : ∀ i < core.shareds.length, (core.sharedAt i).timeline = false →
    ∀ point ∈ (core.sharedAt i).points, point.1 ≤ core.load i .pending
  handles : ∀ sync, some sync ∈ core.syncs → ∀ shared, sync.state.payload = .shared shared →
    core.Placed sync shared

variable {kernel : Kernel} {s t u : Core} {id shared value g : ℕ} {word : Word} {sync : SyncObj}
  {object : Shared} {slot : Slot} {payload : Payload}

lemma load_eq_words (core : Core) (shared : ℕ) (word : Word) :
    core.load shared word = core.words (core.sharedAt shared).memory word := rfl

lemma generational_empty (view : TimelineView) : (empty view).Generational := by
  refine ⟨?_, ?_, fun _ _ => le_rfl, fun _ _ => le_rfl, ?_, ?_, ?_⟩
  · intro i hi
    cases hi
  · intro i hi
    cases hi
  · intro i hi
    cases hi
  · intro i hi
    cases hi
  · intro sync hsync
    cases hsync

/-! ## Changes of the tables -/

/-- Shared payloads stay and their targets do not fall. -/
structure Raises (s t : Core) : Prop where
  length : s.shareds.length ≤ t.shareds.length
  timeline : ∀ i < s.shareds.length, (t.sharedAt i).timeline = (s.sharedAt i).timeline
  target : ∀ i < s.shareds.length, s.load i .target ≤ t.load i .target

lemma Placed.raise (h : s.Placed sync shared) (hraises : Raises s t) : t.Placed sync shared := by
  refine ⟨h.known.trans_le hraises.length, (hraises.timeline shared h.known).trans h.timeline, ?_⟩
  intro hbinary g hg
  exact (h.snapshot hbinary g hg).trans (hraises.target shared h.known)

section

variable (h : s.Generational)

include h

/-- The invariant reads the memory files, the shared payloads and the handles. -/
lemma Generational.congr (hmemories : t.memories = s.memories) (hshareds : t.shareds = s.shareds)
    (hsyncs : ∀ sync, some sync ∈ t.syncs → some sync ∈ s.syncs) : t.Generational := by
  have hwords : t.words = s.words := by
    unfold words
    rw [hmemories]
  have hat : t.sharedAt = s.sharedAt := by
    unfold sharedAt
    rw [hshareds]
  have hload : t.load = s.load := by
    funext i word
    rw [load_eq_words, load_eq_words, hwords, hat]
  constructor
  · rw [hat, hshareds, hmemories]
    exact h.backed
  · rw [hat, hshareds, hload]
    exact h.kind
  · rw [hwords]
    exact h.completed
  · rw [hwords]
    exact h.pending
  · rw [hat, hshareds]
    exact h.sources
  · rw [hat, hshareds, hload]
    exact h.points
  intro sync hsync shared hpayload
  refine (h.handles sync (hsyncs sync hsync) shared hpayload).raise ⟨hshareds ▸ le_rfl, ?_, ?_⟩
  · intro i _
    rw [hat]
  · intro i _
    rw [hload]

lemma Generational.allocates (ht : Allocates s t) : t.Generational := by
  apply h.congr
  · rw [ht.rest]
  · rw [ht.rest]
  · rw [ht.rest]
    exact fun _ h => h

lemma Generational.releaseAll (slots : List Slot) : (s.releaseAll slots).Generational := by
  rw [releaseAll_eq]
  exact h.congr rfl rfl fun _ h => h

lemma Generational.placed (hsync : s.syncRef id = .ok sync)
    (hpayload : sync.state.payload = .shared shared) : s.Placed sync shared :=
  h.handles sync (mem_of_getElem? (syncRef_eq_ok.mp hsync).2) shared hpayload

lemma Generational.setSync
    (hplaced : ∀ shared, sync.state.payload = .shared shared → s.Placed sync shared) :
    (s.setSync id sync).Generational := by
  refine { h with handles := ?_ }
  intro other hother shared hpayload
  have hplaced' : s.Placed other shared := by
    rcases mem_or_eq_of_mem_set hother with hmem | heq
    · exact h.handles other hmem shared hpayload
    · cases heq
      exact hplaced shared hpayload
  exact { hplaced' with }

lemma Generational.push
    (hplaced : ∀ shared, sync.state.payload = .shared shared → s.Placed sync shared) :
    ({ s with syncs := s.syncs ++ [some sync] } : Core).Generational := by
  refine { h with handles := ?_ }
  intro other hother shared hpayload
  have hplaced' : s.Placed other shared := by
    rcases mem_append.mp hother with hmem | hmem
    · exact h.handles other hmem shared hpayload
    · cases mem_singleton.mp hmem
      exact hplaced shared hpayload
  exact { hplaced' with }

/-- The local slots of a shared payload change. -/
lemma Generational.setShared (hmemory : object.memory = (s.sharedAt shared).memory)
    (htimeline : object.timeline = (s.sharedAt shared).timeline)
    (hlocal : object.timeline = false →
      object.sources = [] ∧ ∀ point ∈ object.points, point.1 ≤ s.load shared .pending) :
    (s.setShared shared object).Generational := by
  have hlength : (s.setShared shared object).shareds.length = s.shareds.length := length_set
  have hkept : ∀ i, ((s.setShared shared object).sharedAt i).memory = (s.sharedAt i).memory ∧
      ((s.setShared shared object).sharedAt i).timeline = (s.sharedAt i).timeline := by
    intro i
    rcases sharedAt_setShared s shared i object with hsame | ⟨rfl, hset⟩
    · rw [hsame]
      exact ⟨rfl, rfl⟩
    · rw [hset]
      exact ⟨hmemory, htimeline⟩
  have hload := @load_setShared s shared object hmemory
  refine ⟨?_, ?_, h.completed, h.pending, ?_, ?_, ?_⟩
  · intro i hi
    rw [(hkept i).1]
    exact h.backed i (hlength ▸ hi)
  · intro i hi
    rw [hload, (hkept i).2]
    exact h.kind i (hlength ▸ hi)
  · intro i hi hbinary
    rcases sharedAt_setShared s shared i object with hsame | ⟨rfl, hset⟩
    · rw [hsame] at hbinary ⊢
      exact h.sources i (hlength ▸ hi) hbinary
    · rw [hset] at hbinary ⊢
      exact (hlocal hbinary).1
  · intro i hi hbinary
    rw [hload]
    rcases sharedAt_setShared s shared i object with hsame | ⟨rfl, hset⟩
    · rw [hsame] at hbinary ⊢
      exact h.points i (hlength ▸ hi) hbinary
    · rw [hset] at hbinary ⊢
      exact (hlocal hbinary).2
  · intro sync hsync shared' hpayload
    refine (h.handles sync hsync shared' hpayload).raise ⟨hlength.ge, ?_, ?_⟩
    · exact fun i _ => (hkept i).2
    · exact fun i _ => (hload i .target).ge

lemma Generational.dropShared (shared : ℕ) : (s.dropShared shared).Generational := by
  unfold Core.dropShared
  split_ifs
  · exact h
  apply Generational.releaseAll
  apply Generational.releaseAll
  apply h.setShared
  · rfl
  · rfl
  · exact fun _ => ⟨rfl, by simp⟩

lemma Generational.dropPayload (payload : Payload) : (s.dropPayload payload).Generational := by
  cases payload with
  | native slot => exact h.congr rfl rfl fun _ h => h
  | foreign id => exact h
  | shared shared => exact h.dropShared shared

/-- A handle gets a payload that is not shared. -/
lemma Generational.replace (hpayload : ∀ shared, payload ≠ .shared shared) :
    (s.replace id sync payload).Generational := by
  apply Generational.dropPayload
  apply h.setSync
  intro shared heq
  exact absurd heq (hpayload shared)

end

/-! ## Changes of a word -/

lemma words_setWord (s : Core) (shared : ℕ) (word : Word) (value m : ℕ) (read : Word) :
    (s.setWord shared word value).words m read = s.words m read ∨
      m = (s.sharedAt shared).memory ∧ read = word ∧
        (s.setWord shared word value).words m read = value := by
  show (s.memories.modify (s.sharedAt shared).memory _).getD m _ read = s.words m read ∨ _ ∧ _ ∧
    (s.memories.modify (s.sharedAt shared).memory _).getD m _ read = value
  simp only [words, getD_eq_getElem?_getD, getElem?_modify]
  by_cases hmemory : (s.sharedAt shared).memory = m
  · simp only [hmemory, ↓reduceIte]
    cases s.memories[m]? with
    | none => exact .inl rfl
    | some found =>
      by_cases hread : read = word
      · subst hread
        exact .inr ⟨trivial, rfl, Function.update_self ..⟩
      · exact .inl (Function.update_of_ne hread ..)
  · simp [hmemory]

lemma words_setWord_self (h : s.Generational) (hknown : shared < s.shareds.length) (word : Word)
    (value : ℕ) : (s.setWord shared word value).load shared word = value := by
  have hbacked := h.backed shared hknown
  show (s.memories.modify (s.sharedAt shared).memory _).getD (s.sharedAt shared).memory _ word = value
  simp [getElem?_eq_getElem hbacked]

lemma words_setWord_ne (s : Core) (shared value m : ℕ) {word read : Word} (hread : read ≠ word) :
    (s.setWord shared word value).words m read = s.words m read := by
  rcases words_setWord s shared word value m read with hsame | ⟨-, heq, -⟩
  · exact hsame
  · exact absurd heq hread

/-- A word may be raised up to the next one in the order. -/
lemma Generational.setWord (h : s.Generational) (hknown : shared < s.shareds.length)
    (hkind : word ≠ .kind) (hle : s.load shared word ≤ value)
    (hpending : (s.sharedAt shared).timeline = false → word = .completed →
      value ≤ s.load shared .pending)
    (htarget : (s.sharedAt shared).timeline = false → word = .pending →
      value ≤ s.load shared .target) :
    (s.setWord shared word value).Generational := by
  have hsame : ∀ m, (s.setWord shared word value).words m .kind = s.words m .kind :=
    fun m => words_setWord_ne s shared value m hkind.symm
  have hbinary : ∀ m, m = (s.sharedAt shared).memory → s.words m .kind = 0 →
      (s.sharedAt shared).timeline = false := by
    rintro m rfl hzero
    have := h.kind shared hknown
    rw [load_eq_words, hzero] at this
    by_contra htime
    simp [htime] at this
  have hmono : ∀ m read, s.words m read ≤ (s.setWord shared word value).words m read := by
    intro m read
    rcases words_setWord s shared word value m read with heq | ⟨rfl, rfl, heq⟩
    · exact heq.ge
    · rw [heq]
      exact hle
  refine ⟨?_, ?_, ?_, ?_, h.sources, ?_, ?_⟩
  · intro i hi
    exact (h.backed i hi).trans_eq (length_modify ..).symm
  · intro i hi
    exact (hsame _).trans (h.kind i hi)
  · intro m hm
    rw [hsame] at hm
    rcases words_setWord s shared word value m .completed with heq | ⟨rfl, rfl, heq⟩
    · rw [heq]
      exact (h.completed m hm).trans (hmono m .pending)
    · rw [heq]
      exact (hpending (hbinary _ rfl hm) rfl).trans (hmono _ .pending)
  · intro m hm
    rw [hsame] at hm
    rcases words_setWord s shared word value m .pending with heq | ⟨rfl, rfl, heq⟩
    · rw [heq]
      exact (h.pending m hm).trans (hmono m .target)
    · rw [heq]
      exact (htarget (hbinary _ rfl hm) rfl).trans (hmono _ .target)
  · intro i hi htime point hpoint
    exact (h.points i hi htime point hpoint).trans (hmono _ .pending)
  · intro sync hsync shared' hpayload
    exact (h.handles sync hsync shared' hpayload).raise
      ⟨le_rfl, fun _ _ => rfl, fun i _ => hmono _ .target⟩

/-! ## Publication -/

/-- What is published is the old value or the target of a finished point. -/
lemma published_ok {pool : SlotPool} {completed c : ℕ} (hsources : object.sources = [])
    (h : published pool object completed = .ok c) :
    completed ≤ c ∧
      (c = completed ∨ ∃ point ∈ object.points, pool.word32 point.2 = 1 ∧ c = point.1) := by
  unfold published at h
  rw [hsources] at h
  have hfold : ∀ (points : List (ℕ × Slot)) (completed c : ℕ),
      points.foldlM (fun completed point => do
        let word ← pool.read32 point.2
        pure (if word = 1 then max completed point.1 else completed)) completed =
          (.ok c : Result ℕ) →
      completed ≤ c ∧
        (c = completed ∨ ∃ point ∈ points, pool.word32 point.2 = 1 ∧ c = point.1) := by
    intro points
    induction points with
    | nil =>
      intro completed c hc
      cases hc
      exact ⟨le_rfl, .inl rfl⟩
    | cons point points ih =>
      intro completed c hc
      rw [foldlM_cons] at hc
      cases hread : pool.read32 point.2 with
      | error e =>
        rw [hread] at hc
        cases hc
      | ok word =>
        have hword : word = pool.word32 point.2 := by
          unfold SlotPool.read32 at hread
          split at hread
          · cases hread
          · cases hread
            rfl
        rw [hread] at hc
        obtain ⟨hle, hcase⟩ := ih _ c hc
        by_cases hone : word = 1
        · rw [if_pos hone] at hle hcase
          refine ⟨(le_max_left _ _).trans hle, ?_⟩
          rcases hcase with heq | ⟨other, hother, hdone, heq⟩
          · rcases le_total completed point.1 with hge | hge
            · exact .inr ⟨point, by simp, hword ▸ hone, heq.trans (max_eq_right hge)⟩
            · exact .inl (heq.trans (max_eq_left hge))
          · exact .inr ⟨other, by simp [hother], hdone, heq⟩
        · rw [if_neg hone] at hle hcase
          refine ⟨hle, hcase.imp_right ?_⟩
          rintro ⟨other, hother, hdone, heq⟩
          exact ⟨other, by simp [hother], hdone, heq⟩
  apply hfold
  cases hpoints : object.points.foldlM (fun completed point => do
      let word ← pool.read32 point.2
      pure (if word = 1 then max completed point.1 else completed)) completed with
  | error e =>
    rw [hpoints] at h
    cases h
  | ok d =>
    rw [hpoints] at h
    exact h

/-- `refresh` raises the completed word and drops local slots. -/
structure Publishes (s : Core) (shared c : ℕ) (u : Core) : Prop where
  value : published s.pool (s.sharedAt shared) (s.load shared .completed) = .ok c
  memories : u.memories =
    (s.setWord shared .completed (max (s.load shared .completed) c)).memories
  shareds : ∃ points sources, u.shareds =
    s.shareds.set shared { s.sharedAt shared with points := points, sources := sources } ∧
    points ⊆ (s.sharedAt shared).points ∧ sources ⊆ (s.sharedAt shared).sources
  syncs : u.syncs = s.syncs
  words : u.pool.words = s.pool.words

lemma refresh_publishes :
    Spec (s = ·) (refresh shared) (fun _ u => ∃ c, Publishes s shared c u) fun _ u => s = u := by
  apply Spec.look
  refine .compute ?_ (fun _ _ _ h => h)
  intro c hc
  apply Spec.known (exec_maximum s shared .completed c)
  apply Spec.look
  refine .last ?_
  refine ⟨c, hc, ?_, ?_, ?_, ?_⟩
  · rw [releaseAll_eq, releaseAll_eq]
    rfl
  · rw [releaseAll_eq, releaseAll_eq]
    exact ⟨_, _, rfl, filter_subset_self _, filter_subset_self _⟩
  · rw [releaseAll_eq, releaseAll_eq]
    rfl
  · rw [words_releaseAll, words_releaseAll]
    rfl

lemma Publishes.generational {c : ℕ} (hu : Publishes s shared c u) (h : s.Generational)
    (hknown : shared < s.shareds.length) : u.Generational := by
  obtain ⟨points, sources, hshareds, hpoints, hsources⟩ := hu.shareds
  have hraised : (s.setWord shared .completed (max (s.load shared .completed) c)).Generational := by
    refine h.setWord hknown (by decide) (le_max_left _ _) ?_ (nofun)
    intro htime _
    obtain ⟨hle, hcase⟩ := published_ok (h.sources shared hknown htime) hu.value
    have hkind : s.words (s.sharedAt shared).memory .kind = 0 := by
      have := h.kind shared hknown
      rwa [htime] at this
    have hcompleted := h.completed _ hkind
    rcases hcase with rfl | ⟨point, hpoint, -, rfl⟩
    · rw [max_self]
      exact hcompleted
    · exact max_le hcompleted (h.points shared hknown htime point hpoint)
  have hset : ((s.setWord shared .completed (max (s.load shared .completed) c)).setShared shared
      { s.sharedAt shared with points := points, sources := sources }).Generational := by
    apply hraised.setShared
    · rfl
    · rfl
    intro htime
    constructor
    · have hnone := h.sources shared hknown htime
      rw [hnone] at hsources
      exact subset_nil.mp hsources
    · intro point hpoint
      exact hraised.points shared hknown htime point (hpoints hpoint)
  exact hset.congr hu.memories hshareds fun sync hsync => hu.syncs ▸ hsync

lemma refresh_generational (hs : s.Generational) (hknown : shared < s.shareds.length) :
    Ends s (refresh shared) Generational := by
  refine refresh_publishes.post ?_ ?_
  · rintro _ u ⟨c, hu⟩
    exact hu.generational hs hknown
  · rintro _ _ rfl
    exact hs

end NvidiaProlapse.Core
