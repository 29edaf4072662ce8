import NvidiaProlapse.SharedWords

/-!
# Resets and signals keep the generations in order

One lemma for each method that resets or signals a handle, on the CPU or through an
accepted batch, and for each call that wraps one.
-/
namespace NvidiaProlapse.Core
open Programs

variable {kernel : Kernel} {s t u : Core} {id shared value g : ℕ} {sync : SyncObj} {slot : Slot}
  {fresh : Option Slot}

lemma checkedSucc_eq {n m : ℕ} (h : checkedSucc n = some m) : m = n + 1 := by
  unfold checkedSucc at h
  split_ifs at h
  cases h
  rfl

lemma Generational.pool (h : s.Generational) (pool : SlotPool) :
    ({ s with pool := pool } : Core).Generational := h.congr rfl rfl fun _ h => h

/-- A handle that names no shared payload stays so. -/
lemma Generational.setSync_same {sync' : SyncObj} (h : s.Generational)
    (hsync : s.syncRef id = .ok sync) (hsame : Remarks sync sync') :
    (s.setSync id sync').Generational := by
  apply h.setSync
  intro shared hshared
  have hplaced := h.placed hsync (hsame.payload ▸ hshared)
  refine ⟨hplaced.known, hplaced.timeline.trans hsame.timeline.symm, ?_⟩
  intro hbinary g hg
  exact hplaced.snapshot (hsame.timeline ▸ hbinary) g (hsame.snapshot g hg)

lemma slot_generational : Keeps Generational (Core.slot kernel) := by
  apply Spec.of_states
  intro s hs
  refine (slot_allocates.enter (.refl s)).post ?_ ?_
  · intro _ t ht
    exact hs.allocates ht.1
  · intro _ t ht
    exact hs.allocates ht

/-! ## Resets and signals -/

/-- A new generation starts. -/
lemma Generational.advance (h : s.Generational) (hknown : shared < s.shareds.length) {next : ℕ}
    (hnext : checkedSucc (s.load shared .target) = some next) :
    (s.setWord shared .target next).Generational := by
  have heq := checkedSucc_eq hnext
  refine h.setWord hknown (by decide) (by omega) ?_ ?_
  all_goals
    intro _ hword
    cases hword

/-- The generation that a handle stands for was started. -/
lemma Placed.sharedTarget_le (h : s.Placed sync shared) (hbinary : sync.timeline = false)
    (value : ℕ) : s.sharedTarget sync shared value ≤ s.load shared .target := by
  unfold sharedTarget
  rw [hbinary]
  cases hsnapshot : sync.state.snapshot with
  | none => exact le_rfl
  | some g => exact h.snapshot hbinary g hsnapshot

/-- A word is raised in a state where the payload is known. -/
lemma load_setWord_ne (s : Core) (shared : ℕ) {word read : Word} (value other : ℕ)
    (hne : read ≠ word) : (s.setWord shared word value).load other read = s.load other read :=
  words_setWord_ne s shared value _ hne

/-- A generation that was started is signalled. -/
lemma Generational.complete (h : s.Generational) (hknown : shared < s.shareds.length)
    (htarget : (s.sharedAt shared).timeline = false → value ≤ s.load shared .target) :
    (s.completing shared value).Generational := by
  have hkind : (s.sharedAt shared).timeline = false →
      s.words (s.sharedAt shared).memory .kind = 0 := by
    intro htime
    have := h.kind shared hknown
    rwa [htime] at this
  have hpending : (s.setWord shared .pending (max (s.load shared .pending) value)).Generational := by
    refine h.setWord hknown (by decide) (le_max_left _ _) (nofun) ?_
    intro htime _
    exact max_le (h.pending _ (hkind htime)) (htarget htime)
  refine hpending.setWord hknown (by decide) (le_max_left _ _) ?_ (nofun)
  intro htime _
  rw [words_setWord_self h hknown, load_setWord_ne _ _ _ _ (by decide)]
  exact max_le_max (h.completed _ (hkind htime)) le_rfl

lemma Rewritten.generational {signalled : Option ℕ} (h : Rewritten t id fresh signalled u)
    (ht : t.Generational) : u.Generational := by
  obtain ⟨sync, hsync, hcase⟩ := h
  cases hcase with
  | inPlace _ _ _ hsame | counted _ hsame => exact (ht.pool _).setSync_same hsync hsame
  | bound _ _ _ => exact (ht.pool _).replace nofun
  | advanced _ hpayload hnext =>
    have hadvanced := ht.advance (ht.placed hsync hpayload).known hnext
    exact hadvanced.setSync_same hsync ⟨rfl, rfl, nofun⟩
  | completed hpayload =>
    have hplaced := ht.placed hsync hpayload
    apply ht.complete hplaced.known
    intro htime
    exact hplaced.sharedTarget_le (hplaced.timeline.symm.trans htime) _

lemma generational_upkeep {signalled : Option ℕ} :
    Upkeep kernel id signalled Generational (fun _ => Generational) Generational where
  slot := slot_generational
  empty := fun _ ht => ht
  back := fun _ _ ht => ht
  step := fun _ _ _ ht hu => hu.generational ht
  release := fun _ _ ht => ht.releaseAll _

lemma syncReset_generational (id : ℕ) : Keeps Generational (syncReset kernel id) :=
  generational_upkeep.syncReset fun _ h => h

lemma syncSignal_generational (id value : ℕ) : Keeps Generational (syncSignal kernel id value) :=
  generational_upkeep.syncSignal fun _ h => h

/-! ## GPU signals -/

variable {point : Slot} {target : ℕ}

lemma mem_insertPoint {points : List (ℕ × Slot)} {p : ℕ × Slot}
    (h : p ∈ (insertPoint target point points).1) : p = (target, point) ∨ p ∈ points := by
  induction points with
  | nil => exact .inl (List.mem_singleton.mp h)
  | cons head rest ih =>
    unfold insertPoint at h
    split_ifs at h
    · exact List.mem_cons.mp h
    · exact (List.mem_cons.mp h).imp_right (List.mem_cons_of_mem _)
    · rcases List.mem_cons.mp h with rfl | hrest
      · exact .inr (by simp)
      · exact (ih hrest).imp_right (List.mem_cons_of_mem _)

/-- The words and the local slots after a point was recorded. -/
structure Records (s : Core) (shared target : ℕ) (point : Slot) (u : Core) : Prop where
  memories : u.memories = ((if (s.sharedAt shared).timeline = false then
      s.setWord shared .target (max (s.load shared .target) target) else s).setWord shared .pending
    (max (s.load shared .pending) target)).memories
  shareds : u.shareds = s.shareds.set shared { s.sharedAt shared with
    points := (insertPoint target point (s.sharedAt shared).points).1 }
  syncs : u.syncs = s.syncs
  words : u.pool.words = s.pool.words

lemma addPoint_records :
    Spec (s = ·) (addPoint shared target point) (fun _ => Records s shared target point)
      fun (_ : Error) _ => False := by
  apply Spec.look
  -- The target of a binary payload is raised first.
  have hraise : exec (onlyIf ((s.sharedAt shared).timeline = false)
      (ignore (maximum shared .target target))) s =
      ((.ok () : Except Error Unit), if (s.sharedAt shared).timeline = false then
        s.setWord shared .target (max (s.load shared .target) target) else s) := by
    unfold onlyIf
    split_ifs
    · rfl
    · rfl
  apply Spec.known hraise
  generalize hraised : (if (s.sharedAt shared).timeline = false then
    s.setWord shared .target (max (s.load shared .target) target) else s) = raised
  have hrest : raised.shareds = s.shareds ∧ raised.syncs = s.syncs ∧ raised.pool = s.pool := by
    rw [← hraised]
    split_ifs
    all_goals exact ⟨rfl, rfl, rfl⟩
  have hat : ∀ i, raised.sharedAt i = s.sharedAt i := by
    intro i
    unfold sharedAt
    rw [hrest.1]
  have hload : raised.load shared .pending = s.load shared .pending := by
    rw [← hraised]
    split_ifs
    · exact load_setWord_ne s shared _ shared (by decide)
    · rfl
  have hmemory : ((raised.setShared shared { s.sharedAt shared with
      points := (insertPoint target point (s.sharedAt shared).points).1 }).sharedAt shared).memory =
      (raised.sharedAt shared).memory := by
    rcases sharedAt_setShared raised shared shared _ with hsame | ⟨-, hset⟩
    · rw [hsame]
    · rw [hset, hat]
  apply Spec.known (exec_modify _ raised)
  apply Spec.known (exec_maximum _ shared .pending target)
  apply Spec.unchanged
  rw [releaseAll_eq]
  have hpending : ∀ pool : SlotPool, ({ raised.setShared shared { s.sharedAt shared with
      points := (insertPoint target point (s.sharedAt shared).points).1 } with
        pool := pool } : Core).load shared .pending = s.load shared .pending := by
    intro pool
    rw [← hload]
    show raised.words _ .pending = raised.words _ .pending
    rw [← hmemory]
    rfl
  refine ⟨?_, ?_, hrest.2.1, ?_⟩
  · rw [hpending, hraised]
    show raised.memories.modify _ _ = raised.memories.modify _ _
    rw [← hmemory]
    rfl
  · show raised.shareds.set _ _ = _
    rw [hrest.1]
  · show ((insertPoint target point (s.sharedAt shared).points).2.toList.foldl _ raised.pool).words = _
    rw [← hrest.2.2, ← words_releaseAll raised, releaseAll_eq]

/-- The generation of a point was started and submitted. -/
lemma Records.generational (hu : Records s shared target point u) (h : s.Generational)
    (hknown : shared < s.shareds.length) : u.Generational := by
  have hkind : (s.sharedAt shared).timeline = false →
      s.words (s.sharedAt shared).memory .kind = 0 := by
    intro htime
    have := h.kind shared hknown
    rwa [htime] at this
  have hmemories := hu.memories
  generalize hraised : (if (s.sharedAt shared).timeline = false then
    s.setWord shared .target (max (s.load shared .target) target) else s) = raised at hmemories
  have hraise : raised.Generational ∧ raised.shareds = s.shareds ∧ raised.syncs = s.syncs ∧
      raised.load shared .pending = s.load shared .pending ∧
      ((s.sharedAt shared).timeline = false →
        raised.load shared .target = max (s.load shared .target) target) := by
    rw [← hraised]
    split_ifs with htime
    · refine ⟨?_, rfl, rfl, load_setWord_ne s shared _ shared (by decide), fun _ =>
        words_setWord_self h hknown _ _⟩
      exact h.setWord hknown (by decide) (le_max_left _ _) (nofun)
        nofun
    · exact ⟨h, rfl, rfl, rfl, fun hbinary => absurd hbinary htime⟩
  obtain ⟨hgood, hshareds, hsyncs, hpending, htarget⟩ := hraise
  have hat : ∀ i, raised.sharedAt i = s.sharedAt i := by
    intro i
    unfold sharedAt
    rw [hshareds]
  have hknown' : shared < raised.shareds.length := hshareds ▸ hknown
  rw [← hpending] at hmemories
  have hsubmitted :
      (raised.setWord shared .pending (max (raised.load shared .pending) target)).Generational := by
    refine hgood.setWord hknown' (by decide) (le_max_left _ _) (nofun) ?_
    intro htime _
    rw [hat] at htime
    rw [hpending, htarget htime]
    exact max_le_max (h.pending _ (hkind htime)) le_rfl
  have hset : ((raised.setWord shared .pending (max (raised.load shared .pending) target)).setShared
      shared { s.sharedAt shared with
        points := (insertPoint target point (s.sharedAt shared).points).1 }).Generational := by
    apply hsubmitted.setShared
    · show (s.sharedAt shared).memory = (raised.sharedAt shared).memory
      rw [hat]
    · show (s.sharedAt shared).timeline = (raised.sharedAt shared).timeline
      rw [hat]
    intro htime
    refine ⟨h.sources shared hknown htime, ?_⟩
    intro p hp
    rw [words_setWord_self hgood hknown', hpending]
    rcases mem_insertPoint hp with rfl | hold
    · exact le_max_right _ _
    · exact (h.points shared hknown htime p hold).trans (le_max_left _ _)
  refine hset.congr hmemories ?_ fun sync hsync => ?_
  · rw [hu.shareds, ← hshareds]
    rfl
  · rw [hu.syncs, ← hsyncs] at hsync
    exact hsync

lemma addPoint_generational (hs : s.Generational) (hknown : shared < s.shareds.length) :
    Ends s (addPoint shared target point) Generational :=
  addPoint_records.post (fun _ _ h => h.generational hs hknown) fun _ _ h => h.elim

end NvidiaProlapse.Core
