import NvidiaProlapse.Reclaim

/-!
# Runs of deferred reclamation

What every state of a run has: the snapshot of a queued group covers the batches
accepted before its free, so a retired snapshot means that they have retired, and
later groups cover what earlier ones do.
-/
namespace NvidiaProlapse.Reclaimer
open Runs List Machine

variable {ι : Type}

/-! ## Safety of every group -/

/-- The queued groups and the free in progress, against the batches accepted
before them. -/
structure Sound (s : Machine ι) : Prop where
  issued : Issued s.queues s.accepted
  represents : Represents s.reclaim s.queued
  reclaimed_retired : ∀ g ∈ s.reclaimed, ∀ b ∈ g.accepted,
    b ∈ s.accepted ∧ retiredIn s.queues b.1 b.2 = true
  queued_accepted : ∀ g ∈ s.queued, g.accepted ⊆ s.accepted ∧ g.snapshot ⊆ g.accepted
  queued_covered : ∀ g ∈ s.queued, g.snapshot ≠ [] ∧ Covered s.queues g.accepted g.snapshot
  queued_grow : s.queued.Pairwise fun g h => g.accepted ⊆ h.accepted
  freeing_accepted : ∀ g ∈ s.phase.freeing, g.accepted = s.accepted
  found_covered : ∀ index found free, s.phase = .snapshot index found free →
    found ⊆ s.accepted ∧
      Covered s.queues (s.accepted.filter fun b => b.1 < index) found

lemma start_sound : Sound (Machine.start : Machine ι) := by
  refine ⟨⟨?_, ?_, ?_⟩, ⟨rfl, rfl, rfl⟩, ?_, ?_, ?_, List.Pairwise.nil, ?_, ?_⟩ <;>
    simp [start, Phase.freeing]

variable {s : Machine ι} {found : List (ℕ × ℕ)} {free g : Freed ι} {index : ℕ}
  {next : Option (Freed ι)}

/-- Queues that advance, with batches accepted only while no free is served, keep
every group safe. -/
lemma Sound.advance (h : Sound s) {queues : Queues} {accepted : List (ℕ × ℕ)}
    (hadv : Advances s.queues queues) (hissued : Issued queues accepted)
    (hsub : s.accepted ⊆ accepted) (hidle : accepted = s.accepted ∨ s.phase = .idle) :
    Sound { s with queues := queues, accepted := accepted } := by
  have hcover : ∀ old snapshot, old ⊆ s.accepted → Covered s.queues old snapshot →
      Covered queues old snapshot := by
    intro old snapshot hold hc
    exact hc.advance hadv (fun b hb => h.issued.index_lt b (hold hb))
  refine ⟨hissued, h.represents, ?_, ?_, ?_, h.queued_grow, ?_, ?_⟩
  · intro g hg b hb
    obtain ⟨hmem, hret⟩ := h.reclaimed_retired g hg b hb
    exact ⟨hsub hmem, hadv.retired b.1 b.2 (h.issued.index_lt b hmem) hret⟩
  · intro g hg
    obtain ⟨hacc, hsnap⟩ := h.queued_accepted g hg
    exact ⟨fun b hb => hsub (hacc hb), hsnap⟩
  · intro g hg
    obtain ⟨hne, hcov⟩ := h.queued_covered g hg
    exact ⟨hne, hcover g.accepted g.snapshot (h.queued_accepted g hg).1 hcov⟩
  · intro g hg
    rcases hidle with hsame | hidle
    · rw [h.freeing_accepted g hg, hsame]
    · simp [hidle, Phase.freeing] at hg
  · intro index found free hphase
    rcases hidle with rfl | hidle
    · obtain ⟨hfound, hcov⟩ := h.found_covered index found free hphase
      exact ⟨hfound, hcover _ found (filter_subset_self _) hcov⟩
    · rw [hidle] at hphase
      cases hphase

/-- Moving the lock holder to a phase that serves the same free, or one that saw
every batch, and has no snapshot under way. -/
lemma Sound.rephase (h : Sound s) {phase : Phase ι} {frees : List (List ι)}
    (hfree : ∀ g ∈ phase.freeing, g.accepted = s.accepted)
    (hfound : ∀ index found free, phase = .snapshot index found free → index = 0 ∧ found = []) :
    Sound { s with phase := phase, frees := frees } := by
  refine { h with freeing_accepted := hfree, found_covered := ?_ }
  intro index found free hphase
  obtain ⟨rfl, rfl⟩ := hfound index found free hphase
  exact ⟨nil_subset _, by simp [Covered]⟩

lemma freeing_afterReclaim (next : Option (Freed ι)) : (afterReclaim next).freeing = next.toList := by
  cases next <;> rfl

lemma afterReclaim_snapshot (h : afterReclaim next = .snapshot index found free) :
    index = 0 ∧ found = [] := by
  cases next with
  | none => cases h
  | some g =>
    cases h
    exact ⟨rfl, rfl⟩

lemma freeing_reclaimLocked (s : Machine ι) (next : Option (Freed ι)) :
    (reclaimLocked s next).freeing = next.toList := by
  unfold reclaimLocked
  split_ifs
  · exact freeing_afterReclaim next
  · rfl

lemma reclaimLocked_snapshot (h : reclaimLocked s next = .snapshot index found free) :
    index = 0 ∧ found = [] := by
  unfold reclaimLocked at h
  split_ifs at h
  · exact afterReclaim_snapshot h

lemma drainOnce_sound {budget : ℕ} (h : Sound s) (hphase : s.phase = .drain budget next) :
    Sound (drainOnce s budget next) := by
  have hnext : ∀ g ∈ next.toList, g.accepted = s.accepted := by
    have := h.freeing_accepted
    rwa [hphase] at this
  have hstop : Sound { s with phase := afterReclaim next } :=
    h.rephase (by rwa [freeing_afterReclaim]) (fun _ _ _ hp => afterReclaim_snapshot hp)
  cases budget with
  | zero => exact hstop
  | succ budget =>
    simp only [drainOnce]
    cases hpop : s.reclaim.popRetired false (retiredIn s.queues) with
    | none => exact hstop
    | some result =>
      obtain ⟨g, rest, hqueued, _, hrep, hret⟩ := h.represents.popRetired_some hpop
      have hacc := h.queued_accepted
      have hcov := h.queued_covered
      have hgrow := h.queued_grow
      rw [hqueued] at hacc hcov hgrow
      simp only [hqueued, head?_cons, Option.toList_some, tail_cons]
      refine ⟨h.issued, hrep, ?_, ?_, ?_, (pairwise_cons.mp hgrow).2, hnext, by simp⟩
      · refine forall_mem_append.mpr ⟨h.reclaimed_retired, forall_mem_singleton.mpr fun b hb => ?_⟩
        exact ⟨(hacc g (by simp)).1 hb, (hcov g (by simp)).2.retired hret b hb⟩
      · exact fun g' hg' => hacc g' (mem_cons_of_mem g hg')
      · exact fun g' hg' => hcov g' (mem_cons_of_mem g hg')

/-- A whole snapshot covers every accepted batch. -/
lemma Sound.found_all (h : Sound s) (hphase : s.phase = .snapshot index found free)
    (hend : s.queues.length ≤ index) :
    free.accepted = s.accepted ∧ found ⊆ s.accepted ∧ Covered s.queues s.accepted found := by
  obtain ⟨hfound, hcov⟩ := h.found_covered index found free hphase
  refine ⟨h.freeing_accepted free (by simp [hphase, Phase.freeing]), hfound, ?_⟩
  intro b hb
  have hlt := h.issued.index_lt b hb
  exact hcov b (by simp [hb]; omega)

lemma finishFree_sound (h : Sound s) (hphase : s.phase = .snapshot index found free)
    (hend : s.queues.length ≤ index) : Sound (finishFree s found free) := by
  obtain ⟨hacc, hfound, hcov⟩ := h.found_all hphase hend
  cases found with
  | nil =>
    refine ⟨h.issued, h.represents.begin_nil, ?_, h.queued_accepted, h.queued_covered,
      h.queued_grow, by simp [finishFree, Reclaim.begin, Phase.freeing], by simp [finishFree, Reclaim.begin]⟩
    refine forall_mem_append.mpr ⟨h.reclaimed_retired, forall_mem_singleton.mpr fun b hb => ?_⟩
    rw [hacc] at hb
    exact ⟨hb, hcov.retired (by simp) b hb⟩
  | cons p found =>
    have hrep := h.represents.commit { free with snapshot := p :: found }
    refine ⟨h.issued, hrep, h.reclaimed_retired, ?_, ?_, ?_,
      by simp [finishFree, Reclaim.begin, Phase.freeing], by simp [finishFree, Reclaim.begin]⟩
    · refine forall_mem_append.mpr ⟨h.queued_accepted, forall_mem_singleton.mpr ?_⟩
      simp only [hacc]
      exact ⟨List.Subset.refl _, hfound⟩
    · refine forall_mem_append.mpr ⟨h.queued_covered, forall_mem_singleton.mpr ?_⟩
      simp only [hacc]
      exact ⟨cons_ne_nil _ _, hcov⟩
    · refine pairwise_append.mpr ⟨h.queued_grow, pairwise_singleton _ _, fun g hg => ?_⟩
      rw [forall_mem_singleton]
      simp only [hacc]
      exact (h.queued_accepted g hg).1

/-! ## What one step can do -/

inductive Moves (s : Machine ι) : Machine ι → Prop where
  | queues (queues : Queues) (accepted : List (ℕ × ℕ)) (hadv : Advances s.queues queues)
      (hissued : Issued s.queues s.accepted → Issued queues accepted)
      (hsub : s.accepted ⊆ accepted) (hidle : accepted = s.accepted ∨ s.phase = .idle) :
      Moves s { s with queues := queues, accepted := accepted }
  | free (items : List ι) (hidle : s.phase = .idle) :
      Moves s { s with
        phase := reclaimLocked s (some ⟨s.frees.length, items, s.accepted, []⟩)
        frees := s.frees ++ [items] }
  | reclaim (hidle : s.phase = .idle) : Moves s { s with phase := reclaimLocked s none }
  | drain (budget : ℕ) (next : Option (Freed ι)) (hphase : s.phase = .drain budget next) :
      Moves s (drainOnce s budget next)
  | look (index : ℕ) (found : List (ℕ × ℕ)) (free : Freed ι)
      (hphase : s.phase = .snapshot index found free) :
      Moves s { s with
        phase := .snapshot (index + 1) (found ++ (snapshotOf s.queues index).toList) free }
  | finish (index : ℕ) (found : List (ℕ × ℕ)) (free : Freed ι)
      (hphase : s.phase = .snapshot index found free) (hend : s.queues.length ≤ index) :
      Moves s (finishFree s found free)

lemma step_moves {s' : Machine ι} {action : Action ι} (h : step s action = some s') :
    Moves s s' := by
  unfold step at h
  split at h
  · rename_i hidle
    cases h
    exact .queues _ s.accepted (.append _ _) Issued.create (List.Subset.refl _) (.inl rfl)
  · rename_i queue token hidle
    split at h
    · cases h
    rename_i q hq
    split_ifs at h with htoken
    cases h
    refine .queues _ _ (.set ?_) (fun hi => hi.submit hq htoken)
      (subset_append_left _ _) (.inr hidle)
    intro q' hq'
    cases hq'
    exact ⟨q, hq, htoken.le, le_rfl⟩
  · rename_i queue value _
    split at h
    · cases h
    rename_i q hq
    split_ifs at h with hvalue
    cases h
    refine .queues _ s.accepted (.set ?_) (fun hi => hi.set ?_) (List.Subset.refl _) (.inl rfl)
    · intro q' hq'
      cases hq'
      exact ⟨q, hq, le_rfl, hvalue.1.le⟩
    · intro q' hq'
      cases hq'
      exact ⟨q, hq, rfl⟩
  · cases h
    exact .queues _ s.accepted (.set (by simp)) (fun hi => hi.set (by simp))
      (List.Subset.refl _) (.inl rfl)
  · rename_i items hidle
    cases h
    exact .free items hidle
  · rename_i hidle
    cases h
    exact .reclaim hidle
  · rename_i budget next hphase
    cases h
    exact .drain budget next hphase
  · rename_i index found free hphase
    split_ifs at h with hmore
    · cases h
      exact .look index found free hphase
    · cases h
      exact .finish index found free hphase (by omega)
  · cases h

lemma look_sound (h : Sound s) (hphase : s.phase = .snapshot index found free) : Sound { s with
      phase := .snapshot (index + 1) (found ++ (snapshotOf s.queues index).toList) free } := by
  obtain ⟨hfound, hcov⟩ := h.found_covered index found free hphase
  obtain ⟨hnew, hlast⟩ := h.issued.snapshotOf index
  have hfree := h.freeing_accepted
  rw [hphase] at hfree
  refine { h with freeing_accepted := hfree, found_covered := ?_ }
  intro index' found' free' heq
  cases heq
  refine ⟨append_subset.mpr ⟨hfound, hnew⟩, ?_⟩
  intro b hb
  simp only [mem_filter, decide_eq_true_eq] at hb
  rcases Nat.lt_succ_iff_lt_or_eq.mp hb.2 with hlt | heq
  · rcases hcov b (by simp [hb.1, hlt]) with hret | ⟨token, hle, hmem⟩
    · exact .inl hret
    · exact .inr ⟨token, hle, mem_append_left _ hmem⟩
  · rcases hlast b hb.1 heq with hret | ⟨token, hle, hmem⟩
    · exact .inl hret
    · exact .inr ⟨token, hle, mem_append_right _ hmem⟩

lemma step_sound (s : Machine ι) (action : Action ι) (s' : Machine ι) (h : Sound s)
    (hstep : step s action = some s') : Sound s' := by
  cases step_moves hstep with
  | queues queues accepted hadv hissued hsub hidle =>
    exact h.advance hadv (hissued h.issued) hsub hidle
  | free items hidle | reclaim hidle =>
    refine h.rephase ?_ (fun _ _ _ hp => reclaimLocked_snapshot hp)
    rw [freeing_reclaimLocked]
    simp
  | drain budget next hphase => exact drainOnce_sound h hphase
  | look index found free hphase => exact look_sound h hphase
  | finish index found free hphase hend => exact finishFree_sound h hphase hend

/-! ## Each group once and in order -/

/-- Every free so far: reclaimed, queued or being served. -/
def Machine.groups (s : Machine ι) : List (Freed ι) := s.reclaimed ++ s.queued ++ s.phase.freeing

/-- The frees that were deferred, in the order they left or will leave the queue. -/
def Machine.deferred (s : Machine ι) : List (Freed ι) :=
  s.reclaimed.filter (fun g => g.snapshot ≠ []) ++ s.queued

structure Booked (s : Machine ι) : Prop where
  out_eq : s.out = s.reclaimed.flatMap Freed.items
  once : (s.groups.map Freed.serial).Perm (List.range s.frees.length)
  items_eq : ∀ g ∈ s.groups, s.frees[g.serial]? = some g.items
  ordered : (s.deferred ++ s.phase.freeing).Pairwise fun g h => g.serial < h.serial
  freeing_open : ∀ g ∈ s.phase.freeing, g.snapshot = []

lemma start_booked : Booked (Machine.start : Machine ι) := by
  refine ⟨rfl, ?_, ?_, ?_, ?_⟩ <;>
    simp [start, groups, deferred, Phase.freeing]

/-- Only the groups, the output and the free in service count. -/
lemma Booked.congr {s' : Machine ι} (h : Booked s) (hout : s'.out = s.out)
    (hfrees : s'.frees = s.frees) (hreclaimed : s'.reclaimed = s.reclaimed)
    (hqueued : s'.queued = s.queued) (hfreeing : s'.phase.freeing = s.phase.freeing) : Booked s' := by
  constructor
  · rw [hout, hreclaimed, h.out_eq]
  · rw [groups, hreclaimed, hqueued, hfreeing, hfrees]
    exact h.once
  · rw [groups, hreclaimed, hqueued, hfreeing, hfrees]
    exact h.items_eq
  · rw [deferred, hreclaimed, hqueued, hfreeing]
    exact h.ordered
  · rw [hfreeing]
    exact h.freeing_open

lemma Booked.serial_lt (h : Booked s) (hg : g ∈ s.groups) : g.serial < s.frees.length := by
  have hmem := h.once.mem_iff.mp (mem_map_of_mem hg)
  simpa using hmem

lemma Machine.mem_groups_of_deferred (hg : g ∈ s.deferred) : g ∈ s.groups := by
  rcases mem_append.mp hg with hg | hg
  · simp [groups, (mem_filter.mp hg).1]
  · simp [groups, hg]

lemma free_booked {items : List ι} (h : Booked s) (hidle : s.phase = .idle) : Booked { s with
      phase := reclaimLocked s (some ⟨s.frees.length, items, s.accepted, []⟩)
      frees := s.frees ++ [items] } := by
  have honce := h.once
  have hitems := h.items_eq
  have hordered := h.ordered
  simp only [groups, hidle, Phase.freeing, append_nil] at honce hitems hordered
  refine ⟨h.out_eq, ?_, ?_, ?_, ?_⟩
  · simp only [groups, freeing_reclaimLocked, Option.toList_some, map_append,
      map_singleton, length_append, length_singleton, range_succ]
    rw [← map_append]
    exact honce.append_right _
  · simp only [groups, freeing_reclaimLocked, Option.toList_some]
    refine forall_mem_append.mpr ⟨fun g hold => ?_, forall_mem_singleton.mpr (by simp)⟩
    have hlt := h.serial_lt (g := g) (by rw [groups]; exact mem_append_left _ hold)
    rw [getElem?_append_left hlt]
    exact hitems g hold
  · simp only [freeing_reclaimLocked, Option.toList_some]
    refine pairwise_append.mpr ⟨hordered, pairwise_singleton _ _, fun g hg => ?_⟩
    rw [forall_mem_singleton]
    exact h.serial_lt (mem_groups_of_deferred hg)
  · simp [freeing_reclaimLocked]

/-- A pop moves the oldest queued group behind the reclaimed ones. -/
lemma drainOnce_booked {budget : ℕ} (h : Booked s) (hsound : Sound s)
    (hphase : s.phase = .drain budget next) : Booked (drainOnce s budget next) := by
  have hfreeing : s.phase.freeing = next.toList := by rw [hphase]; rfl
  have hstop : Booked { s with phase := afterReclaim next } :=
    h.congr rfl rfl rfl rfl (by rw [hfreeing, freeing_afterReclaim])
  cases budget with
  | zero => exact hstop
  | succ budget =>
    simp only [drainOnce]
    cases hpop : s.reclaim.popRetired false (retiredIn s.queues) with
    | none => exact hstop
    | some result =>
      obtain ⟨items, reclaim⟩ := result
      obtain ⟨g, rest, hqueued, rfl, _, _⟩ := hsound.represents.popRetired_some hpop
      have hdeferred : g.snapshot ≠ [] := (hsound.queued_covered g (by simp [hqueued])).1
      have honce := h.once
      have hitems := h.items_eq
      have hordered := h.ordered
      have hopen := h.freeing_open
      simp only [groups, deferred, hqueued, hfreeing] at honce hitems hordered hopen
      simp only [hqueued, head?_cons, Option.toList_some, tail_cons]
      refine ⟨?_, ?_, ?_, ?_, hopen⟩
      · simp [h.out_eq]
      · simpa [groups, Phase.freeing] using honce
      · simpa [groups, Phase.freeing] using hitems
      · simpa [deferred, Phase.freeing, hdeferred] using hordered

/-- A free that found every queue retired leaves at once, any other joins the
queue behind the older ones. -/
lemma finishFree_booked (h : Booked s) (hphase : s.phase = .snapshot index found free) :
    Booked (finishFree s found free) := by
  have honce := h.once
  have hitems := h.items_eq
  have hordered := h.ordered
  have hopen := h.freeing_open
  simp only [groups, hphase, Phase.freeing] at honce hitems hordered hopen
  cases found with
  | nil =>
    have hnot : free.snapshot = [] := hopen free (by simp)
    refine ⟨?_, ?_, ?_, ?_, by simp [finishFree, Reclaim.begin, Phase.freeing]⟩
    · simp [finishFree, Reclaim.begin, h.out_eq]
    · simp only [finishFree, Reclaim.begin, groups, Phase.freeing, length_nil, append_nil]
      refine List.Perm.trans (List.Perm.map _ ?_) honce
      rw [append_assoc, append_assoc]
      exact perm_append_comm.append_left _
    · intro g hg
      apply hitems
      simp only [finishFree, Reclaim.begin, groups, Phase.freeing, length_nil,
        append_nil, mem_append] at hg ⊢
      tauto
    · have hsub := (pairwise_append.mp hordered).1
      simpa [finishFree, Reclaim.begin, deferred, Phase.freeing, hnot] using hsub
  | cons p found =>
    refine ⟨h.out_eq, ?_, ?_, ?_, by simp [finishFree, Reclaim.begin, Phase.freeing]⟩
    · simpa [finishFree, Reclaim.begin, groups, Phase.freeing] using honce
    · simp only [finishFree, Reclaim.begin, groups, Phase.freeing, length_cons,
        append_nil, ← append_assoc]
      refine forall_mem_append.mpr ⟨fun g hold => ?_, forall_mem_singleton.mpr ?_⟩
      · exact hitems g (mem_append_left _ hold)
      · exact hitems free (by simp)
    · simp only [finishFree, Reclaim.begin, deferred, Phase.freeing, length_cons,
        append_nil, ← append_assoc]
      obtain ⟨hold, _, hnew⟩ := pairwise_append.mp hordered
      refine pairwise_append.mpr ⟨hold, pairwise_singleton _ _, fun g hg => ?_⟩
      rw [forall_mem_singleton]
      exact hnew g hg free (by simp)

lemma step_booked (s : Machine ι) (action : Action ι) (s' : Machine ι)
    (h : Sound s ∧ Booked s) (hstep : step s action = some s') : Sound s' ∧ Booked s' := by
  refine ⟨step_sound s action s' h.1 hstep, ?_⟩
  cases step_moves hstep with
  | queues queues accepted hadv hissued hsub hidle => exact h.2.congr rfl rfl rfl rfl rfl
  | free items hidle => exact free_booked h.2 hidle
  | reclaim hidle =>
    refine h.2.congr rfl rfl rfl rfl ?_
    rw [freeing_reclaimLocked, hidle]
    rfl
  | drain budget next hphase => exact drainOnce_booked h.2 h.1 hphase
  | look index found free hphase =>
    refine h.2.congr rfl rfl rfl rfl ?_
    rw [hphase]
    rfl
  | finish index found free hphase hend => exact finishFree_booked h.2 hphase

/-! ## Whole runs -/

/-- The snapshot of a group has retired. -/
def SnapshotRetired (queues : Queues) (g : Freed ι) : Prop :=
  ∀ p ∈ g.snapshot, retiredIn queues p.1 p.2 = true

/-- An unretired snapshot leaves every later queued group unretired: the newer
group recorded the same queue at the same token or above. -/
lemma Sound.later_unretired (h : Sound s) {rest : List (Freed ι)} (hqueued : s.queued = g :: rest)
    (hg : ¬ SnapshotRetired s.queues g) : ∀ g' ∈ s.queued, ¬ SnapshotRetired s.queues g' := by
  intro g' hg' hret
  apply hg
  intro p hp
  have hacc := (h.queued_accepted g (by simp [hqueued])).2 hp
  have hmem : p ∈ g'.accepted := by
    have hgrow := h.queued_grow
    rw [hqueued] at hgrow hg'
    rcases mem_cons.mp hg' with rfl | hrest
    · exact hacc
    · exact (pairwise_cons.mp hgrow).1 g' hrest hacc
  exact (h.queued_covered g' hg').2.retired hret p hmem

/-- Reclamation along every run. What was reclaimed was freed after batches that
have all retired or lost their queue. The items that came out are those of the
reclaimed groups, those in the deques belong to the queued ones, and every free
is in exactly one place. Deferred groups come out in free order; a free that
found every queue retired goes out at once, and then every queued group has
retired. A refused pop means that no queued group has. -/
theorem reclaim_after_retirement {actions : List (Action ι)} {s : Machine ι}
    (hrun : run step Machine.start actions = some s) :
    (∀ g ∈ s.reclaimed, ∀ b ∈ g.accepted, retiredIn s.queues b.1 b.2 = true) ∧
      s.out = s.reclaimed.flatMap Freed.items ∧
      s.reclaim.items = s.queued.flatMap Freed.items ∧
      (s.groups.map Freed.serial).Perm (List.range s.frees.length) ∧
      (∀ g ∈ s.groups, s.frees[g.serial]? = some g.items) ∧
      (s.deferred.Pairwise fun g h => g.serial < h.serial) ∧
      (s.reclaim.popRetired false (retiredIn s.queues) = none →
        ∀ g ∈ s.queued, ¬ SnapshotRetired s.queues g) ∧
      (∀ index free, s.phase = .snapshot index [] free → s.queues.length ≤ index →
        ∀ g ∈ s.queued, SnapshotRetired s.queues g) := by
  obtain ⟨h, hbooked⟩ := run_invariant step_booked ⟨start_sound, start_booked⟩ hrun
  refine ⟨?_, hbooked.out_eq, h.represents.items_eq, hbooked.once, hbooked.items_eq,
    (pairwise_append.mp hbooked.ordered).1, ?_, ?_⟩
  · exact fun g hg b hb => (h.reclaimed_retired g hg b hb).2
  · intro hpop
    cases hqueued : s.queued with
    | nil => simp
    | cons g rest =>
      obtain ⟨p, hp, hnot⟩ := h.represents.popRetired_none hpop hqueued
      rw [← hqueued]
      refine h.later_unretired hqueued (fun hret => ?_)
      rw [hret p hp] at hnot
      cases hnot
  · intro index free hphase hend g hg p hp
    obtain ⟨_, _, hcov⟩ := h.found_all hphase hend
    obtain ⟨hacc, hsnap⟩ := h.queued_accepted g hg
    exact hcov.retired (by simp) p (hacc (hsnap hp))

/-- A free behind a busy queue, and a second one whose look at the queue comes
after the work completed. -/
def overtaking : List (Action ℕ) :=
  [.createQueue, .submit 0 1, .free [10], .resume, .resume,
    .free [20], .resume, .complete 0 1, .resume, .resume, .reclaim, .resume]

/-- The first free is deferred and safe, the second one leaves at once. -/
theorem reclaim_after_retirement_overtaking :
    ∃ s, run step Machine.start overtaking = some s ∧ s.reclaimed.length = 2 ∧
      ∀ g ∈ s.reclaimed, ∀ b ∈ g.accepted, retiredIn s.queues b.1 b.2 = true := by
  refine ⟨_, rfl, rfl, ?_⟩
  exact (@reclaim_after_retirement ℕ overtaking _ rfl).1

/-- Its items leave before those of the older free. -/
theorem overtaking_out_of_order :
    ∃ s, run step Machine.start overtaking = some s ∧ s.frees = [[10], [20]] ∧
      s.out = [20, 10] ∧ ¬ s.out.Sublist s.frees.flatten := by
  refine ⟨_, rfl, rfl, rfl, ?_⟩
  decide

end NvidiaProlapse.Reclaimer
