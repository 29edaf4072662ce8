import NvidiaProlapse.ShaderHeap

/-!
# Shader ranges over every interleaving

Every range is with a live shader, in a context's list, pending or returned: that holds in
every run. If in addition the token read for deleted ranges covers all work with them, then a
returned range has no user left.
-/
namespace NvidiaProlapse.ShaderHeap
open Runs List

/-- Replacing one context moves what its list of deleted ranges holds. -/
lemma count_flatMap_set {l : List Context} {c : ℕ} {ctx : Context} (h : l[c]? = some ctx)
    (ctx' : Context) (r : Shader) : ((l.set c ctx').flatMap Context.shaderFrees).count r + ctx.shaderFrees.count r =
      (l.flatMap Context.shaderFrees).count r + ctx'.shaderFrees.count r := by
  induction l generalizing c with
  | nil => simp at h
  | cons head l ih =>
    cases c with
    | zero =>
      obtain rfl : head = ctx := by simpa using h
      simp only [set_cons_zero, flatMap_cons, count_append]
      omega
    | succ c =>
      have := ih (by simpa using h)
      simp only [set_cons_succ, flatMap_cons, count_append]
      omega

namespace Screen

/-- Each range is in one place, and the tokens are in order: a batch beyond `last_token` is being
published. -/
structure Accounted (s : Screen) : Prop where
  counted : ∀ r, s.allocated.count r + s.returned.count r = s.created.count r
  fresh : ∀ r ∈ s.created, r.id < s.created.length
  nodup : s.created.Nodup
  done : s.done ≤ s.issued
  issued : ∀ batch ∈ s.batches, batch.token ≤ s.issued
  mutex : ∀ p ∈ s.submitting, p.2.token = s.issued
  published : ∀ batch ∈ s.batches, s.lastToken < batch.token →
    s.submitting.map Prod.snd = some batch
  recorded : ∀ ctx ∈ s.contexts, ∀ draw ∈ ctx.recording, ∀ r ∈ draw, r ∈ s.created
  addressed : ∀ batch ∈ s.batches, ∀ draw ∈ batch.draws, ∀ r ∈ draw, r ∈ s.created
  flushed : ∀ ctx ∈ s.contexts, ctx.phase = .reclaiming → ctx.shaderFrees = []

variable {s s' : Screen} {r : Shader} {entries : List (Shader × ℕ)} {ticks : List ℕ}

lemma within_eq_some {c : ℕ} {body : Context → Option Screen} (h : s.within c body = some s') :
    ∃ ctx, s.contexts[c]? = some ctx ∧ body ctx = some s' := by
  rw [within] at h
  split at h
  · exact nomatch h
  · exact ⟨_, ‹_›, h⟩

lemma Accounted.mem_created (h : s.Accounted) (hr : r ∈ s.live) : r ∈ s.created := by
  have := h.counted r
  have := count_pos_iff.mpr hr
  simp only [allocated, count_append] at *
  exact count_pos_iff.mp (by omega)

/-- The entries that are left to the loop count as pending. -/
lemma reclaimRanges_accounted (h : Accounted { s with pending := s.pending ++ entries }) :
    (s.reclaimRanges ticks entries).Accounted := by
  induction entries generalizing s ticks with
  | nil =>
    rw [append_nil] at h
    exact h
  | cons entry entries ih =>
    have hcount := h.counted
    have hdone := h.done
    simp only [allocated, map_append, map_cons, count_append] at hcount
    rw [reclaimRanges]
    split
    · refine ih { h with counted := fun r => ?_, done := by grind [progress] }
      have := hcount r
      simp only [allocated, progress, map_append, count_append, count_cons, count_nil] at *
      omega
    · refine ih { h with counted := fun r => ?_, done := by grind [progress] }
      have := hcount r
      simp only [allocated, progress, map_append, map_cons, map_nil,
        count_append, count_cons, count_nil] at *
      omega

lemma step_accounted {a : Action} (h : s.Accounted) (hstep : step s a = some s') :
    s'.Accounted := by
  have hlive : ∀ r ∈ s.live, r ∈ s.created := fun r hr => h.mem_created hr
  have hcount := h.counted
  simp only [allocated, count_append] at hcount
  cases a with
  | heapGrow | create | upload | progress =>
    obtain ⟨-, h2, h3, h4, h5, h6, h7, h8, h9, h10⟩ := h
    simp only [step, heapGrow, create, upload, progress] at hstep
    try split_ifs at hstep
    all_goals cases hstep
    all_goals constructor
    all_goals simp only [allocated, count_append]
    all_goals grind
  | draw c _ | freeShader c _ | submit c _ | readLast c | retire c =>
    obtain ⟨ctx, hctx, hstep⟩ := within_eq_some hstep
    have hset := count_flatMap_set hctx
    have hfst : ∀ (l : List Shader) (t : ℕ), (l.map (·, t)).map Prod.fst = l := by
      simp [Function.comp_def]
    obtain ⟨-, h2, h3, h4, h5, h6, h7, h8, h9, h10⟩ := h
    split at hstep
    all_goals try split_ifs at hstep
    all_goals cases hstep
    all_goals constructor
    all_goals simp only [allocated, count_append, map_append, hfst]
    all_goals grind
  | publish c =>
    obtain ⟨ctx, hctx, hstep⟩ := within_eq_some hstep
    have hset := count_flatMap_set hctx
    split at hstep
    · rename_i holder batch hsub
      split_ifs at hstep
      cases hstep
      -- The published token is the last one issued, so no batch is beyond it.
      have htoken : batch.token = s.issued := h.mutex _ hsub
      obtain ⟨-, h2, h3, h4, h5, h6, h7, h8, h9, h10⟩ := h
      constructor
      all_goals simp only [allocated, count_append]
      all_goals grind
    · exact nomatch hstep
  | reclaim c ticks =>
    obtain ⟨ctx, hctx, hstep⟩ := within_eq_some hstep
    split_ifs at hstep
    cases hstep
    refine reclaimRanges_accounted { h with counted := fun r => ?_, recorded := ?_, flushed := ?_ }
    · have := hcount r
      have := count_flatMap_set hctx { ctx with phase := .recording } r
      simp only [allocated, nil_append, count_append] at *
      omega
    all_goals grind [h.recorded, h.flushed]

/-! ### Users of deleted ranges -/

/-- No recorded work addresses the shader, and the batches that do have tokens up to `t`. -/
structure Quiet (s : Screen) (shader : Shader) (t : ℕ) : Prop where
  recorded : ∀ ctx ∈ s.contexts, ∀ draw ∈ ctx.recording, shader ∉ draw
  batches : ∀ batch ∈ s.batches, ∀ draw ∈ batch.draws, shader ∈ draw → batch.token ≤ t

/-- Ranges on their way back have no user beyond the token they wait for. -/
structure Retired (s : Screen) : Prop where
  retiring : ∀ ctx ∈ s.contexts, ∀ last, ctx.phase = .retiring last →
    ∀ r ∈ ctx.shaderFrees, s.Quiet r last
  pending : ∀ r t, (r, t) ∈ s.pending → s.Quiet r t
  returned : ∀ r ∈ s.returned, s.Quiet r s.done

lemma Quiet.mono {t t' : ℕ} (h : s.Quiet r t) (ht : t ≤ t') : s.Quiet r t' :=
  { h with batches := fun batch hbatch draw hdraw hr => (h.batches batch hbatch draw hdraw hr).trans ht }

/-- What is live is nowhere on its way back. -/
lemma Accounted.live_apart (h : s.Accounted) (hr : r ∈ s.live) :
    (∀ ctx ∈ s.contexts, r ∉ ctx.shaderFrees) ∧ (∀ t, (r, t) ∉ s.pending) ∧ r ∉ s.returned := by
  have hone : s.created.count r ≤ 1 := nodup_iff_count_le_one.mp h.nodup r
  have hcount := h.counted r
  have hlive := count_pos_iff.mpr hr
  simp only [allocated, count_append] at hcount
  refine ⟨fun ctx hctx hmem => ?_, fun t hmem => ?_, fun hmem => ?_⟩
  · have := count_pos_iff.mpr (mem_flatMap.mpr ⟨ctx, hctx, hmem⟩)
    omega
  · have : r ∈ s.pending.map Prod.fst := mem_map.mpr ⟨(r, t), hmem, rfl⟩
    have := count_pos_iff.mpr this
    omega
  · have := count_pos_iff.mpr hmem
    omega

/-- An entry is returned only when its token is done. -/
lemma reclaimRanges_retired (h : Retired { s with pending := s.pending ++ entries }) :
    (s.reclaimRanges ticks entries).Retired := by
  induction entries generalizing s ticks with
  | nil =>
    rw [append_nil] at h
    exact h
  | cons entry entries ih =>
    have hdone : s.done ≤ (s.progress (ticks.headD 0)).done := by grind [progress]
    obtain ⟨h1, h2, h3⟩ := h
    rw [reclaimRanges]
    split
    all_goals
      refine ih ⟨fun ctx hctx last hphase r hr => { h1 ctx hctx last hphase r hr with },
        fun r t hrt => { h2 r t (by grind [progress]) with }, fun r hr => ?_⟩
    · rcases mem_append.mp hr with hr | hr
      · exact { (h3 r hr).mono hdone with }
      · obtain rfl := mem_singleton.mp hr
        exact { (h2 entry.1 entry.2 (by grind)).mono ‹_› with }
    · exact { (h3 r hr).mono hdone with }

/-- Work that `last_token` covers is in batches up to it: a later one would be in hand of the context
that publishes it. -/
lemma Accounted.quiet (h : s.Accounted) (hr : ¬ s.Uncovered r) : s.Quiet r s.lastToken where
  recorded := fun ctx hctx draw hdraw hmem => hr (.inl ⟨ctx, hctx, draw, hdraw, hmem⟩)
  batches := by
    intro batch hbatch draw hdraw hmem
    by_contra hlt
    obtain ⟨p, hp, rfl⟩ := Option.map_eq_some_iff.mp (h.published batch hbatch (by omega))
    exact hr (.inr ⟨p, hp, draw, hdraw, hmem⟩)

lemma step_retired {a : Action} (ha : s.Accounted) (h : s.Retired) (hmeets : Meets s a)
    (hstep : step s a = some s') : s'.Retired := by
  have hapart := fun r hr => ha.live_apart (r := r) hr
  have hdone := ha.done
  cases a with
  | reclaim c ticks =>
    obtain ⟨ctx, hctx, hstep⟩ := within_eq_some hstep
    split_ifs at hstep
    cases hstep
    refine reclaimRanges_retired ?_
    obtain ⟨h1, h2, h3⟩ := h
    constructor <;> grind [Quiet]
  | heapGrow | create | upload | progress =>
    obtain ⟨h1, h2, h3⟩ := h
    simp only [step, heapGrow, create, upload, progress] at hstep
    try split_ifs at hstep
    all_goals cases hstep
    all_goals constructor
    all_goals grind [Quiet]
  | readLast c =>
    obtain ⟨ctx, hctx, hstep⟩ := within_eq_some hstep
    have hquiet : ∀ r ∈ ctx.shaderFrees, s.Quiet r s.lastToken :=
      fun r hr => ha.quiet (hmeets ctx hctx r hr)
    obtain ⟨h1, h2, h3⟩ := h
    split at hstep
    all_goals cases hstep
    constructor <;> grind [Quiet]
  | draw c _ | freeShader c _ | submit c _ | publish c | retire c =>
    obtain ⟨ctx, hctx, hstep⟩ := within_eq_some hstep
    obtain ⟨h1, h2, h3⟩ := h
    split at hstep
    all_goals try split_ifs at hstep
    all_goals cases hstep
    all_goals constructor
    all_goals grind [Quiet]

/-- A range that waits for a token which is done goes back with the next reclaim. -/
lemma reclaimRanges_returned : (∀ r ∈ s.returned, r ∈ (s.reclaimRanges ticks entries).returned) ∧
      ∀ r t, (r, t) ∈ entries → t ≤ s.done → r ∈ (s.reclaimRanges ticks entries).returned := by
  induction entries generalizing s ticks with
  | nil => simp [reclaimRanges]
  | cons entry entries ih =>
    rw [reclaimRanges]
    split
    · have := @ih { s.progress (ticks.headD 0) with returned := s.returned ++ [entry.1] } ticks.tail
      grind [progress]
    · have := @ih { s.progress (ticks.headD 0) with pending := s.pending ++ [entry] } ticks.tail
      grind [progress]

lemma new_accounted (contexts : ℕ) : (Screen.new contexts).Accounted := by
  constructor <;> simp [new, allocated, count_eq_zero]

lemma new_retired (contexts : ℕ) : (Screen.new contexts).Retired := by
  constructor <;> simp [new]

end Screen

open Screen

/-- In every run every range is in exactly one place, a context that has flushed has handed on
its deleted ranges, and the next reclaim of any context returns what has retired. If in addition every
token read for deleted ranges covers the work with them, then no returned range is addressed by work
that has not completed, and the heap hands out no range that overlaps code of such work. -/
theorem returned_ranges_unused {contexts : ℕ} {actions : List Action} {s : Screen}
    (hrun : run step (Screen.new contexts) actions = some s) :
    ((s.live ++ s.contexts.flatMap Context.shaderFrees ++ s.pending.map Prod.fst ++ s.returned).Perm
        s.created ∧ s.created.Nodup ∧
      (∀ ctx ∈ s.contexts, ctx.phase = .reclaiming → ctx.shaderFrees = []) ∧
      ∀ c ticks s', step s (.reclaim c ticks) = some s' →
        ∀ r t, (r, t) ∈ s.pending → t ≤ s.done → r ∈ s'.returned) ∧
    (Along step Meets (Screen.new contexts) actions → (∀ r ∈ s.returned, ¬ s.Addressed r) ∧
        ∀ r, s.Addressed r → ∀ addr size s', s.create addr size = some s' →
          r.Apart ⟨s.created.length, addr, size⟩) := by
  have h : s.Accounted := run_invariant (fun _ _ _ => step_accounted) (new_accounted contexts) hrun
  refine ⟨⟨perm_iff_count.mpr fun r => ?_, h.nodup, h.flushed, ?_⟩, fun hmeets => ?_⟩
  · rw [count_append]
    exact h.counted r
  · intro c ticks s' hstep r t hrt hdone
    obtain ⟨ctx, -, hstep⟩ := within_eq_some hstep
    split_ifs at hstep
    cases hstep
    exact reclaimRanges_returned.2 r t hrt hdone
  · have hinv (s : Screen) (a : Action) (s' : Screen) (h : s.Accounted ∧ s.Retired)
        (hguard : Meets s a) (hstep : step s a = some s') : s'.Accounted ∧ s'.Retired :=
      ⟨step_accounted h.1 hstep, step_retired h.1 h.2 hguard hstep⟩
    obtain ⟨-, hret⟩ := run_invariant_along hinv ⟨new_accounted contexts, new_retired contexts⟩
      hmeets hrun
    have hunused : ∀ r ∈ s.returned, ¬ s.Addressed r := by
      rintro r hr (⟨ctx, hctx, draw, hdraw, hmem⟩ | ⟨batch, hbatch, hdone, draw, hdraw, hmem⟩)
      · exact (hret.returned r hr).recorded ctx hctx draw hdraw hmem
      · have := (hret.returned r hr).batches batch hbatch draw hdraw hmem
        omega
    refine ⟨hunused, fun r haddr addr size s' hcreate => ?_⟩
    -- What is addressed was created and is not returned, so it is still allocated.
    have hcreated : r ∈ s.created := by
      rcases haddr with ⟨ctx, hctx, draw, hdraw, hmem⟩ | ⟨batch, hbatch, -, draw, hdraw, hmem⟩
      · exact h.recorded ctx hctx draw hdraw r hmem
      · exact h.addressed batch hbatch draw hdraw r hmem
    have hreturned : s.returned.count r = 0 :=
      count_eq_zero.mpr fun hr => hunused r hr haddr
    have hallocated : r ∈ s.allocated := by
      have := h.counted r
      have := count_pos_iff.mpr hcreated
      exact count_pos_iff.mp (by omega)
    rw [create] at hcreate
    split_ifs at hcreate with hok
    exact hok.2.2.2.2 r hallocated

/-- Both contexts of a screen use a shader; it is deleted when the work of both is submitted. -/
def orderlyDeletion : List Action :=
  [.create 0 256, .draw 0 [⟨0, 0, 256⟩], .draw 1 [⟨0, 0, 256⟩], .submit 1 false, .publish 1,
    .readLast 1, .reclaim 1 [], .freeShader 0 ⟨0, 0, 256⟩, .submit 0 false, .publish 0, .readLast 0,
    .retire 0, .reclaim 0 [2], .create 0 128]

theorem returned_ranges_unused_orderly :
    Along step Meets (Screen.new 2) orderlyDeletion ∧
      ∃ s, run step (Screen.new 2) orderlyDeletion = some s ∧
        s.returned = [⟨0, 0, 256⟩] ∧ ¬ s.Addressed ⟨0, 0, 256⟩ := by
  have hmeets : Along step Meets (Screen.new 2) orderlyDeletion := by decide +kernel
  have hview : (run step (Screen.new 2) orderlyDeletion).map Screen.returned = some [⟨0, 0, 256⟩] := by
    decide +kernel
  obtain ⟨s, hrun, hview⟩ := exists_run_of_view hview
  have h := (returned_ranges_unused hrun).2 hmeets
  exact ⟨hmeets, s, hrun, hview, h.1 _ (by simp [hview])⟩

/-- Context 0 deletes a shader and flushes while context 1 has recorded a draw with it. -/
def deletedUnderRecording : List Action :=
  [.create 0 256, .draw 1 [⟨0, 0, 256⟩], .freeShader 0 ⟨0, 0, 256⟩, .submit 0 false, .readLast 0,
    .retire 0, .reclaim 0 [], .create 0 256]

/-- The range is returned and handed out again for other code, while the draw that addresses it is
still to be submitted. -/
theorem range_reused_under_recording :
    ∃ s, run step (Screen.new 2) deletedUnderRecording = some s ∧
      ⟨0, 0, 256⟩ ∈ s.returned ∧ s.Addressed ⟨0, 0, 256⟩ ∧ ⟨1, 0, 256⟩ ∈ s.live := by
  have hview : (run step (Screen.new 2) deletedUnderRecording).map
      (fun s => (s.returned, s.contexts, s.live)) =
      some ([⟨0, 0, 256⟩], [{}, { recording := [[⟨0, 0, 256⟩]] }], [⟨1, 0, 256⟩]) := by decide +kernel
  obtain ⟨s, hrun, hview⟩ := exists_run_of_view hview
  simp only [Prod.mk.injEq] at hview
  exact ⟨s, hrun, by simp [hview], .inl (by simp [hview]), by simp [hview]⟩

end NvidiaProlapse.ShaderHeap
