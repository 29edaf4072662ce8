import NvidiaProlapse.CommandRestore
import Mathlib.Data.List.TakeWhile

/-!
# A decode between the application's commands

The decoder binds its own pipeline, its own descriptor set and its own push constants for
compute, and replays the shadow. The application finds the state it left wherever it has
set it, and the bytes of the other stages do not change at all. What it never set is
undefined for it and may hold the decoder's values.
-/
namespace NvidiaProlapse.CommandState

open LastWrites Runs List

variable {app g gpu before after : ComputeState} {t : Tracker} {cs : Option Tracker} {a : Answer}

/-! ## The replay -/

lemma command_effect {c : Content} (h : c.command.content = some c) :
    c.command.effect g = g.describe c := by
  have heffect : c.command.effect g = c.command.content.elim g g.describe := by
    obtain ⟨layout, first, count, payload⟩ := c
    cases payload with
    | bind sets dyn | pushDesc writes | dbOffsets indices offsets | dbSamplers => rfl
  rw [heffect, h]
  rfl

lemma bound_effect (b : Bound) : b.command.effect g = g.bind b := by
  cases b with
  | pipeline p => rfl
  | shader s => rfl

lemma replay_bound (b : Option Bound) : (b.toList.map Bound.command).foldl Command.effect g =
    { g with bound := b.or g.bound } := by
  cases b with
  | none => rfl
  | some b => exact bound_effect b

lemma replay_contents {cs : List Content} (h : ∀ c ∈ cs, c.command.content = some c) :
    (cs.map Content.command).foldl Command.effect g =
      { g with sets := writes Content.value g.sets cs } := by
  induction cs generalizing g with
  | nil => rfl
  | cons c cs ih =>
    rw [map_cons, foldl_cons, command_effect (h c mem_cons_self),
      ih fun c' hc' => h c' (mem_cons_of_mem _ hc')]
    rfl

lemma replay_pushes (ps : List Push) : (ps.map Command.pushConstants).foldl Command.effect g =
    { g with push := writes Push.value g.push ps } := by
  induction ps generalizing g with
  | nil => rfl
  | cons p ps ih => exact ih

/-- The updates before the first one of the compute stage. -/
lemma latest_late {ps : List Push} {i : ℕ} :
    latest Push.value (ps.dropWhile fun p => !p.stages.testBit computeStage) ⟨computeStage, i⟩ =
      latest Push.value ps ⟨computeStage, i⟩ := by
  conv_rhs => rw [← takeWhile_append_dropWhile (p := fun p => !p.stages.testBit computeStage) (l := ps)]
  rw [latest_append]
  have hearly : latest Push.value (ps.takeWhile fun p => !p.stages.testBit computeStage)
      ⟨computeStage, i⟩ = none := by
    refine latest_eq_none fun p hp => value_other_stage ?_
    simpa using mem_takeWhile_imp hp
  rw [hearly, Option.or_none]

lemma latest_of_late {ps : List Push} {x : Byte} {v : UInt8}
    (h : latest Push.value (ps.dropWhile fun p => !p.stages.testBit computeStage) x = some v) :
    latest Push.value ps x = some v := by
  rw [← takeWhile_append_dropWhile (p := fun p => !p.stages.testBit computeStage) (l := ps),
    latest_append, h]
  rfl

/-- What the replay leaves, over any state. -/
lemma restore_effect (h : Tracks app t) : t.restore.foldl Command.effect g =
    ⟨app.bound.or g.bound, fun x => (app.sets x).or (g.sets x),
      writes Push.value g.push (t.push.dropWhile fun p => !p.stages.testBit computeStage)⟩ := by
  unfold Tracker.restore
  rw [foldl_append, foldl_append, replay_pushes]
  have hcontents : t.calls.map (fun c => c.content.command) =
      (t.calls.map Call.content).map Content.command := by
    rw [map_map]
    rfl
  have hreplayed : ∀ c ∈ t.calls.map Call.content, c.command.content = some c := by
    intro c hc
    obtain ⟨call, hcall, rfl⟩ := mem_map.mp hc
    exact h.replayed call hcall
  have hsets : ∀ f : Slot → Option Descriptor,
      writes Content.value f (t.calls.map Call.content) = fun x => (app.sets x).or (f x) := by
    intro f
    funext x
    rw [writes_apply, h.sets x]
  rw [hcontents, replay_contents hreplayed, hsets, replay_bound, h.bound]

/-! ## What a decode changes -/

/-- The application finds what it has set. -/
structure Within (app gpu : ComputeState) : Prop where
  bound : ∀ b, app.bound = some b → gpu.bound = some b
  sets : ∀ x d, app.sets x = some d → gpu.sets x = some d
  push : ∀ x v, app.push x = some v → gpu.push x = some v

section Write

variable {α κ ν : Type*} {value : α → κ → Option ν} {f f' : κ → Option ν} {w : α}

lemma write_within (h : ∀ x v, f x = some v → f' x = some v) :
    ∀ x v, write value f w x = some v → write value f' w x = some v := by
  intro x v hv
  unfold write at hv ⊢
  cases hx : value w x with
  | some v' =>
    rw [hx] at hv
    exact hv
  | none =>
    rw [hx, Option.none_or] at hv
    rw [Option.none_or, h x v hv]

end Write

section

variable (h : Within app gpu)

include h

lemma bind_within (b : Bound) : Within (app.bind b) (gpu.bind b) :=
  ⟨fun _ hb => hb, h.sets, h.push⟩

lemma describe_within (c : Content) : Within (app.describe c) (gpu.describe c) :=
  ⟨h.bound, write_within h.sets, h.push⟩

lemma pushConstants_within (p : Push) : Within (app.pushConstants p) (gpu.pushConstants p) :=
  ⟨h.bound, h.sets, write_within h.push⟩

lemma content_within (c : Option Content) :
    Within (c.elim app app.describe) (c.elim gpu gpu.describe) := by
  cases c with
  | none => exact h
  | some c => exact describe_within h c

lemma effect_within (c : Command) : Within (c.effect app) (c.effect gpu) := by
  cases c with
  | bindPipeline compute p =>
    cases compute with
    | true => exact bind_within h _
    | false => exact h
  | bindShaders stages shaders =>
    rw [Command.effect, Command.effect]
    generalize computeShaders stages shaders = ss
    induction ss generalizing app gpu with
    | nil => exact h
    | cons s ss ih => exact ih (bind_within h _)
  | pushConstants p | pushConstants2 next p => exact pushConstants_within h p
  | bindDescriptorSets | bindDescriptorSets2 | pushDescriptorSet | pushDescriptorSet2
  | pushDescriptorSetWithTemplate | setDescriptorBufferOffsets | setDescriptorBufferOffsets2
  | bindEmbeddedSamplers | bindEmbeddedSamplers2 => exact content_within h _
  | beginConditionalRendering | endConditionalRendering | heap => exact h

end

/-- The decoder pushes constants for the compute stage alone. -/
lemma job_other_stage (j : Job) {x : Byte} (hx : x.stage ≠ computeStage) :
    (j.commands.foldl Command.effect g).push x = g.push x := by
  have hvalue : (Push.mk j.layout computeBit 0 j.values).value x = none :=
    value_other_stage (Nat.testBit_two_pow_of_ne hx.symm)
  show ((Push.mk j.layout computeBit 0 j.values).value x).or (g.push x) = g.push x
  rw [hvalue, Option.none_or]

lemma jobs_other_stage (jobs : List Job) {x : Byte} (hx : x.stage ≠ computeStage) :
    ((jobs.flatMap Job.commands).foldl Command.effect g).push x = g.push x := by
  induction jobs generalizing g with
  | nil => rfl
  | cons j jobs ih => rw [flatMap_cons, foldl_append, ih, job_other_stage j hx]

/-- Nothing that the application has set is different, and no byte of another stage. -/
structure Invisible (app before after : ComputeState) : Prop where
  bound : app.bound ≠ none → after.bound = before.bound
  sets : ∀ x, app.sets x ≠ none → after.sets x = before.sets x
  push : ∀ x, app.push x ≠ none ∨ x.stage ≠ computeStage → after.push x = before.push x

lemma Invisible.refl : Invisible app before before :=
  ⟨fun _ => rfl, fun _ _ => rfl, fun _ _ => rfl⟩

lemma Invisible.within (h : Invisible app before after) (hwithin : Within app before) :
    Within app after := by
  refine ⟨fun b hb => ?_, fun x d hd => ?_, fun x v hv => ?_⟩
  · rw [h.bound (by simp [hb]), hwithin.bound b hb]
  · rw [h.sets x (by simp [hd]), hwithin.sets x d hd]
  · rw [h.push x (.inl (by simp [hv])), hwithin.push x v hv]

/-- The replay over a state whose other stages are as before. -/
lemma restore_invisible (h : Tracks app t) (hwithin : Within app before)
    (hother : ∀ x : Byte, x.stage ≠ computeStage → g.push x = before.push x) :
    Invisible app before (t.restore.foldl Command.effect g) := by
  rw [restore_effect h]
  refine ⟨fun hb => ?_, fun x hx => ?_, fun x hx => ?_⟩
  · obtain ⟨b, hb⟩ := Option.ne_none_iff_exists'.mp hb
    rw [hwithin.bound b hb, hb]
    rfl
  · obtain ⟨d, hd⟩ := Option.ne_none_iff_exists'.mp hx
    show (app.sets x).or _ = _
    rw [hwithin.sets x d hd, hd]
    rfl
  · show writes Push.value g.push _ x = _
    rw [writes_apply]
    cases hlate : latest Push.value (t.push.dropWhile fun p => !p.stages.testBit computeStage) x with
    | some v => exact (hwithin.push x v (h.bytes x v (latest_of_late hlate))).symm
    | none =>
      by_cases hstage : x.stage = computeStage
      · -- A byte of the compute stage that the application has set is among the replayed ones.
        obtain ⟨stage, i⟩ := x
        subst hstage
        rw [latest_late, h.compute i] at hlate
        exact absurd hlate (hx.resolve_right (fun hne => hne rfl))
      · exact hother x hstage

lemma decode_invisible_of_tracks (h : Tracks app (tracker cs)) (hwithin : Within app before)
    (jobs : List Job) : Invisible app before ((decodeJobs cs jobs).foldl Command.effect before) := by
  unfold decodeJobs
  split_ifs
  · exact .refl
  have hrestore : (cs.map Tracker.restore).getD [] = (tracker cs).restore := by
    cases cs with
    | none => rfl
    | some t => rfl
  rw [hrestore, foldl_append]
  exact restore_invisible h hwithin fun x hx => jobs_other_stage jobs hx

/-! ## Runs -/

namespace Recording

variable {r r' : Recording} {act : Action}

/-- The shadow is accounted for. While nothing was lost it follows the application, which finds
what it has set. -/
structure Followed (r : Recording) : Prop where
  accounted : ∀ t ∈ r.cs, Accounted t
  sound : Sound (Within r.app r.gpu) r.app (tracker r.cs)

/-- The shadow could be allocated, and the command drops no older one that is still the last to have
written a descriptor, unless it writes that descriptor itself. -/
def Meets (r : Recording) : Action → Prop
  | .record c a => (r.cs ≠ none ∨ a.shadow = true) ∧ ∀ k ∈ c.content, (tracker r.cs).Spares k
  | .decode _ => True

lemma accounted_tracker (h : ∀ t ∈ cs, Accounted t) : Accounted (tracker cs) := by
  cases cs with
  | none => exact empty_accounted
  | some t => exact h t rfl

lemma lost_tracker : (tracker r.cs).lost = r.lost := by
  obtain ⟨app, gpu, cs⟩ := r
  cases cs with
  | none => rfl
  | some t => rfl

lemma step_followed (h : Followed r) (hmeets : Meets r act) : Followed (r.step act) := by
  cases act with
  | record c a =>
    obtain ⟨havail, hspares⟩ := hmeets
    refine ⟨shadow_accounted h.accounted c, fun hlost => ?_⟩
    obtain ⟨hwithin, htracks⟩ :=
      shadow_sound havail h.sound c (accounted_tracker h.accounted) hspares hlost
    exact ⟨effect_within hwithin c, htracks⟩
  | decode jobs =>
    refine ⟨h.accounted, fun hlost => ?_⟩
    obtain ⟨hwithin, htracks⟩ := h.sound hlost
    exact ⟨(decode_invisible_of_tracks htracks hwithin jobs).within hwithin, htracks⟩

lemma start_followed : Followed {} := by
  refine ⟨fun t ht => ?_, fun _ => ⟨⟨?_, ?_, ?_⟩, rfl, ?_, ?_, ?_, fun _ => rfl, ?_⟩⟩
  · cases ht
  · intro b hb
    cases hb
  · intro x d hd
    cases hd
  · intro x v hv
    cases hv
  · intro x
    rfl
  · intro i
    rfl
  · intro x v hv
    cases hv
  · intro c hc
    cases hc

/-- At most one call for each set index, and one index at least for each call. -/
structure Shared (t : Tracker) : Prop where
  calls_le : t.calls.length ≤ maxSets
  owns : ∀ c ∈ t.calls, ∃ k < maxSets, t.owner k = some c.id
  one : ∀ k i, t.owner k = some i → ∃! c, c ∈ t.calls ∧ c.id = i

lemma shared_of_accounted (h : Accounted t) : Shared t := by
  refine ⟨h.calls_le, h.owns, fun k i hk => ?_⟩
  obtain ⟨-, hi | ⟨c, hc, rfl⟩⟩ := h.owners.named k i hk
  · rw [hi] at hk
    exact absurd hk (h.unused k)
  · refine ⟨c, ⟨hc, rfl⟩, fun c' hc' => ?_⟩
    exact inj_on_of_nodup_map h.owners.nodup hc'.1 hc hc'.2

/-- In a run whose recorded commands meet the condition, a decode is invisible to the application
as long as nothing was lost. -/
theorem decode_invisible {actions : List Action} {jobs : List Job}
    (hmeets : Along (fun r a => some (step r a)) Meets {} actions)
    (hrun : run (fun r a => some (step r a)) {} actions = some r) :
    (r.lost = none → Invisible r.app r.gpu (r.step (.decode jobs)).gpu) ∧ ∀ t ∈ r.cs, Shared t := by
  have hfollowed : Followed r := by
    refine @run_invariant_along _ _ _ Meets Followed ?_ _ _ _ start_followed hmeets hrun
    intro r act r' h hm hstep
    cases hstep
    exact step_followed h hm
  refine ⟨fun hlost => ?_, fun t ht => shared_of_accounted (hfollowed.accounted t ht)⟩
  obtain ⟨hwithin, htracks⟩ := hfollowed.sound (lost_tracker.trans hlost)
  exact decode_invisible_of_tracks htracks hwithin jobs

/-- A command that leaves each call an index drops none. -/
lemma spares_of_owners {content : Content}
    (h : t.calls.all (fun c => (List.range maxSets).any fun k =>
      decide (t.owner k = some c.id ∧ ¬ content.covers k)) = true) : t.Spares content := by
  intro x c hc hcovered
  have hmem : c ∈ t.calls := mem_reverse.mp (mem_of_find?_eq_some hc)
  obtain ⟨k, -, hk⟩ := any_eq_true.mp (all_eq_true.mp h c hmem)
  rw [decide_eq_true_eq] at hk
  exact absurd (hcovered k hk.1) hk.2

/-- A descriptor set at 0 and 1, push descriptors over 1, push constants, and a decode. -/
def usual : List Action :=
  [.record (.bindPipeline true 1) {},
    .record (.bindDescriptorSets true 1 0 [7, 8] [16]) {},
    .record (.pushDescriptorSet true 1 1 [⟨0, 0, .buffer, .empty, [9]⟩]) {},
    .record (.pushConstants ⟨1, 33, 4, [1, 2]⟩) {},
    .decode [⟨2, 3, 4, [0]⟩]]

theorem decode_invisible_usual : ∃ r, run (fun r a => some (step r a)) {} usual = some r ∧
    r.lost = none ∧ Invisible r.app r.gpu (r.step (.decode [⟨2, 3, 4, [5, 6]⟩])).gpu := by
  have hmeets : Along (fun r a => some (step r a)) Meets {} usual := by
    refine (along_cons_some rfl).mp ⟨⟨.inr rfl, nofun⟩, ?_⟩
    refine (along_cons_some rfl).mp ⟨⟨.inr rfl, fun k hk => ?_⟩, ?_⟩
    · exact spares_of_owners (by cases hk; decide +kernel)
    refine (along_cons_some rfl).mp ⟨⟨.inr rfl, fun k hk => ?_⟩, ?_⟩
    · exact spares_of_owners (by cases hk; decide +kernel)
    refine (along_cons_some rfl).mp ⟨⟨.inr rfl, nofun⟩, ?_⟩
    exact (along_cons_some rfl).mp ⟨trivial, trivial⟩
  have hlost : (usual.foldl step {}).lost = none := by decide +kernel
  exact ⟨usual.foldl step {}, run_total step {} usual, hlost,
    (decode_invisible hmeets (run_total step {} usual)).1 hlost⟩

/-- Push descriptors for two bindings of one set, one after the other. -/
def pushedTwice : List Action :=
  [.record (.pushDescriptorSet true 1 0 [⟨0, 0, .buffer, .empty, [7]⟩]) {},
    .record (.pushDescriptorSet true 1 0 [⟨1, 0, .buffer, .empty, [8]⟩]) {}]

/-- The second call takes the set over and the first is dropped: its binding is the decoder's. -/
theorem decode_visible : ∃ r, run (fun r a => some (step r a)) {} pushedTwice = some r ∧
    r.lost = none ∧ r.app.sets ⟨0, 0, 0⟩ = some (.pushed .buffer 7) ∧
    r.gpu.sets ⟨0, 0, 0⟩ = some (.pushed .buffer 7) ∧
    (r.step (.decode [⟨2, 3, 4, [0]⟩])).gpu.sets ⟨0, 0, 0⟩ = some (.inSet 3 [4] [] 0 0 0) :=
  ⟨pushedTwice.foldl step {}, run_total step {} pushedTwice, by decide +kernel⟩

end Recording

end NvidiaProlapse.CommandState
