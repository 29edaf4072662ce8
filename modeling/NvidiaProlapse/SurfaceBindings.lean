import NvidiaProlapse.SessionSteps

/-!
# References and their surfaces

A codec binds the surfaces of the pictures it may still read to keys of its own: positions
of a DPB, picture ids, slots. A session must not decode into a bound surface. Every surface
the codec reports is spared, so it is enough that bindings are reported, and that only the
surface of the current picture is bound anew.
-/
namespace NvidiaProlapse.Video

open Programs Runs

variable {υ σ κ : Type}

/-- The bindings of a codec. `uses c i k` says that plane `i` of the picture that waits to be
built is the reference with key `k`. -/
structure Bindings (codec : Codec υ σ) (κ : Type) where
  inv : σ → Prop
  bound : σ → κ → ℕ → Prop
  uses : σ → ℕ → κ → Prop
  referenced : ∀ {c k x}, inv c → bound c k x → x ∈ codec.referenced c
  pushUnit : ∀ {c} data, inv c → inv (exec (codec.pushUnit data) c).2 ∧
    ∀ k x, bound (exec (codec.pushUnit data) c).2 k x → bound c k x
  nextJob : ∀ {c}, inv c → inv (exec codec.nextJob c).2 ∧
    ∀ k x, bound (exec codec.nextJob c).2 k x → bound c k x
  build : ∀ {c} job ctx, inv c → inv (exec (codec.build job ctx) c).2 ∧
    ∀ k x, bound (exec (codec.build job ctx) c).2 k x → bound c k x ∨ x = ctx.current
  finish : ∀ {c} job current readback, inv c → inv (exec (codec.finish job current readback) c).2 ∧
    ∀ k x, bound (exec (codec.finish job current readback) c).2 k x → bound c k x ∨ x = current
  flush : ∀ {c}, inv c → inv (codec.flush c) ∧ ∀ k x, bound (codec.flush c) k x → bound c k x
  /-- Planes of references are their surfaces; no plane is another surface than the current one. -/
  planes : ∀ {c job ctx planes c'}, inv c → exec (codec.build job ctx) c = (.ok planes, c') →
    (∀ i k, uses c i k → ∃ x, bound c k x ∧ planes[i]? = some (.session x)) ∧
      ∀ plane ∈ planes, plane = .session ctx.current ∨ ∃ k x, bound c k x ∧ plane = .session x

namespace Bindings

variable {codec : Codec υ σ} {b : Bindings codec κ} {device : Device υ} {s t : Session σ}

/-- The binding was made by a decode into the surface, which no later decode picked, and it stood
at each of them. -/
def Made (b : Bindings codec κ) (attempts : List (Attempt σ)) (k : κ) (x : ℕ) : Prop :=
  ∃ before a after, attempts = before ++ a :: after ∧ a.surface = x ∧
    (∀ k', ¬b.bound a.codec k' x) ∧ ∀ m ∈ after, m.surface ≠ x ∧ b.bound m.codec k x

/-- A decode into a surface that no picture and no reference has, with every reference programmed
from the surface it was decoded into. -/
structure Safe (b : Bindings codec κ) (before : List (Attempt σ)) (a : Attempt σ) : Prop where
  pictures : ∀ p ∈ a.pictures.entries.map Sigma.snd, p.surface ≠ a.surface
  bound : ∀ k x, b.bound a.codec k x → x ≠ a.surface ∧ b.Made before k x
  planes : ∀ job len index planes c,
    exec (codec.build job ⟨len, index, a.surface⟩) a.codec = (.ok planes, c) →
      (∀ i k, b.uses a.codec i k → ∃ x, b.bound a.codec k x ∧ planes[i]? = some (.session x)) ∧
        ∀ plane ∈ planes, plane = .session a.surface ∨
          ∃ k x, b.bound a.codec k x ∧ plane = .session x

/-- Every decode of the history was safe. -/
def AllSafe (b : Bindings codec κ) (attempts : List (Attempt σ)) : Prop :=
  ∀ before a after, attempts = before ++ a :: after → b.Safe before a

structure Tracked (b : Bindings codec κ) (s : Session σ) : Prop where
  inv : b.inv s.codec
  made : ∀ k x, b.bound s.codec k x → b.Made s.attempts k x
  safe : b.AllSafe s.attempts

lemma Tracked.quiet (h : b.Tracked s) (hq : Quiet s t) : b.Tracked t := by
  constructor
  · rw [hq.codec]
    exact h.inv
  · rw [hq.codec, hq.attempts]
    exact h.made
  · rw [hq.attempts]
    exact h.safe

variable {c : σ} {a : Attempt σ} {attempts : List (Attempt σ)} {current : ℕ} {job : DecodeJob}

/-- Bindings may go without a decode. -/
lemma Tracked.shrink (h : b.Tracked s) (hc : b.inv c ∧ ∀ k x, b.bound c k x → b.bound s.codec k x) :
    b.Tracked { s with codec := c } :=
  ⟨hc.1, fun k x hx => h.made k x (hc.2 k x hx), h.safe⟩

lemma Made.attempt {k : κ} {x : ℕ} (h : b.Made attempts k x) (hsurface : a.surface ≠ x)
    (hbound : b.bound a.codec k x) : b.Made (attempts ++ [a]) k x := by
  obtain ⟨before, m, after, rfl, hm, hfree, hafter⟩ := h
  refine ⟨before, m, after ++ [a], by simp, hm, hfree, ?_⟩
  rw [List.forall_mem_append, List.forall_mem_singleton]
  exact ⟨hafter, hsurface, hbound⟩

lemma AllSafe.attempt (h : b.AllSafe attempts) (ha : b.Safe attempts a) :
    b.AllSafe (attempts ++ [a]) := by
  intro before m after heq
  rcases List.eq_nil_or_concat after with rfl | ⟨rest, last, rfl⟩
  · obtain ⟨rfl, hsingle⟩ := List.append_inj' heq rfl
    cases hsingle
    exact ha
  · have heq' : attempts ++ [a] = (before ++ m :: rest) ++ [last] := by simpa using heq
    exact h before m rest (List.append_inj' heq' rfl).1

/-- A free surface is neither referenced nor held. -/
lemma free_of_head (hfree : (s.freeSurfaces codec).head? = some current) :
    current < s.surfaces ∧ current ∉ codec.referenced s.codec ∧ ∀ p ∈ s.values, p.surface ≠ current := by
  have hmem := List.mem_of_mem_head? hfree
  unfold Session.freeSurfaces at hmem
  simpa using hmem

/-- As far as the codec got with the picture, it bound at most its surface. -/
lemma progress {c' : σ} (hinv : b.inv c) (h : Progress codec job current c c') :
    b.inv c' ∧ ∀ k x, b.bound c' k x → b.bound c k x ∨ x = current := by
  cases h with
  | started => exact ⟨hinv, fun k x => .inl⟩
  | @built len index _ _ hbuild =>
    have hb := b.build job ⟨len, index, current⟩ hinv
    rw [hbuild] at hb
    exact hb
  | @finished len index _ readback _ _ _ hbuild hfinish =>
    have hb := b.build job ⟨len, index, current⟩ hinv
    rw [hbuild] at hb
    have hf := b.finish job current readback hb.1
    rw [hfinish] at hf
    refine ⟨hf.1, fun k x hx => ?_⟩
    rcases hf.2 k x hx with hx | rfl
    · exact hb.2 k x hx
    · exact .inr rfl

lemma Tracked.trying (h : b.Tracked s) (hfree : (s.freeSurfaces codec).head? = some current)
    (hc : Progress codec job current s.codec c) : b.Tracked (s.trying current c) := by
  obtain ⟨-, hreferenced, hpictures⟩ := free_of_head hfree
  have hunbound : ∀ k, ¬b.bound s.codec k current := fun k hk => hreferenced (b.referenced h.inv hk)
  have hother : ∀ k x, b.bound s.codec k x → current ≠ x := by
    rintro k x hx rfl
    exact hunbound k hx
  obtain ⟨hinv, hbound⟩ := progress h.inv hc
  refine ⟨hinv, ?_, h.safe.attempt ⟨hpictures, ?_, fun job len index planes c => b.planes h.inv⟩⟩
  · intro k x hx
    rcases hbound k x hx with hx | rfl
    · exact (h.made k x hx).attempt (hother k x hx) hx
    · exact ⟨s.attempts, _, [], rfl, rfl, hunbound, by simp⟩
  · exact fun k x hx => ⟨(hother k x hx).symm, h.made k x hx⟩

lemma Tracked.emit (h : b.Tracked s) (p : Picture) (key : Option ℤ) :
    b.Tracked (s.emit codec p key) := by
  cases key with
  | none | some key => exact { h with }

lemma Tracked.step (h : b.Tracked s) (hstep : Step codec s t) : b.Tracked t := by
  cases hstep with
  | quiet hq => exact h.quiet hq
  | push data => exact h.shrink (b.pushUnit data h.inv)
  | advance => exact h.shrink (b.nextJob h.inv)
  | showExisting hjob p hp =>
    have hnext := b.nextJob h.inv
    rw [hjob] at hnext
    exact (h.shrink hnext).emit p none
  | decode hjob hfree hdecoding =>
    have hnext := b.nextJob h.inv
    rw [hjob] at hnext
    cases hdecoding with
    | stopped hc => exact (h.shrink hnext).trying hfree hc
    | shown hc p hp hshown => exact ((h.shrink hnext).trying hfree hc).emit p _
  | drain => exact { h with }

lemma Tracked.perform (h : b.Tracked s) {call : Call υ}
    (hcall : perform codec device s call = some t) : b.Tracked t := by
  cases call with
  | decode data timestamp flags =>
    cases hcall
    exact decode_invariant (fun _ _ hstep h => h.step hstep) h data timestamp flags
  | nextPicture =>
    simp only [Video.perform, Session.nextPicture] at hcall
    split at hcall
    · cases hcall
      exact h
    · simp only [Option.map_map, Option.map_eq_some_iff] at hcall
      obtain ⟨p, -, rfl⟩ := hcall
      exact { h with }
  | release id =>
    cases hcall
    have hspec : Ends s (Session.release id) b.Tracked := by
      refine .look ?_
      refine .write b.Tracked (fun _ h' => ?_) ?_
      · subst h'
        exact { h with }
      · exact .either Spec.ret Spec.raise
    exact Spec.state hspec
  | pictureHdr id =>
    cases hcall
    exact h
  | flush =>
    cases hcall
    obtain ⟨hinv, hbound⟩ := b.flush h.inv
    exact ⟨hinv, fun k x hx => h.made k x (hbound k x hx), h.safe⟩

/-- From a codec without bindings every run of a session decodes safely. -/
lemma run_safe (hinv : b.inv c) (hempty : ∀ k x, ¬b.bound c k x) {extra : ℕ} {calls : List (Call υ)}
    (hrun : run (perform codec device) (Session.create codec c extra) calls = some s) :
    b.AllSafe s.attempts := by
  have hstart : b.Tracked (Session.create codec c extra) := by
    refine ⟨hinv, fun k x hx => (hempty k x hx).elim, ?_⟩
    intro before a after heq
    exact absurd heq (by simp [Session.create])
  exact (run_invariant (fun _ _ _ h hcall => h.perform hcall) hstart hrun).safe

end Bindings

end NvidiaProlapse.Video
