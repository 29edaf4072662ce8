import NvidiaProlapse.DeviceCore

/-!
# What allocating a slot changes

An allocation asks for pool pages and pops a free slot. It changes the pool, the
number of requests and the history of allocations, and nothing else of the device.
The words of a slot are kept or cleared.
-/
namespace NvidiaProlapse.Core
open Programs Function

/-- Only the pool, the requests and the allocation history differ. -/
structure Allocates (s t : Core) : Prop where
  rest : t = { s with pool := t.pool, taken := t.taken, requests := t.requests }
  taken : ∀ slot, s.taken slot ≤ t.taken slot
  words : ∀ slot, t.pool.words slot = s.pool.words slot ∨ t.pool.words slot = ⟨0, 0⟩

variable {kernel : Kernel} {s t u : Core}

lemma Allocates.refl (s : Core) : Allocates s s := ⟨rfl, fun _ => le_rfl, fun _ => .inl rfl⟩

lemma Allocates.trans (h : Allocates s t) (h' : Allocates t u) : Allocates s u := by
  refine ⟨?_, fun slot => (h.taken slot).trans (h'.taken slot), ?_⟩
  · rw [h'.rest, h.rest]
  intro slot
  rcases h'.words slot with hsame | hzero
  · rw [hsame]
    exact h.words slot
  · exact .inr hzero

/-! ## Steps of an allocation -/

section

variable {inv : Core → Prop} {found : Slot → Core → Prop}
  (hasked : ∀ t, inv t → inv { t with requests := t.requests + 1 })

include hasked

lemma request_spec {α : Type} (answer : ℕ → Result α) : Keeps inv (request answer) := by
  apply Spec.read
  intro t ht
  refine .write inv ?_ (.of_outcome (fun _ _ h _ => h) fun _ _ h _ => h)
  rintro _ rfl
  exact hasked t ht

variable (hpage : ∀ t cpu gpu pool, inv t → t.pool.installPage cpu gpu = .ok pool →
    inv { t with pool := pool })

include hpage

lemma grow_spec : Keeps inv (grow kernel) := by
  apply Spec.read
  intro t ht
  refine .guarded ht fun _ => ?_
  refine .seq ((request_spec hasked kernel.page).enter ht) ?_
  rintro ⟨cpu, gpu⟩
  refine .either Spec.raise ?_
  apply Spec.read
  intro u hu
  refine .given hu ?_
  intro pool hinstall
  apply Spec.change
  exact hpage u cpu gpu pool hu hinstall

lemma slot_spec (hpopped : ∀ t slot pool, inv t → t.pool.tryAllocate = some (slot, pool) →
      found slot { t with pool := pool, taken := update t.taken slot (t.taken slot + 1) }) :
    Spec inv (Core.slot kernel) found fun _ => inv := by
  have htry : Spec inv tryAllocate (fun got t => got.elim (inv t) fun slot => found slot t)
      fun _ => inv := by
    apply Spec.read
    intro t ht
    cases halloc : t.pool.tryAllocate with
    | none => exact .unchanged ht
    | some out => exact .last (hpopped t out.1 out.2 ht halloc)
  refine .seq htry ?_
  intro got
  cases got with
  | some slot => exact .of_pure fun _ h => h
  | none =>
    refine .next (grow_spec hasked hpage) (.seq htry ?_)
    intro got
    cases got with
    | some slot => exact .of_pure fun _ h => h
    | none => exact .of_throw fun _ h => h

end

lemma Allocates.asked (h : Allocates s t) : Allocates s { t with requests := t.requests + 1 } :=
  h.trans ⟨rfl, fun _ => le_rfl, fun _ => .inl rfl⟩

lemma request_allocates {α : Type} (answer : ℕ → Result α) : Keeps (Allocates s) (request answer) :=
  request_spec (fun _ ht => ht.asked) answer

lemma slot_allocates :
    Spec (Allocates s) (Core.slot kernel)
      (fun fresh t => Allocates s t ∧ s.taken fresh < t.taken fresh) fun _ => Allocates s := by
  refine slot_spec (fun _ ht => ht.asked) ?_ ?_
  · intro t cpu gpu pool ht hinstall
    refine ht.trans ⟨rfl, fun _ => le_rfl, fun slot => .inl ?_⟩
    unfold SlotPool.installPage at hinstall
    split_ifs at hinstall
    cases hinstall
    rfl
  intro t fresh pool ht halloc
  constructor
  · refine ht.trans ⟨rfl, ?_, ?_⟩
    · intro other
      by_cases hother : other = fresh
      · subst hother
        simp
      · simp [hother]
    · intro other
      unfold SlotPool.tryAllocate at halloc
      split at halloc
      · cases halloc
      cases halloc
      by_cases hother : other = fresh
      · subst hother
        exact .inr (update_self ..)
      · exact .inl (update_of_ne hother ..)
  · show _ < update t.taken fresh (t.taken fresh + 1) fresh
    rw [update_self]
    exact Nat.lt_succ_of_le (ht.taken fresh)

end NvidiaProlapse.Core
