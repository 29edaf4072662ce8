import Mathlib.Tactic

/-!
# Reference counts and their owners

A pool counts references to its resources and keeps the unreferenced ones on a
stack. `Balanced` compares the counts with a multiset of owners, in which a
resource occurs once for every reference somebody holds.
-/
namespace NvidiaProlapse.References
open List

variable {α : Type*} [DecidableEq α]

/-- Every reference has its owner, and the free stack holds each resource without
owner once. -/
structure Balanced (usable : α → Prop) (refs : α → ℕ) (free : List α) (owners : Multiset α) :
    Prop where
  count : ∀ a, refs a = owners.count a
  nodup : free.Nodup
  mem_free : ∀ a, a ∈ free ↔ usable a ∧ a ∉ owners
  owned : ∀ a ∈ owners, usable a

variable {usable : α → Prop} {refs : α → ℕ} {free : List α} {owners : Multiset α} {a : α}

/-- A fresh reference to the resource on top of the stack. -/
lemma Balanced.take (h : Balanced usable refs (a :: free) owners) :
    Balanced usable (Function.update refs a 1) free (a ::ₘ owners) ∧ a ∉ owners := by
  obtain ⟨hfresh, hnodup⟩ := nodup_cons.mp h.nodup
  obtain ⟨husable, hnot⟩ := (h.mem_free a).mp mem_cons_self
  refine ⟨⟨?_, hnodup, ?_, ?_⟩, hnot⟩
  · intro b
    by_cases hb : b = a
    · subst hb
      simp [Multiset.count_eq_zero_of_notMem hnot]
    · rw [Function.update_of_ne hb, Multiset.count_cons_of_ne hb]
      exact h.count b
  · intro b
    have hmem := h.mem_free b
    by_cases hb : b = a
    · subst hb
      simp [hfresh]
    · simpa [hb] using hmem
  · intro b hb
    rcases Multiset.mem_cons.mp hb with rfl | hb
    · exact husable
    · exact h.owned b hb

lemma Balanced.retain (h : Balanced usable refs free owners) (ha : a ∈ owners) :
    Balanced usable (Function.update refs a (refs a + 1)) free (a ::ₘ owners) := by
  refine ⟨?_, h.nodup, ?_, ?_⟩
  · intro b
    by_cases hb : b = a
    · subst hb
      simp [h.count b]
    · rw [Function.update_of_ne hb, Multiset.count_cons_of_ne hb]
      exact h.count b
  · intro b
    rw [h.mem_free b]
    by_cases hb : b = a
    · subst hb
      simp [ha]
    · simp [hb]
  · intro b hb
    rcases Multiset.mem_cons.mp hb with rfl | hb
    · exact h.owned b ha
    · exact h.owned b hb

/-- The last reference returns the resource to the stack. -/
lemma Balanced.release (h : Balanced usable refs free (a ::ₘ owners)) :
    Balanced usable (Function.update refs a (refs a - 1))
      (if refs a = 1 then a :: free else free) owners := by
  have hcount : refs a = owners.count a + 1 := by
    rw [h.count a, Multiset.count_cons_self]
  have hnotfree : a ∉ free := by
    intro hfree
    exact ((h.mem_free a).mp hfree).2 (Multiset.mem_cons_self a owners)
  have hmem : refs a = 1 ↔ a ∉ owners := by
    rw [hcount, ← Multiset.count_eq_zero]
    omega
  constructor
  · intro b
    by_cases hb : b = a
    · subst hb
      rw [Function.update_self]
      omega
    · rw [Function.update_of_ne hb, h.count b, Multiset.count_cons_of_ne hb]
  · split_ifs
    · exact nodup_cons.mpr ⟨hnotfree, h.nodup⟩
    · exact h.nodup
  · intro b
    have hb' := h.mem_free b
    by_cases hb : b = a
    · subst hb
      have husable := h.owned b (Multiset.mem_cons_self b owners)
      split_ifs with h1
      · simp [husable, hmem.mp h1]
      · simp [hnotfree, Classical.not_not.mp (mt hmem.mpr h1)]
    · have hstack : b ∈ (if refs a = 1 then a :: free else free) ↔ b ∈ free := by
        split_ifs <;> simp [hb]
      rw [hstack, hb']
      simp [hb]
  · intro b hb
    exact h.owned b (Multiset.mem_cons_of_mem hb)

/-- New resources go on top of the stack. -/
lemma Balanced.install {usable' : α → Prop} {fresh : List α}
    (h : Balanced usable refs free owners) (hnodup : fresh.Nodup)
    (hfresh : ∀ b ∈ fresh, ¬ usable b) (husable : ∀ b, usable' b ↔ b ∈ fresh ∨ usable b) :
    Balanced usable' refs (fresh ++ free) owners := by
  have hnot : ∀ b ∈ fresh, b ∉ owners := fun b hb ho => hfresh b hb (h.owned b ho)
  refine ⟨h.count, ?_, ?_, ?_⟩
  · refine nodup_append'.mpr ⟨hnodup, h.nodup, ?_⟩
    intro b hb hfree
    exact hfresh b hb ((h.mem_free b).mp hfree).1
  · intro b
    rw [mem_append, h.mem_free b, husable b]
    constructor
    · rintro (hb | hb)
      · exact ⟨.inl hb, hnot b hb⟩
      · exact ⟨.inr hb.1, hb.2⟩
    · rintro ⟨hb | hb, ho⟩
      · exact .inl hb
      · exact .inr ⟨hb, ho⟩
  · intro b hb
    exact (husable b).mpr (.inr (h.owned b hb))

/-- Owners listed by the objects of a table: replacing one object exchanges what it
owns. -/
lemma sum_set {β M : Type*} [AddCommMonoid M] (owns : β → M) {table : List β} {i : ℕ} {x : β}
    (y : β) (hx : table[i]? = some x) :
    ((table.set i y).map owns).sum + owns x = (table.map owns).sum + owns y := by
  induction table generalizing i with
  | nil => simp at hx
  | cons z table ih =>
    cases i with
    | zero =>
      simp only [getElem?_cons_zero, Option.some.injEq] at hx
      subst hx
      simp only [set_cons_zero, map_cons, sum_cons]
      abel
    | succ i =>
      have hrest := ih (i := i) (by simpa using hx)
      simp only [set_cons_succ, map_cons, sum_cons, add_assoc, hrest]

end NvidiaProlapse.References
