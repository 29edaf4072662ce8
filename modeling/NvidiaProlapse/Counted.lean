import Mathlib.Tactic

/-!
# Counters of the threads in a range of control points

A counter that every thread increments on entry to a range and decrements on
exit is the number of threads in the range. Threads are unbounded in number, but
only finitely many are ever in the range.
-/
namespace NvidiaProlapse

/-- Exactly `n` elements satisfy the test. -/
def Counted {α : Type*} (test : α → Bool) (n : ℕ) : Prop :=
  ∃ A : Finset α, (∀ i, i ∈ A ↔ test i = true) ∧ A.card = n

namespace Counted

variable {α : Type*} {test test' : α → Bool} {n n' : ℕ}

lemma none {test : α → Bool} (h : ∀ i, test i = false) : Counted test 0 :=
  ⟨∅, by simp [h], rfl⟩

lemma pos (h : Counted test n) {i : α} (hi : test i = true) : 0 < n := by
  obtain ⟨A, hA, hcard⟩ := h
  rw [← hcard]
  exact Finset.card_pos.mpr ⟨i, (hA i).mpr hi⟩

/-- One element changes sides and the counter follows it. -/
lemma update [DecidableEq α] (h : Counted test n) {i : α} (hother : ∀ j, j ≠ i → test' j = test j)
    (hcount : n' + (test i).toNat = n + (test' i).toNat) : Counted test' n' := by
  obtain ⟨A, hA, rfl⟩ := h
  cases hnew : test' i with
  | false =>
    refine ⟨A.erase i, fun j => ?_, ?_⟩
    · by_cases hj : j = i
      · simp [hj, hnew]
      · simp [hj, hA, hother j hj]
    · rw [Finset.card_erase_eq_ite]
      split_ifs with hi
      all_goals
        rw [hA] at hi
        simp [hi, hnew] at hcount
        omega
  | true =>
    refine ⟨insert i A, fun j => ?_, ?_⟩
    · by_cases hj : j = i
      · simp [hj, hnew]
      · simp [hj, hA, hother j hj]
    · rw [Finset.card_insert_eq_ite]
      split_ifs with hi
      all_goals
        rw [hA] at hi
        simpa [hi, hnew] using hcount.symm

end Counted

end NvidiaProlapse
