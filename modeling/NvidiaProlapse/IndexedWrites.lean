import Mathlib.Tactic

/-!
# Writes into a list by position

A table is filled by writes `(position, value)`, in order. A position holds what was written
to it if all writes to it agree, and what it held before if there are none.
-/
namespace NvidiaProlapse.IndexedWrites
open List

variable {α : Type*} {writes : List (ℕ × α)} {l : List α} {i : ℕ} {x : α}

def writeAll (writes : List (ℕ × α)) (l : List α) : List α :=
  writes.foldl (fun l w => l.set w.1 w.2) l

@[simp] lemma writeAll_cons (w : ℕ × α) (writes : List (ℕ × α)) (l : List α) :
    writeAll (w :: writes) l = writeAll writes (l.set w.1 w.2) := rfl

lemma getElem?_writeAll_of_notMem (h : ∀ y, (i, y) ∉ writes) : (writeAll writes l)[i]? = l[i]? := by
  induction writes generalizing l with
  | nil => rfl
  | cons w writes ih =>
    rw [writeAll_cons, ih fun y hy => h y (mem_cons_of_mem _ hy)]
    refine getElem?_set_ne ?_
    rintro rfl
    exact h w.2 mem_cons_self

lemma getElem?_writeAll (hmem : (i, x) ∈ writes) (hagree : ∀ y, (i, y) ∈ writes → y = x)
    (hi : i < l.length) : (writeAll writes l)[i]? = some x := by
  induction writes generalizing l with
  | nil => cases hmem
  | cons w writes ih =>
    have hrest : ∀ y, (i, y) ∈ writes → y = x := fun y hy => hagree y (mem_cons_of_mem _ hy)
    rw [writeAll_cons]
    by_cases hlater : ∃ y, (i, y) ∈ writes
    · obtain ⟨y, hy⟩ := hlater
      exact ih (hrest y hy ▸ hy) hrest (by simpa using hi)
    · -- the last write to the position is the first of the list
      have hfirst : (i, x) = w := by
        rcases mem_cons.mp hmem with h | h
        · exact h
        · exact absurd ⟨x, h⟩ hlater
      subst hfirst
      rw [getElem?_writeAll_of_notMem fun y hy => hlater ⟨y, hy⟩]
      exact getElem?_set_self hi

lemma mem_writeAll (h : x ∈ writeAll writes l) : x ∈ l ∨ ∃ i, (i, x) ∈ writes := by
  induction writes generalizing l with
  | nil => exact .inl h
  | cons w writes ih =>
    rcases ih h with hset | ⟨i, hi⟩
    · rcases mem_or_eq_of_mem_set hset with hl | rfl
      · exact .inl hl
      · exact .inr ⟨w.1, mem_cons_self⟩
    · exact .inr ⟨i, mem_cons_of_mem _ hi⟩

end NvidiaProlapse.IndexedWrites
