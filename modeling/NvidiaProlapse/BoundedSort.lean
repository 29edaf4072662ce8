import Mathlib.Tactic
import Mathlib.Data.List.Sort

/-!
# Sorting a stream with a bounded buffer

Each element is put into a sorted buffer, and elements leave the front while the buffer
is longer than a bound. If no element has more than `bound` larger ones before it, then
the elements leave in order.
-/
namespace NvidiaProlapse.BoundedSort
open List

variable {α : Type*} (r : α → α → Prop) [DecidableRel r]

structure State (α : Type*) where
  buffer : List α
  out : List α

def push (bound : ℕ) (s : State α) (x : α) : State α :=
  let sorted := (s.buffer ++ [x]).insertionSort r
  ⟨sorted.drop (sorted.length - bound), s.out ++ sorted.take (sorted.length - bound)⟩

def pushes (bound : ℕ) (xs : List α) : State α := xs.foldl (push r bound) ⟨[], []⟩

/-- Everything is in the output or in the buffer. -/
lemma push_perm (bound : ℕ) (s : State α) (x : α) :
    ((push r bound s x).out ++ (push r bound s x).buffer).Perm (s.out ++ s.buffer ++ [x]) := by
  simp only [push, append_assoc, take_append_drop]
  exact (perm_insertionSort r _).append_left s.out

lemma foldl_push_perm (bound : ℕ) (xs : List α) (s : State α) :
    ((xs.foldl (push r bound) s).out ++ (xs.foldl (push r bound) s).buffer).Perm
      (s.out ++ s.buffer ++ xs) := by
  induction xs generalizing s with
  | nil => simp
  | cons x xs ih =>
    refine (ih (push r bound s x)).trans ?_
    simpa using (push_perm r bound s x).append_right xs

lemma pushes_perm (bound : ℕ) (xs : List α) :
    ((pushes r bound xs).out ++ (pushes r bound xs).buffer).Perm xs := by
  simpa [pushes] using foldl_push_perm r bound xs ⟨[], []⟩

/-- Output and buffer are in order, and each element that left was one of more than
`bound` elements not below it. -/
structure Ordered (bound : ℕ) (seen : List α) (s : State α) : Prop where
  sorted : (s.out ++ s.buffer).Pairwise r
  perm : (s.out ++ s.buffer).Perm seen
  full : ∀ o ∈ s.out, bound < seen.countP (r o ·)

variable [IsTrans α r] {r} {bound : ℕ} {seen : List α} {s : State α} {x : α}

/-- An element with few larger ones before it is not below anything that left. -/
lemma Ordered.out_le (hs : Ordered r bound seen s) (hx : seen.countP (¬ r · x) ≤ bound) :
    ∀ o ∈ s.out, r o x := by
  intro o ho
  by_contra hlt
  have hcount : seen.countP (r o ·) ≤ seen.countP (¬ r · x) := by
    apply countP_mono_left
    intro y _ hy
    simp only [decide_eq_true_eq] at hy ⊢
    exact fun hyx => hlt (IsTrans.trans o y x hy hyx)
  have := hs.full o ho
  omega

variable [Std.Total r]

lemma Ordered.push (hs : Ordered r bound seen s) (hx : seen.countP (¬ r · x) ≤ bound) :
    Ordered r bound (seen ++ [x]) (push r bound s x) := by
  have hperm : ((BoundedSort.push r bound s x).out ++ (BoundedSort.push r bound s x).buffer).Perm
      (seen ++ [x]) := (push_perm r bound s x).trans (hs.perm.append_right [x])
  have hout := hs.out_le hx
  obtain ⟨hos, hbs, hob⟩ := pairwise_append.mp hs.sorted
  set sorted := (s.buffer ++ [x]).insertionSort r with hsorted
  have hbuffer : sorted.Pairwise r := pairwise_insertionSort r _
  refine ⟨?_, hperm, ?_⟩
  · show ((s.out ++ sorted.take _) ++ sorted.drop _).Pairwise r
    rw [append_assoc, take_append_drop]
    refine pairwise_append.mpr ⟨hos, hbuffer, ?_⟩
    intro o ho y hy
    rcases mem_append.mp ((perm_insertionSort r _).mem_iff.mp hy) with hy | hy
    · exact hob o ho y hy
    · rw [mem_singleton.mp hy]
      exact hout o ho
  · intro o ho
    rcases mem_append.mp ho with ho | ho
    · have := hs.full o ho
      rw [countP_append]
      omega
    · -- What stays in the buffer is not below `o`, and neither is `o` itself.
      have hlength : 0 < sorted.length - bound := by
        by_contra hzero
        rw [show sorted.length - bound = 0 by omega, take_zero] at ho
        cases ho
      have hself : 0 < (sorted.take (sorted.length - bound)).countP (r o ·) := by
        rw [countP_pos_iff]
        exact ⟨o, ho, by simpa using refl_of r o⟩
      have hrest : (sorted.drop (sorted.length - bound)).countP (r o ·) = bound := by
        rw [countP_eq_length.mpr, length_drop]
        · omega
        · intro y hy
          rw [← take_append_drop (sorted.length - bound) sorted] at hbuffer
          simpa using (pairwise_append.mp hbuffer).2.2 o ho y hy
      rw [← hperm.countP_eq]
      show bound < ((s.out ++ sorted.take (sorted.length - bound)) ++
        sorted.drop (sorted.length - bound)).countP _
      rw [countP_append, countP_append]
      omega

lemma pushes_ordered {xs : List α}
    (h : ∀ before x after, xs = before ++ x :: after → before.countP (¬ r · x) ≤ bound) :
    Ordered r bound xs (pushes r bound xs) := by
  induction xs using reverseRecOn with
  | nil => exact ⟨List.Pairwise.nil, List.Perm.refl _, by simp [pushes]⟩
  | append_singleton xs x ih =>
    unfold pushes
    rw [foldl_append]
    refine (ih ?_).push (h xs x [] rfl)
    intro before y after hxs
    exact h before y (after ++ [x]) (by simp [hxs])

end NvidiaProlapse.BoundedSort
