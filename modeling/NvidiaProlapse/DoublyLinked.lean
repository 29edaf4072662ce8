import Mathlib.Tactic

/-!
# Intrusive doubly linked lists

Nodes of an arbitrary type carry a `next` and a `prev` pointer, and two pointers
name the ends. `IsList p l` says that the pointers are those of the list `l`.
Unlinking a node by its own two neighbours removes it from the list, and linking
a new node behind the tail appends it; both leave every other pointer alone.
-/
namespace NvidiaProlapse.DoublyLinked
open List

variable {α : Type*}

structure Pointers (α : Type*) where
  head : Option α
  tail : Option α
  next : α → Option α
  prev : α → Option α

namespace Pointers

/-- The same nodes seen from the other end. -/
def swap (p : Pointers α) : Pointers α := ⟨p.tail, p.head, p.prev, p.next⟩

end Pointers

open Pointers

/-- The pointers of `p` are those of `l`. Every way to split the list at a node
gives that node's neighbours. -/
structure IsList (p : Pointers α) (l : List α) : Prop where
  head_eq : p.head = l.head?
  tail_eq : p.tail = l.getLast?
  nodup : l.Nodup
  next_eq : ∀ xs a ys, l = xs ++ a :: ys → p.next a = ys.head?
  prev_eq : ∀ xs a ys, l = xs ++ a :: ys → p.prev a = xs.getLast?

variable {l xs ys : List α} {p : Pointers α} {fuel : ℕ} {a : α}

lemma IsList.swap (h : IsList p l) : IsList p.swap l.reverse := by
  have hsplit : ∀ xs a ys, l.reverse = xs ++ a :: ys → l = ys.reverse ++ a :: xs.reverse := by
    intro xs a ys hl
    have := congrArg reverse hl
    simpa using this
  refine ⟨?_, ?_, nodup_reverse.mpr h.nodup, ?_, ?_⟩
  · simpa [Pointers.swap] using h.tail_eq
  · simpa [Pointers.swap] using h.head_eq
  · intro xs a ys hl
    simpa [Pointers.swap] using h.prev_eq _ _ _ (hsplit xs a ys hl)
  · intro xs a ys hl
    simpa [Pointers.swap] using h.next_eq _ _ _ (hsplit xs a ys hl)

lemma IsList.nil {next prev : α → Option α} : IsList ⟨none, none, next, prev⟩ [] := by
  refine ⟨rfl, rfl, nodup_nil, ?_, ?_⟩ <;> simp

/-- Only the ends and the pointers of the nodes on the list count. -/
lemma IsList.congr {p' : Pointers α} (h : IsList p l) (hhead : p'.head = p.head)
    (htail : p'.tail = p.tail) (hnext : ∀ a ∈ l, p'.next a = p.next a)
    (hprev : ∀ a ∈ l, p'.prev a = p.prev a) : IsList p' l := by
  refine ⟨hhead.trans h.head_eq, htail.trans h.tail_eq, h.nodup, ?_, ?_⟩
  · intro xs a ys hl
    rw [hnext a (by simp [hl])]
    exact h.next_eq xs a ys hl
  · intro xs a ys hl
    rw [hprev a (by simp [hl])]
    exact h.prev_eq xs a ys hl

/-- A node with one behind it is not the last. -/
lemma getLast?_ne_of_nodup {us cs : List α} {b c : α} (hnd : (us ++ b :: c :: cs).Nodup) :
    (us ++ b :: c :: cs).getLast? ≠ some b := by
  intro heq
  have hmem : b ∈ c :: cs := by
    apply mem_of_getLast?
    rw [← heq]
    simp [getLast?_cons]
  exact (nodup_cons.mp (nodup_append.mp hnd).2.1).1 hmem

/-! ## Walks -/

/-- Follow a pointer for at most `fuel` nodes. -/
def walk (follow : α → Option α) : ℕ → Option α → List α
  | 0, _ => []
  | _, none => []
  | fuel + 1, some a => a :: walk follow fuel (follow a)

lemma walk_eq {follow : α → Option α} (hfuel : l.length ≤ fuel)
    (hfollow : ∀ xs a ys, l = xs ++ a :: ys → follow a = ys.head?) :
    walk follow fuel l.head? = l := by
  induction l generalizing fuel with
  | nil => cases fuel <;> rfl
  | cons a l ih =>
    cases fuel with
    | zero => simp at hfuel
    | succ fuel =>
      have hnext : follow a = l.head? := hfollow [] a l rfl
      simp only [head?_cons, walk, hnext]
      rw [ih (by simpa using hfuel) (fun xs b ys hl => hfollow (a :: xs) b ys (by simp [hl]))]

/-- The walk from the head along `next` is the list. -/
lemma IsList.walk_next (h : IsList p l) (hfuel : l.length ≤ fuel) : walk p.next fuel p.head = l := by
  rw [h.head_eq]
  exact walk_eq hfuel h.next_eq

/-- The walk from the tail along `prev` is its reverse. -/
lemma IsList.walk_prev (h : IsList p l)
    (hfuel : l.length ≤ fuel) : walk p.prev fuel p.tail = l.reverse :=
  h.swap.walk_next (by simpa using hfuel)

/-! ## Removal and insertion -/

variable [DecidableEq α]

namespace Pointers

variable (p : Pointers α)

/-- Point what stands before a gap, or the head, to what comes after it. -/
def setNext (before after : Option α) : Pointers α :=
  match before with
  | some b => { p with next := Function.update p.next b after }
  | none => { p with head := after }

/-- Point what stands after a gap, or the tail, back to what comes before it. -/
def setPrev (before after : Option α) : Pointers α :=
  match after with
  | some a => { p with prev := Function.update p.prev a before }
  | none => { p with tail := before }

def join (before after : Option α) : Pointers α :=
  (p.setNext before after).setPrev before after

/-- Link a node behind the tail. -/
def push (a : α) : Pointers α where
  head := (p.setNext p.tail (some a)).head
  tail := some a
  next := Function.update (p.setNext p.tail (some a)).next a none
  prev := Function.update p.prev a p.tail

section

variable (before after : Option α)

include before after

lemma swap_join : (p.join before after).swap = p.swap.join after before := by
  cases before <;> cases after <;> rfl

@[simp] lemma prev_setNext : (p.setNext before after).prev = p.prev := by
  cases before <;> rfl

lemma head_join_eq : (p.join before after).head = (p.setNext before after).head := by
  cases after <;> rfl

lemma next_join_eq : (p.join before after).next = (p.setNext before after).next := by
  cases after <;> rfl

end

end Pointers

section

variable (h : IsList p (xs ++ a :: ys))

include h

lemma head_join : (p.join xs.getLast? ys.head?).head = (xs ++ ys).head? := by
  rw [head_join_eq]
  cases xs with
  | nil => rfl
  | cons x xs =>
    have hlast : ((x :: xs).getLast?).isSome := by simp
    obtain ⟨t, ht⟩ := Option.isSome_iff_exists.mp hlast
    simp only [Pointers.setNext, ht]
    simpa using h.head_eq

lemma next_join (us : List α) (b : α) (vs : List α) (hsplit : xs ++ ys = us ++ b :: vs) :
    (p.join xs.getLast? ys.head?).next b = vs.head? := by
  have hnodup : (xs ++ ys).Nodup := h.nodup.sublist (by simp)
  have hother : xs.getLast? ≠ some b → (p.join xs.getLast? ys.head?).next b = p.next b := by
    intro hne
    rw [next_join_eq]
    cases hlast : xs.getLast? with
    | none => rfl
    | some t =>
      have hb : b ≠ t := fun heq => hne (by rw [hlast, heq])
      simp [Pointers.setNext, hb]
  rcases append_eq_append_iff.mp hsplit with ⟨c, hus, hys⟩ | ⟨c, hxs, hbs⟩
  · have hb : b ∉ xs := by
      intro hmem
      exact (disjoint_of_nodup_append hnodup) hmem (by simp [hys])
    rw [hother (fun hlast => hb (mem_of_getLast? hlast))]
    exact h.next_eq (xs ++ a :: c) b vs (by simp [hys])
  · cases c with
    | nil =>
      simp only [nil_append] at hbs
      have hb : b ∉ xs := by
        intro hmem
        exact (disjoint_of_nodup_append hnodup) hmem (by simp [← hbs])
      rw [hother (fun hlast => hb (mem_of_getLast? hlast))]
      exact h.next_eq (xs ++ [a]) b vs (by simp [← hbs])
    | cons c cs =>
      obtain ⟨rfl, rfl⟩ := hbs
      cases cs with
      | nil =>
        have hlast : xs.getLast? = some b := by simp [hxs]
        rw [next_join_eq]
        simp [Pointers.setNext, hlast]
      | cons c cs =>
        have hnd : (us ++ b :: c :: cs).Nodup := by
          rw [← hxs]
          exact (nodup_append.mp hnodup).1
        have hlast : xs.getLast? ≠ some b := by
          rw [hxs]
          exact getLast?_ne_of_nodup hnd
        rw [hother hlast]
        simpa using h.next_eq us b (c :: cs ++ a :: ys) (by simp [hxs])

lemma IsList.remove_join : IsList (p.join xs.getLast? ys.head?) (xs ++ ys) := by
  have hswap : IsList p.swap (ys.reverse ++ a :: xs.reverse) := by simpa using h.swap
  refine ⟨head_join h, ?_, h.nodup.sublist (by simp), next_join h, ?_⟩
  · have := head_join hswap
    rw [getLast?_reverse, head?_reverse, ← swap_join] at this
    have hlast : (xs ++ ys).getLast? = (ys.reverse ++ xs.reverse).head? := by
      rw [← reverse_append, head?_reverse]
    rw [hlast]
    exact this
  · intro us b vs hsplit
    have hrev : ys.reverse ++ xs.reverse = vs.reverse ++ b :: us.reverse := by
      have := congrArg reverse hsplit
      simpa using this
    have := next_join hswap vs.reverse b us.reverse hrev
    rw [getLast?_reverse, head?_reverse, head?_reverse, ← swap_join] at this
    exact this

/-- Joining the neighbours of a node takes it off the list, whatever became of the
node's own pointers. -/
lemma IsList.remove {p' : Pointers α} (hhead : p'.head = p.head) (htail : p'.tail = p.tail)
    (hnext : ∀ b, b ≠ a → p'.next b = p.next b) (hprev : ∀ b, b ≠ a → p'.prev b = p.prev b) :
    IsList (p'.join xs.getLast? ys.head?) (xs ++ ys) := by
  have hsame : ∀ b ∈ xs ++ ys, p'.next b = p.next b ∧ p'.prev b = p.prev b := by
    intro b hb
    have hne : b ≠ a := by
      rintro rfl
      exact (nodup_cons.mp (nodup_middle.mp h.nodup)).1 hb
    exact ⟨hnext b hne, hprev b hne⟩
  refine h.remove_join.congr ?_ ?_ (fun b hb => ?_) fun b hb => ?_
  · cases xs.getLast? <;> cases ys.head? <;> simp [Pointers.join, setNext, setPrev, hhead]
  · cases xs.getLast? <;> cases ys.head? <;> simp [Pointers.join, setNext, setPrev, htail]
  all_goals
    cases xs.getLast? <;> cases ys.head? <;>
      simp [Pointers.join, setNext, setPrev, Function.update_apply, hsame b hb]

end

lemma IsList.push (h : IsList p l) (ha : a ∉ l) : IsList (p.push a) (l ++ [a]) := by
  refine ⟨?_, by simp [Pointers.push], ?_, ?_, ?_⟩
  · cases l with
    | nil =>
      have htail : p.tail = none := h.tail_eq
      simp [Pointers.push, Pointers.setNext, htail]
    | cons x xs =>
      obtain ⟨t, ht⟩ : ∃ t, p.tail = some t := by
        rw [h.tail_eq]
        exact Option.isSome_iff_exists.mp (by simp)
      simp only [Pointers.push, Pointers.setNext, ht]
      simpa using h.head_eq
  · rw [nodup_append]
    refine ⟨h.nodup, nodup_singleton a, fun b hb => ?_⟩
    rw [forall_mem_singleton]
    exact fun heq => ha (heq ▸ hb)
  · intro us b vs hsplit
    rcases eq_nil_or_concat vs with rfl | ⟨ws, c, rfl⟩
    · have hb : a = b := by
        have := congrArg getLast? hsplit
        simpa using this
      subst hb
      simp [Pointers.push]
    · have hlast : l ++ [a] = (us ++ b :: ws) ++ [c] := by simpa using hsplit
      obtain ⟨hl, hc⟩ := append_inj' hlast rfl
      simp only [cons.injEq, and_true] at hc
      subst hc
      have hba : b ≠ a := fun heq => ha (by simp [hl, heq])
      have hnext := h.next_eq us b ws hl
      have htail := h.tail_eq
      cases ws with
      | nil =>
        have ht : p.tail = some b := by simp [htail, hl]
        simp [Pointers.push, Pointers.setNext, ht, hba]
      | cons w ws =>
        have hbt : p.tail ≠ some b := by
          have hnd := h.nodup
          rw [hl] at hnd
          rw [htail, hl]
          exact getLast?_ne_of_nodup hnd
        cases ht : p.tail with
        | none => simp [Pointers.push, Pointers.setNext, ht, hba, hnext]
        | some t =>
          have hne : b ≠ t := fun heq => hbt (by rw [ht, heq])
          simp [Pointers.push, Pointers.setNext, ht, hba, hne, hnext]
  · intro us b vs hsplit
    rcases eq_nil_or_concat vs with rfl | ⟨ws, c, rfl⟩
    · obtain ⟨hl, hb⟩ := append_inj' hsplit rfl
      simp only [cons.injEq, and_true] at hb
      subst hb
      simp [Pointers.push, h.tail_eq, hl]
    · have hlast : l ++ [a] = (us ++ b :: ws) ++ [c] := by simpa using hsplit
      obtain ⟨hl, hc⟩ := append_inj' hlast rfl
      have hba : b ≠ a := fun heq => ha (by simp [hl, heq])
      simp [Pointers.push, hba, h.prev_eq us b ws hl]

end NvidiaProlapse.DoublyLinked
