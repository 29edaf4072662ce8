import Mathlib.Tactic

/-!
# A queue of batches executed in submission order

Batches are lists of commands. A batch is given the next token when it is submitted, and the
queue executes whole batches, oldest first, on one state that all submitters share.
`settled` is that state once everything submitted has run.
-/
namespace NvidiaProlapse.BatchQueue
open List

variable {κ : Type*} {χ : Type*}

structure Batch (κ : Type*) where
  token : ℕ
  commands : List κ

structure Queue (κ : Type*) (χ : Type*) where
  state : χ
  waiting : List (Batch κ) := []
  issued : ℕ := 0
  done : ℕ := 0

namespace Queue

def submit (q : Queue κ χ) (commands : List κ) : Queue κ χ :=
  { q with waiting := q.waiting ++ [⟨q.issued + 1, commands⟩], issued := q.issued + 1 }

section
variable (exec : χ → κ → χ)

/-- Execute the waiting batches with tokens up to `t`. -/
def drain (t : ℕ) : List (Batch κ) → Queue κ χ → Queue κ χ
  | [], q => { q with waiting := [] }
  | batch :: rest, q =>
    if batch.token ≤ t then
      drain t rest { q with state := batch.commands.foldl exec q.state, done := batch.token }
    else { q with waiting := batch :: rest }

/-- Return when the token is done. -/
def wait (q : Queue κ χ) (t : ℕ) : Queue κ χ := drain exec t q.waiting q

/-- The state when everything submitted has run. -/
def settled (q : Queue κ χ) : χ := q.waiting.foldl (fun x batch => batch.commands.foldl exec x) q.state

end

/-- Tokens grow along the queue, from the last one done to the last one issued. -/
structure Ordered (q : Queue κ χ) : Prop where
  sorted : q.waiting.Pairwise fun a b => a.token < b.token
  later : ∀ batch ∈ q.waiting, q.done < batch.token
  issued : ∀ batch ∈ q.waiting, batch.token ≤ q.issued
  done : q.done ≤ q.issued

variable {exec : χ → κ → χ}

@[simp] lemma settled_submit (q : Queue κ χ) (commands : List κ) :
    (q.submit commands).settled exec = commands.foldl exec (q.settled exec) := by
  simp [settled, submit]

lemma settled_drain (t : ℕ) (waiting : List (Batch κ)) (q : Queue κ χ) :
    (drain exec t waiting q).settled exec = settled exec { q with waiting := waiting } := by
  induction waiting generalizing q with
  | nil => rfl
  | cons batch rest ih =>
    rw [drain]
    split
    · exact ih _
    · rfl

@[simp] lemma settled_wait (q : Queue κ χ) (t : ℕ) : (q.wait exec t).settled exec = q.settled exec :=
  settled_drain t q.waiting q

variable {q : Queue κ χ}

lemma Ordered.submit (h : q.Ordered) (commands : List κ) : (q.submit commands).Ordered where
  sorted := by
    refine pairwise_append.mpr ⟨h.sorted, pairwise_singleton _ _, fun batch hbatch => ?_⟩
    rw [forall_mem_singleton]
    exact Nat.lt_succ_of_le (h.issued batch hbatch)
  later := by
    exact forall_mem_append.mpr ⟨h.later, forall_mem_singleton.mpr (Nat.lt_succ_of_le h.done)⟩
  issued := by
    exact forall_mem_append.mpr ⟨fun batch hold => Nat.le_succ_of_le (h.issued batch hold),
      forall_mem_singleton.mpr le_rfl⟩
  done := Nat.le_succ_of_le h.done

/-- Waiting keeps the order and leaves batches with later tokens only. -/
lemma drain_ordered (t : ℕ) {waiting : List (Batch κ)} (h : Ordered { q with waiting := waiting }) :
    (drain exec t waiting q).Ordered ∧ (drain exec t waiting q).issued = q.issued ∧
      ∀ batch ∈ (drain exec t waiting q).waiting, batch ∈ waiting ∧ t < batch.token := by
  induction waiting generalizing q with
  | nil => exact ⟨h, rfl, nofun⟩
  | cons batch rest ih =>
    obtain ⟨hfirst, hrest⟩ := pairwise_cons.mp h.sorted
    rw [drain]
    split
    · have hnext : Ordered { q with
          state := batch.commands.foldl exec q.state, done := batch.token, waiting := rest } :=
        ⟨hrest, hfirst, fun b hb => h.issued b (mem_cons_of_mem _ hb), h.issued batch mem_cons_self⟩
      obtain ⟨hord, hissued, hleft⟩ := ih (q := { q with
        state := batch.commands.foldl exec q.state, done := batch.token }) hnext
      exact ⟨hord, hissued, fun b hb => ⟨mem_cons_of_mem _ (hleft b hb).1, (hleft b hb).2⟩⟩
    · rename_i hgt
      refine ⟨h, rfl, fun b hb => ⟨hb, ?_⟩⟩
      rcases mem_cons.mp hb with rfl | hb
      · exact Nat.lt_of_not_le hgt
      · exact (Nat.lt_of_not_le hgt).trans (hfirst b hb)

lemma Ordered.wait (h : q.Ordered) (t : ℕ) : (q.wait exec t).Ordered :=
  (drain_ordered t h).1

lemma issued_wait (h : q.Ordered) (t : ℕ) : (q.wait exec t).issued = q.issued :=
  (drain_ordered t h).2.1

lemma mem_waiting_wait (h : q.Ordered) {t : ℕ} {batch : Batch κ}
    (hbatch : batch ∈ (q.wait exec t).waiting) : batch ∈ q.waiting ∧ t < batch.token :=
  (drain_ordered t h).2.2 batch hbatch

/-- What no command of a batch writes, the batch leaves. -/
lemma foldl_view {β : Type*} (view : χ → β) {commands : List κ}
    (h : ∀ command ∈ commands, ∀ x, view (exec x command) = view x) (x : χ) :
    view (commands.foldl exec x) = view x := by
  induction commands generalizing x with
  | nil => rfl
  | cons command commands ih =>
    rw [foldl_cons, ih (fun c hc => h c (mem_cons_of_mem _ hc))]
    exact h command mem_cons_self x

/-- What no waiting command writes is already settled. -/
lemma settled_view {β : Type*} (view : χ → β)
    (h : ∀ batch ∈ q.waiting, ∀ command ∈ batch.commands, ∀ x, view (exec x command) = view x) :
    view (q.settled exec) = view q.state := by
  obtain ⟨state, waiting, issued, done⟩ := q
  induction waiting generalizing state with
  | nil => rfl
  | cons batch rest ih =>
    refine (ih _ fun b hb => h b (mem_cons_of_mem _ hb)).trans ?_
    exact foldl_view view (h batch mem_cons_self) state

end Queue
end NvidiaProlapse.BatchQueue
