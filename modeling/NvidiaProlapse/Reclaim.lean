import NvidiaProlapse.QueueCompletion

/-!
# Deferred reclamation

`Reclaim` is the queue of reclaim.rs: groups, their snapshots and their items in
three flattened deques, here lists with the front first. The runs below are those
of the bridge: submissions and frees hold its lock, and the GPU completes work
between any two looks at a queue that the lock holder takes.
-/
namespace NvidiaProlapse
open List

structure Reclaim (ι : Type) where
  groups : List (ℕ × ℕ)
  tokens : List (ℕ × ℕ)
  items : List ι
  opened : ℕ
  deriving DecidableEq, Repr

namespace Reclaim

variable {ι : Type}

def empty : Reclaim ι where
  groups := []
  tokens := []
  items := []
  opened := 0

def isEmpty (r : Reclaim ι) : Bool := r.groups.isEmpty

/-- Record the snapshot of a new group and return how many tokens it has. -/
def begin (r : Reclaim ι) (snapshot : List (ℕ × ℕ)) : ℕ × Reclaim ι :=
  (snapshot.length, { r with tokens := r.tokens ++ snapshot, opened := snapshot.length })

/-- Close the group opened by a non-zero `begin` with its items. -/
def commit (r : Reclaim ι) (items : List ι) : Reclaim ι where
  groups := r.groups ++ [(r.opened, items.length)]
  tokens := r.tokens
  items := r.items ++ items
  opened := 0

/-- The items of the oldest group if every token of its snapshot is retired. -/
def popRetired (r : Reclaim ι) (force : Bool) (retired : ℕ → ℕ → Bool) :
    Option (List ι × Reclaim ι) :=
  match r.groups with
  | [] => none
  | (tokens, items) :: groups =>
    if !force && !(r.tokens.take tokens).all (fun p => retired p.1 p.2) then none
    else some (r.items.take items, { r with
      groups := groups
      tokens := r.tokens.drop tokens
      items := r.items.drop items })

end Reclaim

/-! ## The bridge around it -/

namespace Reclaimer

variable {ι : Type}

/-- Last issued and last completed token of a queue that is not lost. -/
structure QueueState where
  sequence : ℕ
  completed : ℕ
  deriving DecidableEq, Repr

def QueueState.retired (q : QueueState) (token : ℕ) : Result Bool :=
  retiredWith false q.sequence (.ok q.completed) token

/-- Queue indices are never reused: a destroyed queue leaves `none`. -/
abbrev Queues := List (Option QueueState)

/-- The `retired` closure of `reclaim_locked`. -/
def retiredIn (queues : Queues) (queue token : ℕ) : Bool :=
  match queues[queue]?.join with
  | none => true
  | some q => q.retired token = .ok true

/-- What `reclaim_begin` records of one queue. -/
def snapshotOf (queues : Queues) (index : ℕ) : Option (ℕ × ℕ) :=
  match queues[index]?.join with
  | none => none
  | some q =>
    if q.sequence ≠ 0 ∧ q.retired q.sequence ≠ .ok true then some (index, q.sequence) else none

/-- One free: its number, its items, the batches accepted before it as queue and
token, and the snapshot it was deferred with, empty if it was not. -/
structure Freed (ι : Type) where
  serial : ℕ
  items : List ι
  accepted : List (ℕ × ℕ)
  snapshot : List (ℕ × ℕ)
  deriving DecidableEq, Repr

/-- Where the lock holder stands: in `reclaim_locked`, with the budget left and
the free it serves if any, or in `reclaim_begin`, at a queue index and with the
tokens found so far. -/
inductive Phase (ι : Type) where
  | idle
  | drain (budget : ℕ) (next : Option (Freed ι))
  | snapshot (index : ℕ) (found : List (ℕ × ℕ)) (free : Freed ι)
  deriving DecidableEq, Repr

def Phase.freeing : Phase ι → List (Freed ι)
  | .idle => []
  | .drain _ next => next.toList
  | .snapshot _ _ free => [free]

def reclaimBudget : ℕ := 64

/-- The state of the code is `queues`, `reclaim`, `phase` and the items reclaimed
so far, `out`. The rest is history: accepted batches, the items of every free,
and the groups reclaimed and queued, in order. -/
structure Machine (ι : Type) where
  queues : Queues
  reclaim : Reclaim ι
  phase : Phase ι
  out : List ι
  accepted : List (ℕ × ℕ)
  frees : List (List ι)
  reclaimed : List (Freed ι)
  queued : List (Freed ι)
  deriving DecidableEq, Repr

def Machine.start : Machine ι where
  queues := []
  reclaim := .empty
  phase := .idle
  out := []
  accepted := []
  frees := []
  reclaimed := []
  queued := []

inductive Action (ι : Type) where
  | createQueue
  | submit (queue token : ℕ)
  | complete (queue value : ℕ)
  | destroyQueue (queue : ℕ)
  | free (items : List ι)
  | reclaim
  | resume
  deriving DecidableEq, Repr

/-- After `reclaim_locked`: a free goes on to its snapshot. -/
def afterReclaim : Option (Freed ι) → Phase ι
  | none => .idle
  | some free => .snapshot 0 [] free

def reclaimLocked (s : Machine ι) (next : Option (Freed ι)) : Phase ι :=
  if s.reclaim.isEmpty then afterReclaim next else .drain reclaimBudget next

/-- One turn of the loop of `reclaim_locked`. -/
def drainOnce (s : Machine ι) (budget : ℕ) (next : Option (Freed ι)) : Machine ι :=
  match budget with
  | 0 => { s with phase := afterReclaim next }
  | budget + 1 =>
    match s.reclaim.popRetired false (retiredIn s.queues) with
    | none => { s with phase := afterReclaim next }
    | some (items, reclaim) => { s with
        reclaim := reclaim
        phase := .drain budget next
        out := s.out ++ items
        reclaimed := s.reclaimed ++ s.queued.head?.toList
        queued := s.queued.tail }

/-- The rest of `reclaim_or_defer` once every queue was looked at. -/
def finishFree (s : Machine ι) (found : List (ℕ × ℕ)) (free : Freed ι) : Machine ι :=
  match s.reclaim.begin found with
  | (0, reclaim) => { s with
      reclaim := reclaim
      phase := .idle
      out := s.out ++ free.items
      reclaimed := s.reclaimed ++ [free] }
  | (_ + 1, reclaim) => { s with
      reclaim := reclaim.commit free.items
      phase := .idle
      queued := s.queued ++ [{ free with snapshot := found }] }

/-- One action. Everything but a completion needs the bridge lock, so it starts
from `idle`, and `resume` continues the lock holder. -/
def step (s : Machine ι) (action : Action ι) : Option (Machine ι) :=
  match action, s.phase with
  | .createQueue, .idle => some { s with queues := s.queues ++ [some ⟨0, 0⟩] }
  | .submit queue token, .idle =>
    match s.queues[queue]?.join with
    | none => none
    | some q =>
      if q.sequence < token then some { s with
        queues := s.queues.set queue (some { q with sequence := token })
        accepted := s.accepted ++ [(queue, token)] }
      else none
  | .complete queue value, _ =>
    match s.queues[queue]?.join with
    | none => none
    | some q =>
      if q.completed < value ∧ value ≤ q.sequence then some { s with
        queues := s.queues.set queue (some { q with completed := value }) }
      else none
  | .destroyQueue queue, .idle => some { s with queues := s.queues.set queue none }
  | .free items, .idle => some { s with
      phase := reclaimLocked s (some ⟨s.frees.length, items, s.accepted, []⟩)
      frees := s.frees ++ [items] }
  | .reclaim, .idle => some { s with phase := reclaimLocked s none }
  | .resume, .drain budget next => some (drainOnce s budget next)
  | .resume, .snapshot index found free =>
    if index < s.queues.length then some { s with
      phase := .snapshot (index + 1) (found ++ (snapshotOf s.queues index).toList) free }
    else some (finishFree s found free)
  | _, _ => none

/-! ## The flattened deques hold the queued groups -/

structure Represents (r : Reclaim ι) (queued : List (Freed ι)) : Prop where
  groups_eq : r.groups = queued.map fun g => (g.snapshot.length, g.items.length)
  tokens_eq : r.tokens = queued.flatMap Freed.snapshot
  items_eq : r.items = queued.flatMap Freed.items

variable {queued : List (Freed ι)} {r : Reclaim ι} {queue token : ℕ} {queues : Queues}
  {accepted : List (ℕ × ℕ)}

section

variable (h : Represents r queued)

include h

lemma Represents.begin_nil : Represents (r.begin []).2 queued := by
  refine ⟨h.groups_eq, ?_, h.items_eq⟩
  simp [Reclaim.begin, h.tokens_eq]

lemma Represents.commit (g : Freed ι) :
    Represents ((r.begin g.snapshot).2.commit g.items) (queued ++ [g]) := by
  constructor
  · simp [Reclaim.begin, Reclaim.commit, h.groups_eq]
  · simp [Reclaim.begin, Reclaim.commit, h.tokens_eq]
  · simp [Reclaim.begin, Reclaim.commit, h.items_eq]

/-- A pop takes exactly the items of the oldest group, whose snapshot is retired. -/
lemma Represents.popRetired_some {r' : Reclaim ι} {items : List ι} {retired : ℕ → ℕ → Bool}
    (hpop : r.popRetired false retired = some (items, r')) :
    ∃ g rest, queued = g :: rest ∧ items = g.items ∧ Represents r' rest ∧
      ∀ p ∈ g.snapshot, retired p.1 p.2 = true := by
  cases queued with
  | nil => simp [Reclaim.popRetired, h.groups_eq] at hpop
  | cons g rest =>
    simp only [Reclaim.popRetired, h.groups_eq, h.tokens_eq, h.items_eq, map_cons,
      flatMap_cons, take_left, drop_left] at hpop
    split_ifs at hpop with hall
    obtain ⟨rfl, rfl⟩ := hpop
    refine ⟨g, rest, rfl, rfl, ⟨rfl, rfl, rfl⟩, ?_⟩
    intro p hp
    simp only [Bool.not_false, Bool.true_and, Bool.not_eq_true', Bool.not_eq_false] at hall
    exact all_eq_true.mp hall p hp

/-- It is refused only with an unretired token in the oldest group. -/
lemma Represents.popRetired_none {retired : ℕ → ℕ → Bool} (hpop : r.popRetired false retired = none)
    {g : Freed ι} {rest : List (Freed ι)} (hqueued : queued = g :: rest) :
    ∃ p ∈ g.snapshot, retired p.1 p.2 = false := by
  subst hqueued
  simp only [Reclaim.popRetired, h.groups_eq, h.tokens_eq, map_cons, flatMap_cons,
    take_left] at hpop
  split_ifs at hpop with hall
  simpa using hall

end

/-! ## Retirement only advances -/

lemma retiredIn_eq_true : retiredIn queues queue token = true ↔
      ∀ q, queues[queue]?.join = some q → token ≤ q.sequence ∧ token ≤ q.completed := by
  unfold retiredIn
  cases hq : queues[queue]?.join with
  | none => simp
  | some q =>
    simp only [decide_eq_true_eq, Option.some.injEq, forall_eq', QueueState.retired, retiredWith,
      Bool.false_eq_true, if_false]
    split_ifs with hissued hzero
    · simp only [false_iff]
      omega
    · simp only [true_iff]
      omega
    · simp only [Except.ok.injEq, decide_eq_true_eq]
      omega

/-- A later token of the queue is retired only after this one. -/
lemma retiredIn_mono {later : ℕ} (hle : token ≤ later) (h : retiredIn queues queue later = true) :
    retiredIn queues queue token = true := by
  rw [retiredIn_eq_true] at h ⊢
  intro q hq
  have := h q hq
  omega

/-- What a step does to the queues: none disappears and what was retired stays so. -/
structure Advances (queues queues' : Queues) : Prop where
  length_le : queues.length ≤ queues'.length
  retired : ∀ queue token, queue < queues.length → retiredIn queues queue token = true →
    retiredIn queues' queue token = true

lemma Advances.append (queues : Queues) (q : QueueState) : Advances queues (queues ++ [some q]) where
  length_le := by simp
  retired := by
    intro queue token hlt h
    rw [retiredIn_eq_true] at h ⊢
    rwa [getElem?_append_left hlt]

variable {new : Option QueueState} {snapshot : List (ℕ × ℕ)} {q : QueueState}

/-- Replacing a queue advances if its issued and completed tokens do not go back. -/
lemma Advances.set
    (h : ∀ q', new = some q' → ∃ q, queues[queue]?.join = some q ∧ q.sequence ≤ q'.sequence ∧ q.completed ≤ q'.completed) :
    Advances queues (queues.set queue new) where
  length_le := by simp
  retired := by
    intro other token hlt hret
    rw [retiredIn_eq_true] at hret ⊢
    intro q' hq'
    by_cases ho : queue = other
    · subst ho
      rw [getElem?_set_self hlt] at hq'
      obtain ⟨q, hq, hseq, hcom⟩ := h q' (by simpa using hq')
      have := hret q hq
      omega
    · rw [getElem?_set_ne ho] at hq'
      exact hret q' hq'

/-- Every accepted batch is retired or under a token of the snapshot. -/
def Covered (queues : Queues) (accepted snapshot : List (ℕ × ℕ)) : Prop :=
  ∀ b ∈ accepted, retiredIn queues b.1 b.2 = true ∨
    ∃ token, b.2 ≤ token ∧ (b.1, token) ∈ snapshot

lemma Covered.retired (h : Covered queues accepted snapshot)
    (hall : ∀ p ∈ snapshot, retiredIn queues p.1 p.2 = true) :
    ∀ b ∈ accepted, retiredIn queues b.1 b.2 = true := by
  intro b hb
  rcases h b hb with hret | ⟨token, hle, hmem⟩
  · exact hret
  · exact retiredIn_mono hle (hall (b.1, token) hmem)

lemma Covered.advance {queues' : Queues} (h : Covered queues accepted snapshot)
    (hadv : Advances queues queues') (hlt : ∀ b ∈ accepted, b.1 < queues.length) :
    Covered queues' accepted snapshot := by
  intro b hb
  rcases h b hb with hret | hsnap
  · exact .inl (hadv.retired b.1 b.2 (hlt b hb) hret)
  · exact .inr hsnap

/-! ## Queues and accepted batches -/

/-- The accepted batches are those the queues issued. -/
structure Issued (queues : Queues) (accepted : List (ℕ × ℕ)) : Prop where
  index_lt : ∀ b ∈ accepted, b.1 < queues.length
  token_le : ∀ b ∈ accepted, ∀ q, queues[b.1]?.join = some q → b.2 ≤ q.sequence
  last_mem : ∀ queue q, queues[queue]?.join = some q → q.sequence ≠ 0 →
    (queue, q.sequence) ∈ accepted

lemma Issued.create (h : Issued queues accepted) : Issued (queues ++ [some ⟨0, 0⟩]) accepted := by
  constructor
  · intro b hb
    have := h.index_lt b hb
    simp only [length_append, length_singleton]
    omega
  · intro b hb q hq
    rw [getElem?_append_left (h.index_lt b hb)] at hq
    exact h.token_le b hb q hq
  · intro queue q hq hne
    rcases Nat.lt_trichotomy queue queues.length with hlt | heq | hgt
    · rw [getElem?_append_left hlt] at hq
      exact h.last_mem queue q hq hne
    · subst heq
      simp at hq
      simp [← hq] at hne
    · rw [getElem?_eq_none (by simp; omega)] at hq
      cases hq

lemma join_lt (h : queues[queue]?.join = some q) : queue < queues.length := by
  by_contra hge
  rw [getElem?_eq_none (by omega)] at h
  cases h

lemma Issued.submit (h : Issued queues accepted) (hq : queues[queue]?.join = some q)
    (htoken : q.sequence < token) :
    Issued (queues.set queue (some { q with sequence := token })) (accepted ++ [(queue, token)]) := by
  have hlt := join_lt hq
  constructor
  · rw [length_set]
    exact forall_mem_append.mpr ⟨h.index_lt, forall_mem_singleton.mpr hlt⟩
  · refine forall_mem_append.mpr ⟨fun b hb q' hq' => ?_, forall_mem_singleton.mpr fun q' hq' => ?_⟩
    · by_cases heq : queue = b.1
      · rw [← heq, getElem?_set_self hlt] at hq'
        simp only [Option.join_some, Option.some.injEq] at hq'
        subst hq'
        have := h.token_le b hb q (heq ▸ hq)
        simp only
        omega
      · rw [getElem?_set_ne heq] at hq'
        exact h.token_le b hb q' hq'
    · rw [getElem?_set_self hlt] at hq'
      cases hq'
      exact le_rfl
  · intro other q' hq' hne
    by_cases heq : queue = other
    · subst heq
      rw [getElem?_set_self hlt] at hq'
      simp only [Option.join_some, Option.some.injEq] at hq'
      subst hq'
      simp
    · rw [getElem?_set_ne heq] at hq'
      exact mem_append_left _ (h.last_mem other q' hq' hne)

/-- Completion keeps the issued token of a queue, destruction forgets it. -/
lemma Issued.set (h : Issued queues accepted)
    (hnew : ∀ q', new = some q' → ∃ q, queues[queue]?.join = some q ∧ q'.sequence = q.sequence) :
    Issued (queues.set queue new) accepted := by
  have hget : ∀ (other : ℕ) (q' : QueueState), (queues.set queue new)[other]?.join = some q' →
      ∃ q, queues[other]?.join = some q ∧ q'.sequence = q.sequence := by
    intro other q' hq'
    have hlt : other < queues.length := by simpa using join_lt hq'
    by_cases heq : queue = other
    · subst heq
      rw [getElem?_set_self hlt] at hq'
      exact hnew q' (by simpa using hq')
    · rw [getElem?_set_ne heq] at hq'
      exact ⟨q', hq', rfl⟩
  constructor
  · intro b hb
    rw [length_set]
    exact h.index_lt b hb
  · intro b hb q' hq'
    obtain ⟨q, hq, hseq⟩ := hget b.1 q' hq'
    rw [hseq]
    exact h.token_le b hb q hq
  · intro other q' hq' hne
    obtain ⟨q, hq, hseq⟩ := hget other q' hq'
    rw [hseq] at hne ⊢
    exact h.last_mem other q hq hne

/-- What is recorded of a queue is its last accepted batch, and a queue of which
nothing is recorded has retired all of them. -/
lemma Issued.snapshotOf (h : Issued queues accepted) (index : ℕ) :
    (snapshotOf queues index).toList ⊆ accepted ∧
      ∀ b ∈ accepted, b.1 = index → retiredIn queues b.1 b.2 = true ∨
        ∃ token, b.2 ≤ token ∧ (b.1, token) ∈ (Reclaimer.snapshotOf queues index).toList := by
  unfold Reclaimer.snapshotOf
  cases hq : queues[index]?.join with
  | none =>
    refine ⟨by simp, ?_⟩
    intro b hb hindex
    left
    rw [retiredIn_eq_true]
    intro q hq'
    rw [hindex, hq] at hq'
    cases hq'
  | some q =>
    simp only
    split_ifs with hlive
    · constructor
      · simpa using h.last_mem index q hq hlive.1
      · intro b hb hindex
        right
        exact ⟨q.sequence, h.token_le b hb q (hindex ▸ hq), by simp [hindex]⟩
    · refine ⟨by simp, ?_⟩
      intro b hb hindex
      left
      have hle := h.token_le b hb q (hindex ▸ hq)
      have hlast : retiredIn queues index q.sequence = true := by
        by_cases hzero : q.sequence = 0
        · rw [retiredIn_eq_true]
          intro q' hq'
          omega
        have hret : q.retired q.sequence = .ok true := by
          by_contra hne
          exact hlive ⟨hzero, hne⟩
        simp [retiredIn, hq, hret]
      rw [hindex]
      exact retiredIn_mono hle hlast

end Reclaimer

end NvidiaProlapse
