import NvidiaProlapse.IdleMappings
import NvidiaProlapse.Runs

/-!
# Runs of the mapping cache

A run takes any sequence of operations on the slots of one registry. Next to the
registry it keeps when each slot last became idle and which slots had a cleanup
that failed and none that succeeded since.
-/
namespace NvidiaProlapse.CpuMapCache
open Runs DoublyLinked Option

variable {M : Type}

namespace Registry

/-! ## Failed cleanups -/

variable (r : Registry M)

/-- The slot an eviction works on. -/
def Eviction.target : Eviction M → Option ℕ
  | .slot i _ => some i
  | .one _ => r.upgrade r.head

/-- A failed cleanup marks its slot, a completed eviction clears the mark. -/
def noteEviction (target : Option ℕ) (result : Result Bool) (unclean : ℕ → Bool) : ℕ → Bool :=
  match target, result with
  | some i, .error _ => Function.update unclean i true
  | some i, .ok true => Function.update unclean i false
  | _, _ => unclean

def noteEvictions : Registry M → List (Eviction M) → (ℕ → Bool) → ℕ → Bool
  | _, [], unclean => unclean
  | r, e :: rest, unclean =>
    match r.evictBy e with
    | none => unclean
    | some (result, r') => noteEvictions r' rest (noteEviction (e.target r) result unclean)

/-- Whether an acquire of the slot gets to run `make`. -/
def makes (i : ℕ) : Bool :=
  match r.entryOf i with
  | none => false
  | some e => !e.failed && decide (e.refs + 1 < 2 ^ 32) && e.mapping.isNone

def noteAcquire (i : ℕ) (evictions : List (Eviction M)) (unclean : ℕ → Bool) :
    ℕ → Bool :=
  if r.makes i then noteEvictions (r.unlink i) evictions unclean else unclean

/-- Whether a release of the slot has a reference to give back. -/
def inUse (i : ℕ) : Bool :=
  match r.entryOf i with
  | none => false
  | some e => e.refs ≠ 0 && e.mapping.isSome

def noteRelease (i : ℕ) (result : Result Unit) (unclean : ℕ → Bool) : ℕ → Bool :=
  match result with
  | .ok () => Function.update unclean i false
  | .error _ => if r.inUse i then Function.update unclean i true else unclean

/-- Every slot with a failed cleanup is marked in its entry. -/
def Marked (unclean : ℕ → Bool) : Prop :=
  ∀ i, unclean i = true → i < r.created ∧ ∀ e, r.entryOf i = some e → e.failed = true

variable {r r' : Registry M} {unclean : ℕ → Bool} {i : ℕ} {cleanup : Cleanup M} {l : List ℕ}

lemma Marked.congr (h : Marked r unclean) (hcreated : r'.created = r.created)
    (hsame : ∀ i e', unclean i = true → r'.entryOf i = some e' → ∃ e, r.entryOf i = some e ∧
      e'.failed = e.failed) :
    Marked r' unclean := by
  intro i hi
  refine ⟨hcreated ▸ (h i hi).1, ?_⟩
  intro e' he'
  obtain ⟨e, he, hfailed⟩ := hsame i e' hi he'
  rw [hfailed]
  exact (h i hi).2 e he

/-- Only the mark and the entry of one slot change. -/
lemma Marked.update {mark : Bool} (h : Marked r unclean) (hcreated : r'.created = r.created)
    (hother : ∀ j, j ≠ i → r'.entryOf j = r.entryOf j)
    (hself : mark = true → i < r.created ∧ ∀ e, r'.entryOf i = some e → e.failed = true) :
    Marked r' (Function.update unclean i mark) := by
  intro j hj
  by_cases heq : j = i
  · subst heq
    rw [Function.update_self] at hj
    rw [hcreated]
    exact hself hj
  · rw [Function.update_of_ne heq] at hj
    rw [hcreated, hother j heq]
    exact h j hj

variable {result : Result Bool} {evictions : List (Eviction M)} {retainIdle : M → Bool}

lemma evict_marked (h : Valid r l) (hmarked : Marked r unclean)
    (hevict : r.evict i cleanup = some (result, r')) :
    Marked r' (noteEviction (some i) result unclean) := by
  obtain ⟨s, hs, ⟨rfl, rfl⟩ | ⟨_, _, ⟨e, left, rfl, rfl⟩ | ⟨rfl, rfl⟩⟩⟩ := evict_cases hevict
  · exact hmarked
  · have hentry := (slots_eq_some hs).2
    refine hmarked.update rfl (fun j hj => by simp [entryOf_modifyEntry, hj]) ?_
    intro _
    refine ⟨h.created_lt i s.entry hentry, ?_⟩
    intro e' he'
    simp only [entryOf_modifyEntry, if_true, hentry, map_some, some.injEq] at he'
    rw [← he']
  · refine hmarked.update (created_unlink _ _) (fun j hj => by simp [entryOf_modifyEntry, hj]) ?_
    intro hfalse
    cases hfalse

lemma evictBy_marked {eviction : Eviction M} (h : Valid r l) (hmarked : Marked r unclean)
    (hevict : r.evictBy eviction = some (result, r')) :
    Marked r' (noteEviction (eviction.target r) result unclean) := by
  cases eviction with
  | slot i cleanup => exact evict_marked h hmarked hevict
  | one cleanup =>
    simp only [evictBy, evictOne] at hevict
    simp only [Eviction.target]
    cases hhead : r.upgrade r.head with
    | some i =>
      simp only [hhead] at hevict
      exact evict_marked h hmarked hevict
    | none =>
      simp only [hhead, some.injEq, Prod.mk.injEq] at hevict
      obtain ⟨rfl, rfl⟩ := hevict
      exact hmarked

lemma evictAll_marked (h : Valid r l) (hmarked : Marked r unclean)
    (hevict : r.evictAll evictions = some r') : Marked r' (noteEvictions r evictions unclean) := by
  induction evictions generalizing r l unclean with
  | nil =>
    cases hevict
    exact hmarked
  | cons eviction rest ih =>
    simp only [evictAll] at hevict
    simp only [noteEvictions]
    cases hone : r.evictBy eviction with
    | none => simp [hone] at hevict
    | some out =>
      simp only [hone] at hevict
      obtain ⟨l₁, hvalid, _, _⟩ := evictBy_valid h hone
      exact ih hvalid (evictBy_marked h hmarked hone) hevict

lemma acquire_marked {made result : Result M} (h : Valid r l) (hmarked : Marked r unclean)
    (hacquire : r.acquire i evictions made = some (result, r')) :
    Marked r' (r.noteAcquire i evictions unclean) := by
  obtain ⟨s, hs, ⟨_, rfl, hrefused⟩ | ⟨hfailed, hrefs, hcase⟩⟩ := acquire_cases hacquire
  · have hentry := (slots_eq_some hs).2
    have hmakes : r'.makes i = false := by
      simp only [makes, hentry]
      rcases hrefused with hfailed | hover
      · simp [hfailed]
      · simp
        omega
    simpa [noteAcquire, hmakes] using hmarked
  · have hentry := (slots_eq_some hs).2
    rcases hcase with ⟨hmap, rfl⟩ | ⟨hmap, r₁, hall, hmade⟩
    · have hmakes : r.makes i = false := by
        simp [makes, hentry, isSome_iff_ne_none.mpr hmap]
      rw [noteAcquire, hmakes]
      refine hmarked.congr (created_unlink _ _) ?_
      intro j e' _ he'
      by_cases hj : j = i
      · subst hj
        simp only [entryOf_modifyEntry, if_true, entryOf_unlink, hentry, map_some,
          some.injEq] at he'
        exact ⟨s.entry, hentry, by rw [← he']⟩
      · simp only [entryOf_modifyEntry, if_neg hj, entryOf_unlink] at he'
        exact ⟨e', he', rfl⟩
    · have hmakes : r.makes i = true := by
        simp only [makes, hentry, hmap, hfailed, hrefs]
        rfl
      have hmarked' : Marked (r.unlink i) unclean := by
        refine hmarked.congr (created_unlink _ _) ?_
        intro j e' _ he'
        exact ⟨e', by rwa [entryOf_unlink] at he', rfl⟩
      have hmarked₁ := evictAll_marked (h.unlink_unmapped hs hmap) hmarked' hall
      rw [noteAcquire, hmakes, if_pos rfl]
      rcases hmade with rfl | ⟨m, rfl⟩
      · exact hmarked₁
      refine hmarked₁.congr rfl ?_
      intro j e' _ he'
      rw [entryOf_modifyEntry] at he'
      split_ifs at he' with hj
      · subst hj
        obtain ⟨e, he, rfl⟩ := map_eq_some_iff.mp he'
        exact ⟨e, he, rfl⟩
      · exact ⟨e', he', rfl⟩

/-- A release fails before it touches the slot, or in the cleanup of a mapping in
use, which it marks. -/
lemma release_error {e : Error} (hrelease : r.release retainIdle i cleanup = some (.error e, r')) :
    (r.inUse i = false ∧ r' = r) ∨ (r.inUse i = true ∧ ∃ left, r' = r.modifyEntry i fun entry =>
        { entry with mapping := some left, failed := true }) := by
  unfold release at hrelease
  cases hs : r.slots i with
  | none => simp [hs] at hrelease
  | some s =>
    have hentry := (slots_eq_some hs).2
    simp only [hs] at hrelease
    by_cases hrefs : s.entry.refs = 0
    · simp only [if_pos hrefs, some.injEq, Prod.mk.injEq] at hrelease
      exact .inl ⟨by simp [inUse, hentry, hrefs], hrelease.2.symm⟩
    simp only [if_neg hrefs] at hrelease
    cases hmap : s.entry.mapping with
    | none =>
      simp only [hmap, some.injEq, Prod.mk.injEq] at hrelease
      exact .inl ⟨by simp [inUse, hentry, hmap], hrelease.2.symm⟩
    | some m =>
      refine .inr ⟨by simp [inUse, hentry, hmap, hrefs], ?_⟩
      simp only [hmap] at hrelease
      split_ifs at hrelease with hlast hzero
      · cases hc : cleanup m with
        | error failure =>
          obtain ⟨e', left⟩ := failure
          simp only [hc, some.injEq, Prod.mk.injEq] at hrelease
          exact ⟨left, hrelease.2.symm⟩
        | ok _ => simp [hc] at hrelease
      · split at hrelease
        · cases hrelease
        · simp at hrelease
      · simp at hrelease

lemma release_marked {result : Result Unit} (h : Valid r l) (hmarked : Marked r unclean)
    (hcreated : r'.created = r.created) (hother : ∀ j, j ≠ i → r'.entryOf j = r.entryOf j)
    (hrelease : r.release retainIdle i cleanup = some (result, r')) :
    Marked r' (r.noteRelease i result unclean) := by
  cases result with
  | ok _ => exact hmarked.update hcreated hother (by simp)
  | error e =>
    simp only [noteRelease]
    rcases release_error hrelease with ⟨huse, rfl⟩ | ⟨huse, left, rfl⟩
    · simpa [huse] using hmarked
    rw [if_pos huse]
    refine hmarked.update hcreated hother ?_
    intro _
    have hsome : ∃ e, r.entryOf i = some e := by
      unfold inUse at huse
      cases he : r.entryOf i with
      | none => simp [he] at huse
      | some e => exact ⟨e, rfl⟩
    obtain ⟨old, hold⟩ := hsome
    refine ⟨h.created_lt i old hold, ?_⟩
    intro e' he'
    simp only [entryOf_modifyEntry, if_true, hold, map_some, some.injEq] at he'
    rw [← he']

end Registry

/-! ## Runs -/

open Registry

/-- The registry, with the step at which each slot last became idle and the slots
whose last cleanup failed. -/
structure State (M : Type) where
  registry : Registry M
  clock : ℕ
  idleSince : ℕ → ℕ
  unclean : ℕ → Bool

def State.start : State M where
  registry := .new
  clock := 0
  idleSince := fun _ => 0
  unclean := fun _ => false

inductive Action (M : Type) where
  | create
  | acquire (i : ℕ) (evictions : List (Eviction M)) (made : Result M)
  | release (i : ℕ) (cleanup : Cleanup M)
  | evict (eviction : Eviction M)
  | drop (i : ℕ)

/-- The next state; a slot that is idle now and was not before became idle. -/
def State.observe (s : State M) (registry : Registry M) (unclean : ℕ → Bool) : State M where
  registry := registry
  clock := s.clock + 1
  idleSince := fun i =>
    if registry.idle i && !s.registry.idle i then s.clock else s.idleSince i
  unclean := unclean

def step (retainIdle : M → Bool) (s : State M) : Action M → Option (State M)
  | .create => some (s.observe s.registry.slot s.unclean)
  | .acquire i evictions made =>
    match s.registry.acquire i evictions made with
    | none => none
    | some (_, r) => some (s.observe r (s.registry.noteAcquire i evictions s.unclean))
  | .release i cleanup =>
    match s.registry.release retainIdle i cleanup with
    | none => none
    | some (result, r) => some (s.observe r (s.registry.noteRelease i result s.unclean))
  | .evict eviction =>
    match s.registry.evictBy eviction with
    | none => none
    | some (result, r) =>
      some (s.observe r (noteEviction (eviction.target s.registry) result s.unclean))
  | .drop i =>
    match s.registry.drop i with
    | none => none
    | some r => some (s.observe r s.unclean)

/-- The queue in the order its slots became idle. -/
structure Ordered (s : State M) (l : List ℕ) : Prop where
  valid : Valid s.registry l
  marked : Marked s.registry s.unclean
  increasing : l.Pairwise fun i j => s.idleSince i < s.idleSince j
  past : ∀ i ∈ l, s.idleSince i < s.clock

lemma start_ordered : Ordered (State.start : State M) [] := by
  refine ⟨⟨⟨.nil, ?_⟩, ?_, ?_, ?_⟩, ?_, List.Pairwise.nil, ?_⟩ <;>
    simp [State.start, Registry.new, linkedOf, linksOf, idle, entryOf, Marked]

variable {i : ℕ} {l : List ℕ} {r : Registry M} {s : State M} {unclean : ℕ → Bool}

lemma Ordered.observe_old (h : Ordered s l) (hi : i ∈ l) :
    (s.observe r unclean).idleSince i = s.idleSince i := by
  have hidle := (h.valid.idle_iff i).mp hi
  simp [State.observe, hidle]

/-- Leaving the queue keeps its order; a slot that was not on it joins as newest. -/
lemma Ordered.observe {l' : List ℕ} (h : Ordered s l) (hvalid : Valid r l')
    (hmarked : Marked r unclean) (hqueue : l'.Sublist l ∨ ∃ i, i ∉ l ∧ l' = l ++ [i]) :
    Ordered (s.observe r unclean) l' := by
  have hold : ∀ i ∈ l, (s.observe r unclean).idleSince i = s.idleSince i :=
    fun i hi => h.observe_old hi
  have hinc : l.Pairwise fun i j =>
      (s.observe r unclean).idleSince i < (s.observe r unclean).idleSince j := by
    refine h.increasing.imp_of_mem ?_
    intro i j hi hj hlt
    rw [hold i hi, hold j hj]
    exact hlt
  have hpast : ∀ i ∈ l, (s.observe r unclean).idleSince i < s.clock := by
    intro i hi
    rw [hold i hi]
    exact h.past i hi
  refine ⟨hvalid, hmarked, ?_, ?_⟩
  · rcases hqueue with hsub | ⟨i, hi, rfl⟩
    · exact hinc.sublist hsub
    refine List.pairwise_append.mpr ⟨hinc, List.pairwise_singleton _ _, fun j hj => ?_⟩
    rw [List.forall_mem_singleton]
    have hidle := (hvalid.idle_iff i).mp (by simp)
    have hbusy : s.registry.idle i = false := by
      have := mt (h.valid.idle_iff i).mpr hi
      simpa using this
    have hnew : (s.observe r unclean).idleSince i = s.clock := by
      simp [State.observe, hidle, hbusy]
    rw [hnew]
    exact hpast j hj
  · intro i hi
    by_cases hmem : i ∈ l
    · exact Nat.lt_succ_of_lt (hpast i hmem)
    have hbusy : s.registry.idle i = false := by
      have := mt (h.valid.idle_iff i).mpr hmem
      simpa using this
    have hidle := (hvalid.idle_iff i).mp hi
    simp [State.observe, hidle, hbusy]

lemma slot_valid (h : Valid r l) (hmarked : Marked r unclean) :
    Valid r.slot l ∧ Marked r.slot unclean := by
  have hfresh : r.entryOf r.created = none := by
    cases he : r.entryOf r.created with
    | none => rfl
    | some e => exact absurd (h.created_lt _ e he) (lt_irrefl _)
  have hnot : r.created ∉ l := by
    rw [h.idle_iff]
    simp [idle, hfresh]
  have hnone : r.slots r.created = none := by simpa [entryOf] using hfresh
  have hother : ∀ j, j ≠ r.created → r.slot.slots j = r.slots j := by
    intro j hj
    simp [Registry.slot, hj]
  have hentry : ∀ j, j ≠ r.created → r.slot.entryOf j = r.entryOf j := by
    intro j hj
    simp only [entryOf, hother j hj]
  have hnew : r.slot.entryOf r.created = some ⟨none, 0, false⟩ := by simp [Registry.slot, entryOf]
  have hne : ∀ j ∈ l, j ≠ r.created := fun j hj heq => hnot (heq ▸ hj)
  refine ⟨⟨⟨?_, ?_⟩, ?_, ?_, ?_⟩, ?_⟩
  · refine h.linked.isList.congr rfl rfl ?_ ?_
    · intro j hj
      simp only [pointers, linksOf, hother j (hne j hj)]
    · intro j hj
      simp [pointers, linksOf, hother j (hne j hj)]
  · intro j
    rw [← h.linked.linked_iff j]
    by_cases hj : j = r.created
    · subst hj
      simp [linkedOf, linksOf, hnone, Registry.slot, Links.unlinked]
    · simp [linkedOf, linksOf, hother j hj]
  · intro j
    by_cases hj : j = r.created
    · subst hj
      simp [hnot, idle, hnew]
    · rw [idle_congr (hentry j hj)]
      exact h.idle_iff j
  · intro j e he hrefs
    by_cases hj : j = r.created
    · subst hj
      rw [hnew] at he
      cases he
      cases hrefs
    · rw [hentry j hj] at he
      exact h.mapped j e he hrefs
  · intro j e he
    by_cases hj : j = r.created
    · subst hj
      exact Nat.lt_succ_self _
    · rw [hentry j hj] at he
      exact Nat.lt_succ_of_lt (h.created_lt j e he)
  · intro j hj
    obtain ⟨hlt, hfailed⟩ := hmarked j hj
    refine ⟨Nat.lt_succ_of_lt hlt, ?_⟩
    rw [hentry j (by omega)]
    exact hfailed

variable {action : Action M} {retainIdle : M → Bool} {s' : State M}

lemma step_ordered (h : Ordered s l) (hstep : step retainIdle s action = some s') :
    ∃ l', Ordered s' l' := by
  cases action with
  | create =>
    cases hstep
    obtain ⟨hvalid, hmarked⟩ := slot_valid h.valid h.marked
    exact ⟨l, h.observe hvalid hmarked (.inl (List.Sublist.refl l))⟩
  | acquire i evictions made =>
    simp only [step] at hstep
    split at hstep
    · cases hstep
    next out ha =>
      cases hstep
      obtain ⟨l', hvalid, hsub, _⟩ := acquire_valid h.valid ha
      exact ⟨l', h.observe hvalid (acquire_marked h.valid h.marked ha) (.inl hsub)⟩
  | release i cleanup =>
    simp only [step] at hstep
    cases hs : s.registry.slots i with
    | none => simp [Registry.release, hs] at hstep
    | some slot =>
      obtain ⟨result, r, l', hr, hvalid, hqueue, hcreated, hother⟩ :=
        @release_valid M l s.registry i cleanup retainIdle slot h.valid hs
      simp only [hr, some.injEq] at hstep
      subst hstep
      refine ⟨l', h.observe hvalid (release_marked h.valid h.marked hcreated hother hr) ?_⟩
      exact hqueue.imp_right fun hnew => ⟨i, hnew⟩
  | evict eviction =>
    simp only [step] at hstep
    split at hstep
    · cases hstep
    next out he =>
      cases hstep
      obtain ⟨l', hvalid, hsub, _⟩ := evictBy_valid h.valid he
      exact ⟨l', h.observe hvalid (evictBy_marked h.valid h.marked he) (.inl hsub)⟩
  | drop i =>
    simp only [step] at hstep
    split at hstep
    · cases hstep
    next r hd =>
      cases hstep
      obtain ⟨hvalid, hother⟩ := drop_valid h.valid hd
      obtain ⟨_, hcreated, hentries⟩ := drop_spec h.valid.linked hd
      refine ⟨l.erase i, h.observe hvalid (h.marked.congr hcreated ?_) (.inl List.erase_sublist)⟩
      intro j e' _ he'
      rw [hentries] at he'
      split_ifs at he'
      exact ⟨e', he', rfl⟩

/-- The action gives back a reference of the slot, or the slot itself. -/
def Action.givesBack : Action M → ℕ → Bool
  | .release i _, j => i = j
  | .drop i, j => i = j
  | _, _ => false

/-- No other action takes the mapping of a slot in use. -/
lemma step_keeps_in_use (h : Ordered s l) (hstep : step retainIdle s action = some s') {e : Entry M}
    (he : s.registry.entryOf i = some e) (hrefs : 0 < e.refs) (hgive : action.givesBack i = false) :
    ∃ e', s'.registry.entryOf i = some e' ∧ e'.mapping = e.mapping := by
  cases action with
  | create =>
    cases hstep
    have hne : i ≠ s.registry.created := (h.valid.created_lt i e he).ne
    exact ⟨e, by simpa [State.observe, Registry.slot, entryOf, hne] using he, rfl⟩
  | acquire j evictions made =>
    simp only [step] at hstep
    split at hstep
    · cases hstep
    next out ha =>
      cases hstep
      obtain ⟨_, _, _, hkeep⟩ := acquire_valid h.valid ha
      exact hkeep i e he hrefs
  | release j cleanup =>
    simp only [step] at hstep
    have hne : i ≠ j := by simpa [Action.givesBack, eq_comm] using hgive
    cases hs : s.registry.slots j with
    | none => simp [Registry.release, hs] at hstep
    | some slot =>
      obtain ⟨result, r, _, hr, _, _, _, hother⟩ :=
        @release_valid M l s.registry j cleanup retainIdle slot h.valid hs
      simp only [hr, some.injEq] at hstep
      subst hstep
      exact ⟨e, (hother i hne).trans he, rfl⟩
  | evict eviction =>
    simp only [step] at hstep
    split at hstep
    · cases hstep
    next out hev =>
      cases hstep
      obtain ⟨_, _, _, hkeep⟩ := evictBy_valid h.valid hev
      exact ⟨e, hkeep.busy i e he (.inl hrefs), rfl⟩
  | drop j =>
    simp only [step] at hstep
    have hne : i ≠ j := by simpa [Action.givesBack, eq_comm] using hgive
    split at hstep
    · cases hstep
    next r hd =>
      cases hstep
      exact ⟨e, ((drop_valid h.valid hd).2 i hne).trans he, rfl⟩

/-- A slot with a failed cleanup refuses every acquire. -/
lemma Registry.Marked.refuses {r' : Registry M} (h : Marked r unclean) (hi : unclean i = true)
    {evictions : List (Eviction M)} {made result : Result M}
    (hacquire : r.acquire i evictions made = some (result, r')) :
    (∃ e, result = .error e) ∧ r' = r := by
  obtain ⟨s, hs, ⟨herror, hsame, _⟩ | ⟨hfailed, _⟩⟩ := acquire_cases hacquire
  · exact ⟨herror, hsame⟩
  · have := (h i hi).2 s.entry (slots_eq_some hs).2
    rw [hfailed] at this
    cases this

/-- The slots on a walk from the head along `next`. -/
def Registry.fifo (r : Registry M) : List ℕ := walk r.pointers.next r.created r.head

/-- In every run the walk from the head visits exactly the idle slots, each once
and in the order they last became idle, and does not go on after them; the walk
from the tail along `previous` is its reverse. A release of a live slot returns.
A slot in use loses its mapping only to its own release or destructor. A slot
whose cleanup failed hands out nothing before a later release or eviction of it
succeeded. -/
theorem idle_queue_exact {retainIdle : M → Bool} {actions : List (Action M)} {s : State M}
    (hrun : run (step retainIdle) State.start actions = some s) :
    (∀ fuel, s.registry.created ≤ fuel →
        walk s.registry.pointers.next fuel s.registry.head = s.registry.fifo) ∧
      s.registry.fifo.Nodup ∧
      (∀ i, i ∈ s.registry.fifo ↔ s.registry.idle i = true) ∧
      (s.registry.fifo.Pairwise fun i j => s.idleSince i < s.idleSince j) ∧
      walk s.registry.pointers.prev s.registry.created s.registry.tail = s.registry.fifo.reverse ∧
      s.registry.head = s.registry.fifo.head? ∧
      s.registry.tail = s.registry.fifo.getLast? ∧
      (∀ i cleanup, (s.registry.slots i).isSome = true →
        s.registry.release retainIdle i cleanup ≠ none) ∧
      (∀ action s', step retainIdle s action = some s' → ∀ i e, s.registry.entryOf i = some e →
        0 < e.refs → action.givesBack i = false →
          ∃ e', s'.registry.entryOf i = some e' ∧ e'.mapping = e.mapping) ∧
      (∀ i, s.unclean i = true → ∀ evictions made result r,
        s.registry.acquire i evictions made = some (result, r) → ∃ e, result = .error e) := by
  have hpreserve : ∀ (s : State M) (a : Action M) (s' : State M), (∃ l, Ordered s l) →
      step retainIdle s a = some s' → ∃ l, Ordered s' l := by
    intro s a s' hs hstep
    obtain ⟨l, hl⟩ := hs
    exact step_ordered hl hstep
  obtain ⟨l, h⟩ := run_invariant hpreserve ⟨[], start_ordered⟩ hrun
  have hlist := h.valid.linked.isList
  have hlength : l.length ≤ s.registry.created := h.valid.length_le
  have hfifo : s.registry.fifo = l := hlist.walk_next hlength
  rw [hfifo]
  refine ⟨fun fuel hfuel => hlist.walk_next (hlength.trans hfuel), hlist.nodup, h.valid.idle_iff,
    h.increasing, hlist.walk_prev hlength, hlist.head_eq, hlist.tail_eq, ?_, ?_, ?_⟩
  · intro i cleanup hlive
    obtain ⟨slot, hs⟩ := isSome_iff_exists.mp hlive
    obtain ⟨result, r, _, hr, _⟩ :=
      @release_valid M l s.registry i cleanup retainIdle slot h.valid hs
    rw [hr]
    simp
  · exact fun action s' hstep i e he hrefs hgive => step_keeps_in_use h hstep he hrefs hgive
  · exact fun i hi evictions made result r hacquire => (h.marked.refuses hi hacquire).1

/-- Two mappings become idle, the older one is reacquired and becomes idle again;
the acquire of a third slot evicts the head inside `make`. -/
theorem idle_queue_exact_reacquired :
    ∃ s : State ℕ, run (step fun _ => true) State.start
        [.create, .create, .create, .acquire 0 [] (.ok 5), .acquire 1 [] (.ok 6),
          .release 0 (fun _ => .ok ()), .release 1 (fun _ => .ok ()), .acquire 0 [] (.ok 9),
          .release 0 (fun _ => .ok ()),
          .acquire 2 [.one fun _ => .ok ()] (.ok 7)] = some s ∧
      s.registry.fifo = [0] ∧ ∀ i, i ∈ s.registry.fifo ↔ s.registry.idle i = true := by
  refine ⟨_, rfl, rfl, ?_⟩
  exact (@idle_queue_exact ℕ (fun _ => true)
    [.create, .create, .create, .acquire 0 [] (.ok 5), .acquire 1 [] (.ok 6),
      .release 0 (fun _ => .ok ()), .release 1 (fun _ => .ok ()), .acquire 0 [] (.ok 9),
      .release 0 (fun _ => .ok ()), .acquire 2 [.one fun _ => .ok ()] (.ok 7)] _ rfl).2.2.1

end NvidiaProlapse.CpuMapCache
