import NvidiaProlapse.Allocations
import NvidiaProlapse.SlotAccounts

/-!
# What the payload programs do to slot references

One specification for each program of a handle, a shared payload or the watcher.
`Kept s t` is what planning a batch leaves alone.
-/
namespace NvidiaProlapse.Core
open Programs

variable {kernel : Kernel} {extra : Multiset Slot} {s : Core}

/-- `t` comes from `s` without a change of a handle. -/
structure SameHandles (s t : Core) : Prop where
  syncs : t.syncs = s.syncs
  shareds : t.shareds.length = s.shareds.length
  taken : ∀ slot, s.taken slot ≤ t.taken slot

/-- Shared payloads and the watcher may have dropped slots, too. -/
structure Settles (s t : Core) : Prop extends SameHandles s t where
  sharedSlots : t.sharedSlots ≤ s.sharedSlots
  gateSlots : t.gateSlots ≤ s.gateSlots
  view : t.pool.view = s.pool.view
  lost : s.lost = true → t.lost = true

/-- A shared payload gives up a local slot only when its target is completed. -/
structure Refreshed (s t : Core) : Prop where
  completed : ∀ shared, s.load shared .completed ≤ t.load shared .completed
  points : ∀ shared, ∀ point ∈ (s.sharedAt shared).points,
    point ∈ (t.sharedAt shared).points ∨ point.1 ≤ t.load shared .completed
  sources : ∀ shared, ∀ source ∈ (s.sharedAt shared).sources,
    source ∈ (t.sharedAt shared).sources ∨ source.2 ≤ t.load shared .completed

/-- The watcher is as it was, and shared payloads dropped completed points only. -/
structure Kept (s t : Core) : Prop extends Settles s t, Refreshed s t where
  watcher : t.watcher = s.watcher

lemma SameHandles.refl (s : Core) : SameHandles s s := ⟨rfl, rfl, fun _ => le_rfl⟩

variable {s t u t' : Core} {α : Type}

lemma SameHandles.trans (h : SameHandles s t) (h' : SameHandles t u) : SameHandles s u :=
  ⟨h'.syncs.trans h.syncs, h'.shareds.trans h.shareds,
    fun slot => (h.taken slot).trans (h'.taken slot)⟩

lemma Settles.refl (s : Core) : Settles s s := ⟨.refl s, le_rfl, le_rfl, rfl, id⟩

lemma Settles.trans (h : Settles s t) (h' : Settles t u) : Settles s u :=
  ⟨h.toSameHandles.trans h'.toSameHandles, h'.sharedSlots.trans h.sharedSlots,
    h'.gateSlots.trans h.gateSlots, h'.view.trans h.view, fun hs => h'.lost (h.lost hs)⟩

lemma Settles.congr (h : Settles s t) (hview : t'.pool.view = t.pool.view)
    (htaken : t'.taken = t.taken) (hsyncs : t'.syncs = t.syncs) (hshareds : t'.shareds = t.shareds)
    (hgates : t'.watcher.gates = t.watcher.gates)
    (hsharedGates : t'.watcher.sharedGates = t.watcher.sharedGates)
    (hlost : t.lost = true → t'.lost = true) : Settles s t' := by
  refine ⟨⟨hsyncs.trans h.syncs, ?_, ?_⟩, ?_, ?_, hview.trans h.view, fun hs => hlost (h.lost hs)⟩
  · rw [hshareds]
    exact h.shareds
  · rw [htaken]
    exact h.taken
  · unfold Core.sharedSlots
    rw [hshareds]
    exact h.sharedSlots
  · unfold Core.gateSlots
    rw [hgates, hsharedGates]
    exact h.gateSlots

lemma Refreshed.refl (s : Core) : Refreshed s s :=
  ⟨fun _ => le_rfl, fun _ _ h => .inl h, fun _ _ h => .inl h⟩

lemma Refreshed.trans (h : Refreshed s t) (h' : Refreshed t u) : Refreshed s u := by
  refine ⟨fun shared => (h.completed shared).trans (h'.completed shared), ?_, ?_⟩
  · intro shared point hpoint
    rcases h.points shared point hpoint with hkept | hdone
    · exact h'.points shared point hkept
    · exact .inr (hdone.trans (h'.completed shared))
  · intro shared source hsource
    rcases h.sources shared source hsource with hkept | hdone
    · exact h'.sources shared source hkept
    · exact .inr (hdone.trans (h'.completed shared))

/-- Shared payloads as they were, in memories that may have completed more. -/
lemma Refreshed.raise (h : Refreshed s t) (hshareds : t'.shareds = t.shareds)
    (hraised : ∀ shared, t.load shared .completed ≤ t'.load shared .completed) : Refreshed s t' := by
  have hat : ∀ shared, t'.sharedAt shared = t.sharedAt shared := by
    intro shared
    unfold sharedAt
    rw [hshareds]
  refine h.trans ⟨hraised, ?_, ?_⟩
  · intro shared point hpoint
    rw [hat]
    exact .inl hpoint
  · intro shared source hsource
    rw [hat]
    exact .inl hsource

lemma Refreshed.congr (h : Refreshed s t) (hshareds : t'.shareds = t.shareds)
    (hmemories : t'.memories = t.memories) : Refreshed s t' := by
  apply h.raise hshareds
  intro shared
  unfold load sharedAt
  rw [hshareds, hmemories]

lemma Kept.refl (s : Core) : Kept s s := ⟨.refl s, .refl s, rfl⟩

lemma Kept.trans (h : Kept s t) (h' : Kept t u) : Kept s u :=
  ⟨h.toSettles.trans h'.toSettles, h.toRefreshed.trans h'.toRefreshed, h'.watcher.trans h.watcher⟩

/-- References accounted for, in a state that comes from `s`. -/
structure From (s : Core) (extra : Multiset Slot) (t : Core) : Prop where
  accounted : t.Accounted extra
  kept : Kept s t

lemma From.start (h : s.Accounted extra) : From s extra s := ⟨h, .refl s⟩

lemma From.regroup {extra' : Multiset Slot} (h : From s extra t) (heq : extra' = extra) :
    From s extra' t := heq ▸ h

/-- A change that touches neither owners nor handles. -/
lemma From.raise (h : From s extra t) (hpool : t'.pool = t.pool) (htaken : t'.taken = t.taken)
    (hsyncs : t'.syncs = t.syncs) (hshareds : t'.shareds = t.shareds)
    (hwatcher : t'.watcher = t.watcher) (hlost : t'.lost = t.lost)
    (hraised : ∀ shared, t.load shared .completed ≤ t'.load shared .completed) : From s extra t' := by
  refine ⟨h.accounted.congr ?_ ?_ ?_ ?_ hsyncs hshareds ?_ ?_, ?_⟩
  any_goals rw [hpool]
  any_goals rw [hwatcher]
  refine ⟨h.kept.toSettles.congr ?_ htaken hsyncs hshareds ?_ ?_ ?_,
    h.kept.toRefreshed.raise hshareds hraised, hwatcher.trans h.kept.watcher⟩
  · rw [hpool]
  · rw [hwatcher]
  · rw [hwatcher]
  · rw [hlost]
    exact fun h => h

lemma From.congr (h : From s extra t) (hpool : t'.pool = t.pool) (htaken : t'.taken = t.taken)
    (hsyncs : t'.syncs = t.syncs) (hshareds : t'.shareds = t.shareds)
    (hwatcher : t'.watcher = t.watcher) (hlost : t'.lost = t.lost)
    (hmemories : t'.memories = t.memories) : From s extra t' := by
  apply h.raise hpool htaken hsyncs hshareds hwatcher hlost
  intro shared
  unfold load sharedAt
  rw [hshareds, hmemories]

/-! ## Slots -/

lemma request_from (answer : ℕ → Result α) : Keeps (From s extra) (request answer) := by
  apply Spec.read
  intro t ht
  refine .write (From s extra) ?_ ?_
  · rintro _ rfl
    exact ht.congr rfl rfl rfl rfl rfl rfl rfl
  · exact .of_outcome (fun _ _ h _ => h) fun _ _ h _ => h

/-- `t` comes from `s` by allocations: what was referenced is as it was. -/
structure Grown (s t : Core) : Prop where
  rest : ∃ pool taken requests, t = { s with pool := pool, taken := taken, requests := requests }
  refs : ∀ slot, s.pool.refs slot ≠ 0 → t.pool.refs slot = s.pool.refs slot
  words : ∀ slot, s.pool.refs slot ≠ 0 → t.pool.words slot = s.pool.words slot
  view : t.pool.view = s.pool.view
  taken : ∀ slot, s.taken slot ≤ t.taken slot

lemma Grown.refl (s : Core) : Grown s s :=
  ⟨⟨_, _, _, rfl⟩, fun _ _ => rfl, fun _ _ => rfl, rfl, fun _ => le_rfl⟩

lemma Grown.trans (h : Grown s t) (h' : Grown t u) : Grown s u := by
  refine ⟨?_, ?_, ?_, h'.view.trans h.view, fun slot => (h.taken slot).trans (h'.taken slot)⟩
  · obtain ⟨pool, taken, requests, rfl⟩ := h.rest
    obtain ⟨pool', taken', requests', rfl⟩ := h'.rest
    exact ⟨pool', taken', requests', rfl⟩
  · intro slot hslot
    rw [h'.refs slot (by rw [h.refs slot hslot]; exact hslot), h.refs slot hslot]
  · intro slot hslot
    rw [h'.words slot (by rw [h.refs slot hslot]; exact hslot), h.words slot hslot]

lemma Grown.syncRef (h : Grown s t) (id : ℕ) : t.syncRef id = s.syncRef id := by
  obtain ⟨pool, taken, requests, rfl⟩ := h.rest
  rfl

lemma Grown.kept (h' : Grown t u) (h : Kept s t) : Kept s u := by
  obtain ⟨pool, taken, requests, rfl⟩ := h'.rest
  exact ⟨⟨⟨h.syncs, h.shareds, fun slot => (h.taken slot).trans (h'.taken slot)⟩, h.sharedSlots,
    h.gateSlots, h'.view.trans h.view, h.lost⟩, h.toRefreshed.congr rfl rfl, h.watcher⟩

/-- A slot in hand that had no reference in `s`. -/
structure Fresh (s : Core) (extra : Multiset Slot) (slot : Slot) (t : Core) : Prop where
  accounted : t.Accounted ({slot} + extra)
  grown : Grown s t
  free : s.pool.refs slot = 0
  taken : s.taken slot < t.taken slot

/-- An allocation after earlier growth. -/
lemma Fresh.after {slot : Slot} (h : Fresh t extra slot u) (hgrown : Grown s t) :
    Fresh s extra slot u := by
  refine ⟨h.accounted, hgrown.trans h.grown, ?_, (hgrown.taken slot).trans_lt h.taken⟩
  by_contra hne
  exact hne ((hgrown.refs slot hne).symm.trans h.free)

lemma Accounted.popped {slot : Slot} {pool : SlotPool} (h : s.Accounted extra)
    (halloc : s.pool.tryAllocate = some (slot, pool)) :
    Fresh s extra slot
      { s with pool := pool, taken := Function.update s.taken slot (s.taken slot + 1) } := by
  obtain ⟨hbalanced, hnot⟩ := h.balanced.tryAllocate halloc
  have hfree : s.pool.refs slot = 0 := by
    rw [h.balanced.count slot]
    exact Multiset.count_eq_zero_of_notMem hnot
  have hpool : pool.view = s.pool.view ∧ pool.closed = s.pool.closed ∧
      (∀ other, other ≠ slot → pool.refs other = s.pool.refs other) ∧
      ∀ other, other ≠ slot → pool.words other = s.pool.words other := by
    unfold SlotPool.tryAllocate at halloc
    split at halloc
    · cases halloc
    · cases halloc
      exact ⟨rfl, rfl, fun _ h => Function.update_of_ne h _ _, fun _ h => Function.update_of_ne h _ _⟩
  obtain ⟨hview, hclosed, hrefs, hwords⟩ := hpool
  have hne : ∀ other, s.pool.refs other ≠ 0 → other ≠ slot := by
    rintro other hother rfl
    exact hother hfree
  refine ⟨⟨?_, h.handles, hclosed.trans h.opened⟩, ⟨⟨_, _, _, rfl⟩, ?_, ?_, hview, ?_⟩, hfree, ?_⟩
  · refine (?_ : {slot} + (s.owners + extra) = s.owners + ({slot} + extra)) ▸ hbalanced
    abel
  · exact fun other hother => hrefs other (hne other hother)
  · exact fun other hother => hwords other (hne other hother)
  · intro other
    by_cases hother : other = slot
    · subst hother
      simp
    · simp [hother]
  · simp

/-- References accounted for, in a state that comes from `s` by allocations. -/
def Growing (s : Core) (extra : Multiset Slot) (t : Core) : Prop := t.Accounted extra ∧ Grown s t

lemma Growing.asked (h : Growing s extra t) : Growing s extra { t with requests := t.requests + 1 } :=
  ⟨h.1.congr rfl rfl rfl rfl rfl rfl rfl rfl,
    h.2.trans ⟨⟨_, _, _, rfl⟩, fun _ _ => rfl, fun _ _ => rfl, rfl, fun _ => le_rfl⟩⟩

lemma Growing.page {cpu gpu : ℕ} {pool : SlotPool} (h : Growing s extra t)
    (hinstall : t.pool.installPage cpu gpu = .ok pool) : Growing s extra { t with pool := pool } := by
  obtain ⟨ht, hgrown⟩ := h
  have hbalanced := ht.balanced.installPage hinstall
  unfold SlotPool.installPage at hinstall
  split_ifs at hinstall
  cases hinstall
  exact ⟨⟨hbalanced, ht.handles, ht.opened⟩, hgrown.trans
    ⟨⟨_, _, _, rfl⟩, fun _ _ => rfl, fun _ _ => rfl, rfl, fun _ => le_rfl⟩⟩

lemma request_grown (answer : ℕ → Result α) (h : s.Accounted extra) :
    Ends s (request answer) (Growing s extra) :=
  (request_spec (fun _ ht => ht.asked) answer).enter ⟨h, .refl s⟩

lemma grow_grown (h : s.Accounted extra) : Ends s (grow kernel) (Growing s extra) :=
  (grow_spec (fun _ ht => ht.asked) fun _ _ _ _ ht hpool => ht.page hpool).enter ⟨h, .refl s⟩

lemma slot_grown (h : s.Accounted extra) :
    Spec (s = ·) (slot kernel) (Fresh s extra) fun _ => Growing s extra :=
  (slot_spec (fun _ ht => ht.asked) (fun _ _ _ _ ht hpool => ht.page hpool)
    fun _ _ _ ht halloc => (ht.1.popped halloc).after ht.2).enter ⟨h, .refl s⟩

lemma slot_from :
    Spec (From s extra) (slot kernel)
      (fun slot t => From s ({slot} + extra) t ∧ s.taken slot < t.taken slot)
      fun _ => From s extra := by
  apply Spec.of_states
  intro t ht
  refine (slot_grown ht.accounted).post ?_ ?_
  · intro slot u hu
    exact ⟨⟨hu.accounted, hu.grown.kept ht.kept⟩, (ht.kept.taken slot).trans_lt hu.taken⟩
  · rintro _ u ⟨hu, hgrown⟩
    exact ⟨hu, hgrown.kept ht.kept⟩

/-! ## Foreign and shared payloads -/

lemma foreignStatus_from (foreign : ℕ) :
    Keeps (From s extra) (foreignStatus kernel foreign) := by
  apply Spec.read
  intro t ht
  dsimp only
  split_ifs
  · apply Spec.unchanged
    exact ht
  refine .seq ((request_from kernel.status).enter ht) ?_
  intro status
  split_ifs
  · refine .finish ?_
    intro u hu
    exact hu.congr rfl rfl rfl rfl rfl rfl rfl
  · exact .ret

lemma foreignReady_from (foreign : ℕ) (pending : Bool) :
    Keeps (From s extra) (foreignReady kernel foreign pending) := by
  refine .seq (foreignStatus_from foreign) ?_
  intro status
  split_ifs
  · exact .of_throw fun _ => id
  · exact .ret

lemma exec_maximum (t : Core) (shared : ℕ) (word : Word) (value : ℕ) :
    exec (maximum shared word value) t = (.ok (decide (t.load shared word < value)),
        t.setWord shared word (max (t.load shared word) value)) := rfl

lemma exec_store (t : Core) (shared : ℕ) (word : Word) (value : ℕ) :
    exec (store shared word value) t =
      (.ok (decide (t.load shared word ≠ value)), t.setWord shared word value) := rfl

/-- A payload reads the new value where it shares the memory and the word. -/
lemma load_setWord (t : Core) (shared other : ℕ) (word read : Word) (value : ℕ) :
    (t.setWord shared word value).load other read = t.load other read ∨
      read = word ∧ t.load other read = t.load shared word ∧
        (t.setWord shared word value).load other read = value := by
  show (t.memories.modify (t.sharedAt shared).memory _).getD (t.sharedAt other).memory _ read =
    t.load other read ∨ _ ∧ _ ∧
      (t.memories.modify (t.sharedAt shared).memory _).getD (t.sharedAt other).memory _ read = _
  simp only [load, List.getD_eq_getElem?_getD, List.getElem?_modify]
  by_cases hmemory : (t.sharedAt shared).memory = (t.sharedAt other).memory
  · simp only [hmemory, ↓reduceIte]
    cases t.memories[(t.sharedAt other).memory]? with
    | none => exact .inl rfl
    | some words =>
      by_cases hword : read = word
      · subst hword
        exact .inr ⟨rfl, rfl, Function.update_self ..⟩
      · exact .inl (Function.update_of_ne hword ..)
  · simp [hmemory]

lemma maximum_from (shared : ℕ) (word : Word) (value : ℕ) :
    Keeps (From s extra) (maximum shared word value) := by
  apply Spec.read
  intro t ht
  refine .last ?_
  refine ht.raise rfl rfl rfl rfl rfl rfl ?_
  intro other
  rcases load_setWord t shared other word .completed (max (t.load shared word) value) with
    hsame | ⟨_, hbefore, hafter⟩
  · exact hsame.ge
  · rw [hbefore, hafter]
    exact le_max_left _ _

lemma store_from (shared : ℕ) {word : Word} (value : ℕ) (hword : word ≠ .completed) :
    Keeps (From s extra) (store shared word value) := by
  apply Spec.read
  intro t ht
  refine .last ?_
  refine ht.raise rfl rfl rfl rfl rfl rfl ?_
  intro other
  rcases load_setWord t shared other word .completed value with hsame | ⟨heq, _⟩
  · exact hsame.ge
  · exact absurd heq.symm hword

lemma Settles.releaseAll (h : Settles s t) (slots : List Slot) :
    Settles s (t.releaseAll slots) := by
  apply h.congr (view_releaseAll t slots)
  all_goals rw [releaseAll_eq]
  exact fun h => h

lemma Settles.setShared {shared : ℕ} {object : Shared} {dropped : Multiset Slot} (h : Settles s t)
    (hsplit : (t.sharedAt shared).slots = object.slots + dropped) :
    Settles s (t.setShared shared object) := by
  refine ⟨⟨h.syncs, ?_, h.taken⟩, ?_, h.gateSlots, h.view, h.lost⟩
  · show (t.shareds.set shared object).length = _
    rw [List.length_set]
    exact h.shareds
  · refine le_trans ?_ h.sharedSlots
    rw [← sharedSlots_setShared hsplit]
    exact Multiset.le_add_right _ _

/-- The local slots that stay and those that are released. -/
lemma From.shrink {shared : ℕ} {object : Shared} {points sources : List Slot} (h : From s extra t)
    (hsplit : (t.sharedAt shared).slots = object.slots + ((points : Multiset Slot) +
      (sources : Multiset Slot)))
    (hdone : Refreshed t (t.setShared shared object)) :
    From s extra (((t.setShared shared object).releaseAll points).releaseAll sources) := by
  have hsettles := ((h.kept.setShared hsplit).releaseAll points).releaseAll sources
  refine ⟨?_, hsettles, ?_, ?_⟩
  · apply Accounted.releaseAll
    apply Accounted.releaseAll
    refine (h.accounted.shrink hsplit).regroup ?_
    abel
  · apply (h.kept.toRefreshed.trans hdone).congr
    all_goals rw [releaseAll_eq, releaseAll_eq]
  · rw [releaseAll_eq, releaseAll_eq]
    exact h.kept.watcher

lemma sharedAt_setShared (t : Core) (shared other : ℕ) (object : Shared) :
    (t.setShared shared object).sharedAt other = t.sharedAt other ∨
      other = shared ∧ (t.setShared shared object).sharedAt other = object := by
  unfold setShared sharedAt
  by_cases hother : shared = other
  · subst hother
    by_cases hlt : shared < t.shareds.length
    · simp [hlt]
    · simp [hlt]
  · simp [hother]

/-- A payload stays in its memory file. -/
lemma load_setShared {shared : ℕ} {object : Shared} (hmemory : object.memory = (t.sharedAt shared).memory)
    (other : ℕ) (word : Word) : (t.setShared shared object).load other word = t.load other word := by
  unfold load
  rcases sharedAt_setShared t shared other object with hsame | ⟨rfl, hset⟩
  · rw [hsame]
    rfl
  · rw [hset, hmemory]
    rfl

/-- Points and sources up to the completed value are dropped. -/
lemma refreshed_setShared {shared completed : ℕ} (hcompleted : completed = t.load shared .completed) :
    Refreshed t (t.setShared shared { t.sharedAt shared with
      points := (t.sharedAt shared).points.filter fun point => decide (completed < point.1)
      sources := (t.sharedAt shared).sources.filter fun source =>
        decide (completed < source.2) }) := by
  refine ⟨fun other => ge_of_eq ?_, ?_, ?_⟩
  · exact load_setShared (by rfl) other _
  all_goals
    intro other entry hentry
    rw [load_setShared]
    case hmemory => rfl
    rcases sharedAt_setShared t shared other _ with hsame | ⟨rfl, hset⟩
    · rw [hsame]
      exact .inl hentry
    · rw [hset, List.mem_filter, decide_eq_true_iff, ← hcompleted]
      exact (lt_or_ge completed _).imp (fun h => ⟨hentry, h⟩) id

/-- A list splits into what passes a test and the rest. -/
lemma coe_map_filter {β : Type} (list : List α) (f : α → β) (p : α → Bool) :
    ((list.map f : List β) : Multiset β) =
      ((list.filter p).map f : List β) + ((list.filter fun a => !p a).map f : List β) := by
  rw [Multiset.coe_add, ← List.map_append, Multiset.coe_eq_coe]
  exact ((List.filter_append_perm p list).map f).symm

lemma refresh_from (shared : ℕ) : Keeps (From s extra) (refresh shared) := by
  apply Spec.fetched
  intro t ht completed _
  have hraised : Spec (t = ·) (maximum shared .completed completed)
      (fun _ u => From s extra u ∧ u.sharedAt shared = t.sharedAt shared)
      fun _ => From s extra := by
    refine (((maximum_from shared .completed completed).enter ht).traced).post ?_ ?_
    · rintro _ u ⟨hu, hexec⟩
      cases hexec
      exact ⟨hu, rfl⟩
    · exact fun _ _ h => h.1
  refine .seq hraised ?_
  intro _
  apply Spec.read
  rintro u ⟨hu, hobject⟩
  refine .last ?_
  rw [← hobject]
  apply hu.shrink
  · simp only [Shared.slots]
    rw [coe_map_filter (u.sharedAt shared).points Prod.snd,
      coe_map_filter (u.sharedAt shared).sources Prod.fst]
    abel
  · exact refreshed_setShared rfl

lemma slot_accounted :
    Spec (·.Accounted extra) (slot kernel) (fun slot t => t.Accounted ({slot} + extra))
      fun _ t => t.Accounted extra := by
  apply Spec.of_states
  intro s hs
  exact (slot_grown hs).post (fun _ _ h => h.accounted) fun _ _ h => h.1

/-! ## Planning one payload -/

/-- A wait is planned on the payload the handle has. -/
def Waits (sync : SyncObj) : WaitPlan → Prop
  | .complete => True
  | .binary slot => sync.state.payload = .native slot ∧ sync.timeline = false
  | .timeline slot _ => sync.state.payload = .native slot
  | .foreign foreign => sync.state.payload = .foreign foreign
  | .shared shared _ => sync.state.payload = .shared shared

lemma planWait_from (sync : SyncObj) (value : ℕ) :
    Spec (From s extra) (planWait kernel sync value) (fun plan t => From s extra t ∧ Waits sync plan)
      fun _ => From s extra := by
  apply Spec.read
  intro t ht
  have hsame : ∀ u, t = u → From s extra u := fun u hu => hu ▸ ht
  cases hpayload : sync.state.payload with
  | native slot =>
    refine .branch (fun _ => ?_) fun hbinary => ?_
    · refine .given ht ?_
      intro current _
      refine .either (.of_pure fun u hu => ⟨hsame u hu, trivial⟩) ?_
      refine .given ht ?_
      intro _ _
      exact .of_pure fun u hu => ⟨hsame u hu, hpayload⟩
    · exact .of_pure fun u hu => ⟨hsame u hu, hpayload, by simpa using hbinary⟩
  | foreign foreign =>
    refine .seq ((foreignReady_from foreign false).enter ht) ?_
    intro ready
    cases ready with
    | true => exact .of_pure fun _ h => ⟨h, trivial⟩
    | false => exact .of_pure fun _ h => ⟨h, hpayload⟩
  | shared shared =>
    refine .seq ((refresh_from shared).enter ht) ?_
    intro _
    apply Spec.read
    intro u hu
    refine .given hu ?_
    intro ready _
    refine .either ?_ ?_
    · exact .of_pure fun v hv => ⟨hv ▸ hu, trivial⟩
    · exact .of_pure fun v hv => ⟨hv ▸ hu, hpayload⟩

end NvidiaProlapse.Core
