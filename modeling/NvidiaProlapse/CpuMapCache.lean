import NvidiaProlapse.DoublyLinked
import NvidiaProlapse.Fences

/-!
# The cache of idle CPU mappings

Slots of cpu_map_cache.rs are numbered in the order they were created; a weak
pointer is such a number and upgrades while the slot lives. The registry itself
is alive throughout. Operations on a slot return `none` if it was dropped, which
no caller can see, or where the source asserts.
-/
namespace NvidiaProlapse.CpuMapCache
open DoublyLinked Function List

variable {M : Type}

structure Entry (M : Type) where
  mapping : Option M
  refs : ℕ
  failed : Bool

structure Links where
  previous : Option ℕ
  next : Option ℕ
  linked : Bool
  deriving DecidableEq, Repr

def Links.unlinked : Links := ⟨none, none, false⟩

structure Slot (M : Type) where
  entry : Entry M
  links : Links

structure Registry (M : Type) where
  slots : ℕ → Option (Slot M)
  created : ℕ
  head : Option ℕ
  tail : Option ℕ

/-- The outcome of a lease release: success, or an error and what it left of the
mapping. -/
abbrev Cleanup (M : Type) := M → Except (Error × M) Unit

namespace Registry

def new : Registry M where
  slots := fun _ => none
  created := 0
  head := none
  tail := none

variable (r : Registry M)

def slot : Registry M :=
  { r with
    slots := Function.update r.slots r.created (some ⟨⟨none, 0, false⟩, .unlinked⟩)
    created := r.created + 1 }

def upgrade (weak : Option ℕ) : Option ℕ :=
  weak.filter fun i => (r.slots i).isSome

def modifySlot (i : ℕ) (f : Slot M → Slot M) : Registry M :=
  { r with slots := Function.update r.slots i ((r.slots i).map f) }

def modifyLinks (i : ℕ) (f : Links → Links) : Registry M :=
  r.modifySlot i fun s => { s with links := f s.links }

def modifyEntry (i : ℕ) (f : Entry M → Entry M) : Registry M :=
  r.modifySlot i fun s => { s with entry := f s.entry }

def linkNext (previous next : Option ℕ) : Registry M :=
  match r.upgrade previous with
  | some p => r.modifyLinks p fun l => { l with next := next }
  | none => { r with head := next }

def linkPrevious (previous next : Option ℕ) : Registry M :=
  match r.upgrade next with
  | some n => r.modifyLinks n fun l => { l with previous := previous }
  | none => { r with tail := previous }

/-- The neighbours of taken links, once they are out of the slot. -/
def joinNeighbors (links : Links) : Registry M :=
  if links.linked then
    (r.linkNext links.previous links.next).linkPrevious links.previous links.next
  else r

def unlink (i : ℕ) : Registry M :=
  match r.slots i with
  | none => r
  | some s => (r.modifyLinks i fun _ => .unlinked).joinNeighbors s.links

/-- `none` is the assertion that the slot is not indexed. -/
def enqueueIdle (i : ℕ) : Option (Registry M) :=
  match r.slots i with
  | none => none
  | some s =>
    if s.links.linked then none
    else
      let linked := (r.linkNext r.tail (some i)).modifyLinks i fun _ => ⟨r.tail, none, true⟩
      some { linked with tail := some i }

/-- The destructor: the slot no longer upgrades when it unlinks. -/
def drop (i : ℕ) : Option (Registry M) :=
  match r.slots i with
  | none => none
  | some s => some (({ r with slots := Function.update r.slots i none }).joinNeighbors s.links)

def evict (i : ℕ) (cleanup : Cleanup M) : Option (Result Bool × Registry M) :=
  match r.slots i with
  | none => none
  | some s =>
    if s.entry.refs ≠ 0 then some (.ok false, r)
    else
      match s.entry.mapping with
      | none => some (.ok false, r)
      | some m =>
        match cleanup m with
        | .error (e, left) =>
          some (.error e, r.modifyEntry i fun entry =>
            { entry with mapping := some left, failed := true })
        | .ok () =>
          some (.ok true, (r.modifyEntry i fun entry =>
            { entry with mapping := none, failed := false }).unlink i)

/-- An eviction names its slot or takes the head of the queue. -/
inductive Eviction (M : Type) where
  | slot (i : ℕ) (cleanup : Cleanup M)
  | one (cleanup : Cleanup M)

def evictOne (cleanup : Cleanup M) : Option (Result Bool × Registry M) :=
  match r.upgrade r.head with
  | some i => r.evict i cleanup
  | none => some (.ok false, r)

def evictBy : Eviction M → Option (Result Bool × Registry M)
  | .slot i cleanup => r.evict i cleanup
  | .one cleanup => r.evictOne cleanup

def evictAll : Registry M → List (Eviction M) → Option (Registry M)
  | r, [] => some r
  | r, e :: rest =>
    match r.evictBy e with
    | none => none
    | some (_, r') => evictAll r' rest

/-- The address handed out is that of the returned mapping. `make` runs with the
slot unlinked, evicts what it evicts and ends with `made`. -/
def acquire (i : ℕ) (evictions : List (Eviction M)) (made : Result M) :
    Option (Result M × Registry M) :=
  match r.slots i with
  | none => none
  | some s =>
    if s.entry.failed then
      some (.error (.deviceLost "CPU mapping slot has incomplete cleanup"), r)
    else if 2 ^ 32 ≤ s.entry.refs + 1 then
      some (.error (.contract "CPU mapping reference overflow"), r)
    else
      let refs := s.entry.refs + 1
      match s.entry.mapping with
      | some m => some (.ok m, (r.unlink i).modifyEntry i fun entry => { entry with refs := refs })
      | none =>
        match (r.unlink i).evictAll evictions with
        | none => none
        | some r' =>
          match made with
          | .error e => some (.error e, r')
          | .ok m => some (.ok m, r'.modifyEntry i fun entry =>
              { entry with mapping := some m, refs := refs })

/-- Failed cleanup preserves the reference and the partial lease. -/
def release (retainIdle : M → Bool) (r : Registry M) (i : ℕ) (cleanup : Cleanup M) :
    Option (Result Unit × Registry M) :=
  match r.slots i with
  | none => none
  | some s =>
    if s.entry.refs = 0 then some (.error (.contract "unmap RM memory without a CPU map"), r)
    else
      match s.entry.mapping with
      | none => some (.error (.contract "CPU map reference has no owned mapping"), r)
      | some m =>
        let refs := s.entry.refs - 1
        if refs = 0 ∧ retainIdle m = false then
          match cleanup m with
          | .error (e, left) =>
            some (.error e, r.modifyEntry i fun entry =>
              { entry with mapping := some left, failed := true })
          | .ok () => some (.ok (), r.modifyEntry i fun _ => ⟨none, refs, false⟩)
        else
          let kept := r.modifyEntry i fun entry => { entry with refs := refs }
          if refs = 0 then
            match kept.enqueueIdle i with
            | none => none
            | some r' => some (.ok (), r')
          else some (.ok (), kept)

/-! ## Entries and links -/

def entryOf (i : ℕ) : Option (Entry M) := (r.slots i).map Slot.entry
def linksOf (i : ℕ) : Option Links := (r.slots i).map Slot.links

/-- The queue as a doubly linked list of slot numbers. -/
def pointers : Pointers ℕ where
  head := r.head
  tail := r.tail
  next := fun i => (r.linksOf i).bind Links.next
  prev := fun i => (r.linksOf i).bind Links.previous

lemma isSome_linksOf (i : ℕ) : (r.linksOf i).isSome = (r.slots i).isSome := by
  simp [linksOf]

@[simp] lemma entryOf_modifyLinks (i j : ℕ) (f : Links → Links) :
    (r.modifyLinks i f).entryOf j = r.entryOf j := by
  by_cases h : j = i
  · subst h
    simp [entryOf, modifyLinks, modifySlot, comp_def]
  · simp [entryOf, modifyLinks, modifySlot, h]

lemma linksOf_modifyLinks (i j : ℕ) (f : Links → Links) :
    (r.modifyLinks i f).linksOf j = if j = i then (r.linksOf i).map f else r.linksOf j := by
  by_cases h : j = i
  · subst h
    simp [linksOf, modifyLinks, modifySlot, comp_def]
  · simp [linksOf, modifyLinks, modifySlot, h]

lemma entryOf_modifyEntry (i j : ℕ) (f : Entry M → Entry M) :
    (r.modifyEntry i f).entryOf j = if j = i then (r.entryOf i).map f else r.entryOf j := by
  by_cases h : j = i
  · subst h
    simp [entryOf, modifyEntry, modifySlot, comp_def]
  · simp [entryOf, modifyEntry, modifySlot, h]

@[simp] lemma linksOf_modifyEntry (i j : ℕ) (f : Entry M → Entry M) :
    (r.modifyEntry i f).linksOf j = r.linksOf j := by
  by_cases h : j = i
  · subst h
    simp [linksOf, modifyEntry, modifySlot, comp_def]
  · simp [linksOf, modifyEntry, modifySlot, h]

@[simp] lemma pointers_modifyEntry (i : ℕ) (f : Entry M → Entry M) :
    (r.modifyEntry i f).pointers = r.pointers := by
  simp only [pointers, linksOf_modifyEntry]
  rfl

variable {i : ℕ} {r : Registry M} {l : List ℕ} {s : Slot M}

variable {k links : Links} {r' : Registry M}

lemma upgrade_some (h : r.linksOf i = some k) : r.upgrade (some i) = some i := by
  have hsome : (r.slots i).isSome = true := by
    rw [← isSome_linksOf, h]
    rfl
  simp [upgrade, Option.filter, hsome]

/-- Only a slot that is alive is named. -/
def Alive (r : Registry M) (weak : Option ℕ) : Prop := ∀ i, weak = some i → ∃ k, r.linksOf i = some k

section

variable (r : Registry M)

@[simp] lemma entryOf_linkNext (previous next : Option ℕ) (j : ℕ) :
    (r.linkNext previous next).entryOf j = r.entryOf j := by
  unfold linkNext
  split
  · simp
  · rfl

@[simp] lemma entryOf_linkPrevious (previous next : Option ℕ) (j : ℕ) :
    (r.linkPrevious previous next).entryOf j = r.entryOf j := by
  unfold linkPrevious
  split
  · simp
  · rfl

@[simp] lemma entryOf_joinNeighbors (links : Links) (j : ℕ) :
    (r.joinNeighbors links).entryOf j = r.entryOf j := by
  unfold joinNeighbors
  split_ifs
  · simp
  · rfl

@[simp] lemma entryOf_unlink (i j : ℕ) : (r.unlink i).entryOf j = r.entryOf j := by
  unfold unlink
  split
  · rfl
  · simp

@[simp] lemma created_linkNext (previous next : Option ℕ) :
    (r.linkNext previous next).created = r.created := by
  unfold linkNext
  split <;> rfl

@[simp] lemma created_linkPrevious (previous next : Option ℕ) :
    (r.linkPrevious previous next).created = r.created := by
  unfold linkPrevious
  split <;> rfl

@[simp] lemma created_joinNeighbors (links : Links) :
    (r.joinNeighbors links).created = r.created := by
  unfold joinNeighbors
  split_ifs <;> simp

@[simp] lemma created_unlink (i : ℕ) : (r.unlink i).created = r.created := by
  unfold unlink
  split
  · rfl
  · rw [created_joinNeighbors]
    rfl

end

/-- What is linked, without where to. -/
def linkedOf (r : Registry M) (i : ℕ) : Option Bool := (r.linksOf i).map Links.linked

lemma linksOf_setTail (r : Registry M) (tail : Option ℕ) (j : ℕ) :
    ({ r with tail := tail } : Registry M).linksOf j = r.linksOf j := rfl

lemma pointers_modifyLinks (f : Links → Links) (h : r.linksOf i = some k) :
    (r.modifyLinks i f).pointers = ⟨r.head, r.tail, Function.update r.pointers.next i (f k).next,
      Function.update r.pointers.prev i (f k).previous⟩ := by
  simp only [pointers, linksOf_modifyLinks, Pointers.mk.injEq]
  refine ⟨rfl, rfl, ?_, ?_⟩
  all_goals
    funext j
    by_cases hj : j = i
    · simp [hj, h]
    · simp [hj]

lemma linkedOf_modifyLinks {f : Links → Links} (h : r.linksOf i = some k)
    (hf : (f k).linked = k.linked) (j : ℕ) : (r.modifyLinks i f).linkedOf j = r.linkedOf j := by
  by_cases hj : j = i
  · simp [linkedOf, linksOf_modifyLinks, hj, h, hf]
  · simp [linkedOf, linksOf_modifyLinks, hj]

lemma linkNext_spec {previous : Option ℕ} (next : Option ℕ) (h : r.Alive previous) :
    (r.linkNext previous next).pointers = r.pointers.setNext previous next ∧
      ∀ j, (r.linkNext previous next).linkedOf j = r.linkedOf j := by
  cases previous with
  | none => exact ⟨rfl, fun j => rfl⟩
  | some p =>
    obtain ⟨k, hk⟩ := h p rfl
    have hsame : k.previous = r.pointers.prev p := by simp [pointers, hk]
    simp only [linkNext, upgrade_some hk]
    refine ⟨?_, linkedOf_modifyLinks hk rfl⟩
    rw [pointers_modifyLinks _ hk, hsame, update_eq_self]
    rfl

lemma linkPrevious_spec {next : Option ℕ} (previous : Option ℕ) (h : r.Alive next) :
    (r.linkPrevious previous next).pointers = r.pointers.setPrev previous next ∧
      ∀ j, (r.linkPrevious previous next).linkedOf j = r.linkedOf j := by
  cases next with
  | none => exact ⟨rfl, fun j => rfl⟩
  | some n =>
    obtain ⟨k, hk⟩ := h n rfl
    have hsame : k.next = r.pointers.next n := by simp [pointers, hk]
    simp only [linkPrevious, upgrade_some hk]
    refine ⟨?_, linkedOf_modifyLinks hk rfl⟩
    rw [pointers_modifyLinks _ hk, hsame, update_eq_self]
    rfl

lemma alive_iff {weak : Option ℕ} : r.Alive weak ↔ ∀ i, weak = some i → r.linkedOf i ≠ none := by
  simp [Alive, linkedOf, Option.ne_none_iff_exists']

/-- Joining the neighbours of taken links joins the pointers around them. -/
lemma joinNeighbors_spec (hlinked : links.linked = true) (hprev : r.Alive links.previous)
    (hnext : r.Alive links.next) :
    (r.joinNeighbors links).pointers = r.pointers.join links.previous links.next ∧
      ∀ j, (r.joinNeighbors links).linkedOf j = r.linkedOf j := by
  obtain ⟨hpointers, hsame⟩ := linkNext_spec links.next hprev
  have hnext' : (r.linkNext links.previous links.next).Alive links.next := by
    rw [alive_iff] at hnext ⊢
    intro i hi
    rw [hsame i]
    exact hnext i hi
  obtain ⟨hpointers', hsame'⟩ := linkPrevious_spec links.previous hnext'
  simp only [joinNeighbors, hlinked, if_true]
  refine ⟨?_, fun j => (hsame' j).trans (hsame j)⟩
  rw [hpointers', hpointers]
  rfl

lemma entryOf_setTail (r : Registry M) (tail : Option ℕ) (j : ℕ) :
    ({ r with tail := tail } : Registry M).entryOf j = r.entryOf j := rfl

lemma pointers_linkLast {tail : Option ℕ} (h : r.linksOf i = some k) :
    ({ r.modifyLinks i fun _ => ⟨tail, none, true⟩ with tail := some i } : Registry M).pointers =
      ⟨r.pointers.head, some i, Function.update r.pointers.next i none,
        Function.update r.pointers.prev i tail⟩ := by
  show { (r.modifyLinks i _).pointers with tail := some i } = _
  rw [pointers_modifyLinks _ h]
  rfl

/-- The linked slots are those of `l`, in this order. -/
structure Linked (r : Registry M) (l : List ℕ) : Prop where
  isList : IsList r.pointers l
  linked_iff : ∀ i, r.linkedOf i = some true ↔ i ∈ l

lemma Linked.alive (h : Linked r l) (hi : i ∈ l) : r.linkedOf i ≠ none := by
  rw [(h.linked_iff i).mpr hi]
  simp

/-- A slot whose links were taken leaves the queue once its neighbours are joined. -/
lemma Linked.detach (h : Linked r l) (hlinks : r.linksOf i = some links) (hhead : r'.head = r.head)
    (htail : r'.tail = r.tail) (hsame : ∀ j, j ≠ i → r'.linksOf j = r.linksOf j)
    (htaken : r'.linkedOf i ≠ some true) : Linked (r'.joinNeighbors links) (l.erase i) := by
  have hlinked : ∀ j, j ≠ i → r'.linkedOf j = r.linkedOf j := by
    intro j hj
    simp only [linkedOf, hsame j hj]
  have hnext : ∀ j, j ≠ i → r'.pointers.next j = r.pointers.next j := by
    intro j hj
    simp only [pointers, hsame j hj]
  have hprev : ∀ j, j ≠ i → r'.pointers.prev j = r.pointers.prev j := by
    intro j hj
    simp [pointers, hsame j hj]
  have hiff : ∀ j, r'.linkedOf j = some true ↔ j ∈ l.erase i := by
    intro j
    rw [h.isList.nodup.mem_erase_iff]
    by_cases hj : j = i
    · subst hj
      simp [htaken]
    · rw [hlinked j hj, h.linked_iff j]
      simp [hj]
  by_cases hi : i ∈ l
  · have htrue : links.linked = true := by
      have := (h.linked_iff i).mpr hi
      simpa [linkedOf, hlinks] using this
    obtain ⟨xs, ys, rfl⟩ := append_of_mem hi
    have hxs : i ∉ xs := by
      intro hmem
      exact (disjoint_of_nodup_append h.isList.nodup) hmem (by simp)
    have herase : (xs ++ i :: ys).erase i = xs ++ ys := by
      rw [erase_append_right _ hxs, erase_cons_head]
    have hp : links.previous = xs.getLast? := by
      simpa [pointers, hlinks] using h.isList.prev_eq xs i ys rfl
    have hn : links.next = ys.head? := by
      simpa [pointers, hlinks] using h.isList.next_eq xs i ys rfl
    have halive : ∀ j ∈ xs ++ ys, r'.linkedOf j ≠ none := by
      intro j hj
      rw [← herase, ← hiff j] at hj
      simp [hj]
    obtain ⟨hpointers, hkeep⟩ := joinNeighbors_spec (r := r') htrue
      (alive_iff.mpr fun j hj => halive j (mem_append_left _ (mem_of_getLast? (hp ▸ hj))))
      (alive_iff.mpr fun j hj => halive j (mem_append_right _ (mem_of_head? (hn ▸ hj))))
    constructor
    · rw [hpointers, herase, hp, hn]
      exact h.isList.remove hhead htail hnext hprev
    · intro j
      rw [hkeep j]
      exact hiff j
  · have hfalse : links.linked = false := by
      have := mt (h.linked_iff i).mp hi
      simpa [linkedOf, hlinks] using this
    have hnoop : r'.joinNeighbors links = r' := by simp [joinNeighbors, hfalse]
    rw [hnoop, erase_of_not_mem hi]
    rw [erase_of_not_mem hi] at hiff
    have hne : ∀ j ∈ l, j ≠ i := fun j hj heq => hi (heq ▸ hj)
    exact ⟨h.isList.congr hhead htail (fun j hj => hnext j (hne j hj))
      (fun j hj => hprev j (hne j hj)), hiff⟩

lemma slots_eq_some (h : r.slots i = some s) :
    r.linksOf i = some s.links ∧ r.entryOf i = some s.entry := by
  simp [linksOf, entryOf, h]

lemma Linked.unlink (h : Linked r l) (hs : r.slots i = some s) : Linked (r.unlink i) (l.erase i) := by
  have hlinks := (slots_eq_some hs).1
  simp only [Registry.unlink, hs]
  exact h.detach hlinks rfl rfl (fun j hj => by simp [linksOf_modifyLinks, hj])
    (by simp [linkedOf, linksOf_modifyLinks, hlinks, Links.unlinked])

lemma drop_spec (h : Linked r l) (hdrop : r.drop i = some r') :
    Linked r' (l.erase i) ∧ r'.created = r.created ∧
      ∀ j, r'.entryOf j = if j = i then none else r.entryOf j := by
  unfold drop at hdrop
  split at hdrop
  · cases hdrop
  next s hs =>
    cases hdrop
    have hlinks := (slots_eq_some hs).1
    refine ⟨h.detach hlinks rfl rfl (fun j hj => by simp [linksOf, hj])
      (by simp [linkedOf, linksOf]), created_joinNeighbors _ _, ?_⟩
    intro j
    rw [entryOf_joinNeighbors]
    by_cases hj : j = i
    all_goals simp [entryOf, hj]

/-- A slot off the queue is linked behind the tail; the assertion holds. -/
lemma enqueueIdle_spec (h : Linked r l) (hs : r.slots i = some s) (hi : i ∉ l) :
    ∃ r', r.enqueueIdle i = some r' ∧ Linked r' (l ++ [i]) ∧ r'.created = r.created ∧
      ∀ j, r'.entryOf j = r.entryOf j := by
  have hlinks := (slots_eq_some hs).1
  have hfalse : s.links.linked = false := by
    have := mt (h.linked_iff i).mp hi
    simpa [linkedOf, hlinks] using this
  have halive : r.Alive r.tail := by
    rw [alive_iff]
    intro j hj
    apply h.alive
    apply mem_of_getLast?
    rw [← h.isList.tail_eq]
    exact hj
  obtain ⟨hpointers, hkeep⟩ := linkNext_spec (some i) halive
  obtain ⟨k, hk⟩ : ∃ k, (r.linkNext r.tail (some i)).linksOf i = some k := by
    have hsome := hkeep i
    simp only [linkedOf, hlinks] at hsome
    exact (Option.map_eq_some_iff.mp hsome).imp fun k hk => hk.1
  simp only [enqueueIdle, hs, hfalse]
  refine ⟨_, rfl, ⟨?_, ?_⟩, created_linkNext _ _ _, ?_⟩
  · rw [pointers_linkLast hk, hpointers, Pointers.prev_setNext]
    exact h.isList.push hi
  · intro j
    have hj' := hkeep j
    by_cases hj : j = i
    · simp [linkedOf, linksOf_setTail, linksOf_modifyLinks, hj, hk]
    · simp only [linkedOf] at hj'
      simp only [linkedOf, linksOf_setTail, linksOf_modifyLinks, hj, if_false, hj']
      simpa [linkedOf, hj] using h.linked_iff j
  · intro j
    simp [entryOf_setTail]

end Registry

end NvidiaProlapse.CpuMapCache
