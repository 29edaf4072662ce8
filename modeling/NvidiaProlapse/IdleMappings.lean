import NvidiaProlapse.CpuMapCache

/-!
# The queue of idle mappings

Every operation of the cache keeps the queue: it holds exactly the slots with a
mapping and no reference. Evictions leave every slot in use alone, also those
that run inside the `make` of an acquire.
-/
namespace NvidiaProlapse.CpuMapCache
open DoublyLinked Option

variable {M : Type}

namespace Registry

/-! ## Operations keep the queue of idle mappings -/

/-- No reference and a mapping present. -/
def idle (r : Registry M) (i : ℕ) : Bool :=
  match r.entryOf i with
  | none => false
  | some e => e.refs = 0 && e.mapping.isSome

/-- The queue `l` holds exactly the idle slots, and a slot in use is mapped. -/
structure Valid (r : Registry M) (l : List ℕ) : Prop where
  linked : Linked r l
  idle_iff : ∀ i, i ∈ l ↔ r.idle i = true
  mapped : ∀ i e, r.entryOf i = some e → 0 < e.refs → e.mapping.isSome = true
  created_lt : ∀ i e, r.entryOf i = some e → i < r.created

variable {l : List ℕ} {r r' : Registry M} {i : ℕ} {cleanup : Cleanup M} {result : Result Bool}
  {evictions : List (Eviction M)}

/-- Each idle mapping has a slot of its own. -/
lemma Valid.length_le (h : Valid r l) : l.length ≤ r.created := by
  have hsub : l ⊆ List.range r.created := by
    intro i hi
    have hidle := (h.idle_iff i).mp hi
    unfold idle at hidle
    cases he : r.entryOf i with
    | none => simp [he] at hidle
    | some e => exact List.mem_range.mpr (h.created_lt i e he)
  simpa using (h.linked.isList.nodup.subperm hsub).length_le

lemma idle_congr (h : r'.entryOf i = r.entryOf i) : r'.idle i = r.idle i := by
  unfold idle
  rw [h]

lemma Linked.modifyEntry (h : Linked r l) (i : ℕ) (f : Entry M → Entry M) :
    Linked (r.modifyEntry i f) l := by
  refine ⟨by simpa using h.isList, ?_⟩
  intro j
  simpa [linkedOf] using h.linked_iff j

/-- Changing one entry: the slot must be on the new queue exactly when the new
entry is idle, and mapped when in use. -/
lemma Valid.of_entries {l' : List ℕ} (h : Valid r l) (hlinked : Linked r' l')
    (hcreated : r'.created = r.created) {e : Entry M}
    (hentry : ∀ j, r'.entryOf j = if j = i then some e else r.entryOf j)
    (hexists : r.entryOf i ≠ none) (hother : ∀ j, j ≠ i → (j ∈ l' ↔ j ∈ l))
    (hself : i ∈ l' ↔ e.refs = 0 ∧ e.mapping.isSome = true)
    (hmapped : 0 < e.refs → e.mapping.isSome = true) : Valid r' l' := by
  have hi : r'.entryOf i = some e := by simp [hentry]
  have hj : ∀ j, j ≠ i → r'.entryOf j = r.entryOf j := by
    intro j hj
    simp [hentry, hj]
  refine ⟨hlinked, ?_, ?_, ?_⟩
  · intro j
    by_cases heq : j = i
    · subst heq
      rw [hself]
      simp [idle, hi]
    · rw [hother j heq, idle_congr (hj j heq)]
      exact h.idle_iff j
  · intro j e' he'
    by_cases heq : j = i
    · subst heq
      rw [hi] at he'
      cases he'
      exact hmapped
    · rw [hj j heq] at he'
      exact h.mapped j e' he'
  · intro j e' he'
    rw [hcreated]
    by_cases heq : j = i
    · subst heq
      obtain ⟨old, hold⟩ := ne_none_iff_exists'.mp hexists
      exact h.created_lt j old hold
    · rw [hj j heq] at he'
      exact h.created_lt j e' he'

/-- What an operation other than a release leaves alone: slots in use and slots
without a mapping, and the life of every slot. -/
structure Keeps (r r' : Registry M) : Prop where
  busy : ∀ j e, r.entryOf j = some e → (0 < e.refs ∨ e.mapping = none) → r'.entryOf j = some e
  alive : ∀ j, r'.entryOf j = none ↔ r.entryOf j = none

lemma Keeps.refl (r : Registry M) : Keeps r r := ⟨fun _ _ he _ => he, fun _ => Iff.rfl⟩

lemma Keeps.trans {r'' : Registry M} (h : Keeps r r') (h' : Keeps r' r'') : Keeps r r'' where
  busy := fun j e he hb => h'.busy j e (h.busy j e he hb) hb
  alive := fun j => (h'.alive j).trans (h.alive j)

lemma Keeps.of_entries {old new : Entry M} (hold : r.entryOf i = some old)
    (hidle : old.refs = 0 ∧ old.mapping ≠ none)
    (hnew : ∀ j, r'.entryOf j = if j = i then some new else r.entryOf j) : Keeps r r' := by
  constructor
  · intro j e he hb
    have hj : j ≠ i := by
      intro heq
      rw [heq, hold] at he
      cases he
      rcases hb with hb | hb
      · omega
      · exact hidle.2 hb
    rw [hnew j, if_neg hj]
    exact he
  · intro j
    rw [hnew j]
    by_cases hj : j = i
    · simp [hj, hold]
    · simp [hj]

/-- An eviction does nothing, or it tries the cleanup of an idle mapping. -/
lemma evict_cases (hevict : r.evict i cleanup = some (result, r')) : ∃ s, r.slots i = some s ∧
      ((result = .ok false ∧ r' = r) ∨ s.entry.refs = 0 ∧ s.entry.mapping ≠ none ∧
          ((∃ e left, result = .error e ∧ r' = r.modifyEntry i fun entry =>
              { entry with mapping := some left, failed := true }) ∨
            (result = .ok true ∧ r' = (r.modifyEntry i fun entry =>
              { entry with mapping := none, failed := false }).unlink i))) := by
  unfold evict at hevict
  cases hs : r.slots i with
  | none => simp [hs] at hevict
  | some s =>
    refine ⟨s, rfl, ?_⟩
    simp only [hs] at hevict
    by_cases hrefs : s.entry.refs = 0
    · simp only [ne_eq, hrefs, not_true, if_false] at hevict
      cases hmap : s.entry.mapping with
      | none =>
        simp only [hmap, some.injEq, Prod.mk.injEq] at hevict
        exact .inl ⟨hevict.1.symm, hevict.2.symm⟩
      | some m =>
        simp only [hmap] at hevict
        refine .inr ⟨hrefs, by simp, ?_⟩
        cases hc : cleanup m with
        | error failure =>
          obtain ⟨e, left⟩ := failure
          simp only [hc, some.injEq, Prod.mk.injEq] at hevict
          exact .inl ⟨e, left, hevict.1.symm, hevict.2.symm⟩
        | ok _ =>
          simp only [hc, some.injEq, Prod.mk.injEq] at hevict
          exact .inr ⟨hevict.1.symm, hevict.2.symm⟩
    · simp only [ne_eq, hrefs, not_false_eq_true, if_true, some.injEq, Prod.mk.injEq] at hevict
      exact .inl ⟨hevict.1.symm, hevict.2.symm⟩

lemma entryOf_set {e : Entry M} (he : r.entryOf i = some e) (f : Entry M → Entry M) (j : ℕ) :
    (r.modifyEntry i f).entryOf j = if j = i then some (f e) else r.entryOf j := by
  simp [entryOf_modifyEntry, he]

lemma evict_valid (h : Valid r l) (hevict : r.evict i cleanup = some (result, r')) :
    ∃ l', Valid r' l' ∧ l'.Sublist l ∧ Keeps r r' := by
  obtain ⟨s, hs, ⟨_, rfl⟩ | ⟨hrefs, hmap, hcleanup⟩⟩ := evict_cases hevict
  · exact ⟨l, h, List.Sublist.refl l, .refl _⟩
  have hentry := (slots_eq_some hs).2
  have hmem : i ∈ l := by
    rw [h.idle_iff]
    simp [idle, hentry, hrefs, isSome_iff_ne_none.mpr hmap]
  rcases hcleanup with ⟨e, left, _, rfl⟩ | ⟨_, rfl⟩
  · have hnew := entryOf_set hentry fun entry => { entry with mapping := some left, failed := true }
    exact ⟨l, h.of_entries (h.linked.modifyEntry i _) rfl hnew (by simp [hentry])
      (fun _ _ => Iff.rfl) (by simp [hmem, hrefs]) (by simp), List.Sublist.refl l,
      Keeps.of_entries hentry ⟨hrefs, hmap⟩ hnew⟩
  · have hs' : (r.modifyEntry i fun entry =>
        { entry with mapping := none, failed := false }).slots i =
        some { s with entry := { s.entry with mapping := none, failed := false } } := by
      simp [modifyEntry, modifySlot, hs]
    have hlinked := (h.linked.modifyEntry i _).unlink hs'
    have hnew := fun j => (entryOf_unlink _ i j).trans
      (entryOf_set hentry (fun entry => { entry with mapping := none, failed := false }) j)
    have hnodup := h.linked.isList.nodup
    exact ⟨l.erase i, h.of_entries hlinked (created_unlink _ _) hnew (by simp [hentry])
      (fun j hj => by simp [hnodup.mem_erase_iff, hj])
      (by simp [hnodup.mem_erase_iff]) (by simp [hrefs]), List.erase_sublist,
      Keeps.of_entries hentry ⟨hrefs, hmap⟩ hnew⟩

lemma evictBy_valid {eviction : Eviction M} (h : Valid r l)
    (hevict : r.evictBy eviction = some (result, r')) :
    ∃ l', Valid r' l' ∧ l'.Sublist l ∧ Keeps r r' := by
  cases eviction with
  | slot i cleanup => exact evict_valid h hevict
  | one cleanup =>
    simp only [evictBy, evictOne] at hevict
    split at hevict
    · exact evict_valid h hevict
    · obtain ⟨_, rfl⟩ := hevict
      exact ⟨l, h, List.Sublist.refl l, .refl _⟩

/-- Any number of evictions inside `make`. -/
lemma evictAll_valid (h : Valid r l) (hevict : r.evictAll evictions = some r') :
    ∃ l', Valid r' l' ∧ l'.Sublist l ∧ Keeps r r' := by
  induction evictions generalizing r l with
  | nil =>
    cases hevict
    exact ⟨l, h, List.Sublist.refl l, .refl _⟩
  | cons eviction rest ih =>
    simp only [evictAll] at hevict
    split at hevict
    · cases hevict
    next out hone =>
      obtain ⟨l₁, hvalid, hsub, hkeep⟩ := evictBy_valid h hone
      obtain ⟨l₂, hvalid', hsub', hkeep'⟩ := ih hvalid hevict
      exact ⟨l₂, hvalid', hsub'.trans hsub, hkeep.trans hkeep'⟩

/-- An acquire is refused, takes an idle or shared mapping, or makes one. -/
lemma acquire_cases {made result : Result M}
    (hacquire : r.acquire i evictions made = some (result, r')) : ∃ s, r.slots i = some s ∧
      (((∃ e, result = .error e) ∧ r' = r ∧ (s.entry.failed = true ∨ 2 ^ 32 ≤ s.entry.refs + 1)) ∨
        s.entry.failed = false ∧ s.entry.refs + 1 < 2 ^ 32 ∧
          ((s.entry.mapping ≠ none ∧ r' = (r.unlink i).modifyEntry i fun entry =>
              { entry with refs := s.entry.refs + 1 }) ∨
            (s.entry.mapping = none ∧ ∃ r₁, (r.unlink i).evictAll evictions = some r₁ ∧
              (r' = r₁ ∨ ∃ m, r' = r₁.modifyEntry i fun entry =>
                { entry with mapping := some m, refs := s.entry.refs + 1 })))) := by
  unfold acquire at hacquire
  cases hs : r.slots i with
  | none => simp [hs] at hacquire
  | some s =>
    refine ⟨s, rfl, ?_⟩
    simp only [hs] at hacquire
    by_cases hfailed : s.entry.failed = true
    · simp only [if_pos hfailed, some.injEq, Prod.mk.injEq] at hacquire
      exact .inl ⟨⟨_, hacquire.1.symm⟩, hacquire.2.symm, .inl hfailed⟩
    simp only [if_neg hfailed] at hacquire
    by_cases hover : 2 ^ 32 ≤ s.entry.refs + 1
    · simp only [if_pos hover, some.injEq, Prod.mk.injEq] at hacquire
      exact .inl ⟨⟨_, hacquire.1.symm⟩, hacquire.2.symm, .inr hover⟩
    simp only [if_neg hover] at hacquire
    refine .inr ⟨by simpa using hfailed, by omega, ?_⟩
    cases hmap : s.entry.mapping with
    | some m =>
      simp only [hmap, some.injEq, Prod.mk.injEq] at hacquire
      exact .inl ⟨by simp, hacquire.2.symm⟩
    | none =>
      simp only [hmap] at hacquire
      cases hall : (r.unlink i).evictAll evictions with
      | none => simp [hall] at hacquire
      | some r₁ =>
        refine .inr ⟨rfl, r₁, rfl, ?_⟩
        simp only [hall] at hacquire
        cases made with
        | error e =>
          simp only [some.injEq, Prod.mk.injEq] at hacquire
          exact .inl hacquire.2.symm
        | ok m =>
          simp only [some.injEq, Prod.mk.injEq] at hacquire
          exact .inr ⟨m, hacquire.2.symm⟩

/-- A slot without a mapping is on no queue, and unlinking it changes nothing. -/
lemma Valid.unlink_unmapped {s : Slot M} (h : Valid r l) (hs : r.slots i = some s)
    (hmap : s.entry.mapping = none) : Valid (r.unlink i) l := by
  have hentry := (slots_eq_some hs).2
  have hnot : i ∉ l := by
    rw [h.idle_iff]
    simp [idle, hentry, hmap]
  have hlinked := h.linked.unlink hs
  rw [List.erase_of_not_mem hnot] at hlinked
  have hsame : ∀ j, (r.unlink i).entryOf j = if j = i then some s.entry else r.entryOf j := by
    intro j
    rw [entryOf_unlink]
    split_ifs with hj
    · rw [hj, hentry]
    · rfl
  exact h.of_entries hlinked (created_unlink _ _) hsame (by simp [hentry]) (fun _ _ => Iff.rfl)
    (by simp [hnot, hmap]) (h.mapped i s.entry hentry)

/-- An acquire takes its own slot off the queue. A slot in use keeps its mapping. -/
lemma acquire_valid {made result : Result M} (h : Valid r l)
    (hacquire : r.acquire i evictions made = some (result, r')) : ∃ l', Valid r' l' ∧ l'.Sublist l ∧
      ∀ j e, r.entryOf j = some e → 0 < e.refs →
        ∃ e', r'.entryOf j = some e' ∧ e'.mapping = e.mapping := by
  obtain ⟨s, hs, ⟨_, rfl, _⟩ | ⟨_, _, hcase⟩⟩ := acquire_cases hacquire
  · exact ⟨l, h, List.Sublist.refl l, fun j e he _ => ⟨e, he, rfl⟩⟩
  have hentry := (slots_eq_some hs).2
  have hnodup := h.linked.isList.nodup
  have hlinked := h.linked.unlink hs
  rcases hcase with ⟨hmap, rfl⟩ | ⟨hmap, r₁, hall, hmade⟩
  · have hnew : ∀ j, ((r.unlink i).modifyEntry i fun entry =>
        { entry with refs := s.entry.refs + 1 }).entryOf j =
        if j = i then some { s.entry with refs := s.entry.refs + 1 } else r.entryOf j := by
      simp [entryOf_modifyEntry, hentry]
    refine ⟨l.erase i, h.of_entries (hlinked.modifyEntry i _) (created_unlink _ _) hnew (by simp [hentry])
      (fun j hj => by simp [hnodup.mem_erase_iff, hj]) (by simp [hnodup.mem_erase_iff])
      (fun _ => isSome_iff_ne_none.mpr hmap), List.erase_sublist, ?_⟩
    intro j e he _
    by_cases hj : j = i
    · subst hj
      rw [hentry] at he
      cases he
      exact ⟨{ s.entry with refs := s.entry.refs + 1 }, by rw [hnew, if_pos rfl], rfl⟩
    · exact ⟨e, by rw [hnew, if_neg hj, he], rfl⟩
  · obtain ⟨l₁, hvalid₁, hsub, hkeeps⟩ := evictAll_valid (h.unlink_unmapped hs hmap) hall
    have hentry₁ : r₁.entryOf i = some s.entry :=
      hkeeps.busy i s.entry (by rw [entryOf_unlink, hentry]) (.inr hmap)
    have hbusy : ∀ j e, r.entryOf j = some e → 0 < e.refs → r₁.entryOf j = some e := by
      intro j e he hrefs
      exact hkeeps.busy j e (by rw [entryOf_unlink, he]) (.inl hrefs)
    rcases hmade with rfl | ⟨m, rfl⟩
    · exact ⟨l₁, hvalid₁, hsub, fun j e he hrefs => ⟨e, hbusy j e he hrefs, rfl⟩⟩
    have hnew := entryOf_set hentry₁ fun entry =>
      { entry with mapping := some m, refs := s.entry.refs + 1 }
    have hnot₁ : i ∉ l₁ := by
      rw [hvalid₁.idle_iff]
      simp [idle, hentry₁, hmap]
    refine ⟨l₁, hvalid₁.of_entries (hvalid₁.linked.modifyEntry i _) rfl hnew
      (by simp [hentry₁]) (fun _ _ => Iff.rfl) (by simp [hnot₁]) (by simp), hsub, ?_⟩
    intro j e he hrefs
    have hj : j ≠ i := by
      intro heq
      rw [heq, hentry] at he
      cases he
      have := h.mapped i s.entry hentry hrefs
      simp [hmap] at this
    exact ⟨e, by rw [hnew, if_neg hj, hbusy j e he hrefs], rfl⟩

/-- A release of a live slot returns, and on success the slot may join the queue
as its newest idle mapping. Other slots keep their entries. -/
lemma release_valid {retainIdle : M → Bool} {s : Slot M} (h : Valid r l) (hs : r.slots i = some s) :
    ∃ result r' l', r.release retainIdle i cleanup = some (result, r') ∧ Valid r' l' ∧
      (l'.Sublist l ∨ i ∉ l ∧ l' = l ++ [i]) ∧ r'.created = r.created ∧
      ∀ j, j ≠ i → r'.entryOf j = r.entryOf j := by
  have hentry := (slots_eq_some hs).2
  unfold release
  simp only [hs]
  by_cases hrefs : s.entry.refs = 0
  · simp only [if_pos hrefs]
    exact ⟨_, r, l, rfl, h, .inl (List.Sublist.refl l), rfl, fun _ _ => rfl⟩
  simp only [if_neg hrefs]
  have hsome := h.mapped i s.entry hentry (Nat.pos_of_ne_zero hrefs)
  obtain ⟨m, hmap⟩ := isSome_iff_exists.mp hsome
  have hnot : i ∉ l := by
    rw [h.idle_iff]
    simp [idle, hentry, hrefs]
  have hset := entryOf_set hentry
  have hothers : ∀ (f : Entry M → Entry M) (j : ℕ), j ≠ i →
      (r.modifyEntry i f).entryOf j = r.entryOf j := by
    intro f j hj
    rw [hset, if_neg hj]
  have hmodify : ∀ f : Entry M → Entry M,
      ¬ ((f s.entry).refs = 0 ∧ (f s.entry).mapping.isSome = true) →
      (0 < (f s.entry).refs → (f s.entry).mapping.isSome = true) →
      Valid (r.modifyEntry i f) l := by
    intro f hidle hmapped
    exact h.of_entries (h.linked.modifyEntry i f) rfl (hset f) (by simp [hentry])
      (fun _ _ => Iff.rfl) (by simp only [hnot, false_iff]; exact hidle) hmapped
  simp only [hmap]
  by_cases hlast : s.entry.refs - 1 = 0 ∧ retainIdle m = false
  · simp only [if_pos hlast]
    cases hc : cleanup m with
    | error failure =>
      exact ⟨_, _, l, rfl, hmodify _ (by simp [hrefs]) (by simp), .inl (List.Sublist.refl l),
        rfl, hothers _⟩
    | ok _ =>
      exact ⟨_, _, l, rfl, hmodify _ (by simp) (by simp [hlast.1]),
        Or.inl (List.Sublist.refl l), rfl, hothers _⟩
  · simp only [if_neg hlast]
    by_cases hzero : s.entry.refs - 1 = 0
    · have hs' : (r.modifyEntry i fun entry => { entry with refs := s.entry.refs - 1 }).slots i =
          some { s with entry := { s.entry with refs := s.entry.refs - 1 } } := by
        simp [modifyEntry, modifySlot, hs]
      obtain ⟨r', hqueue, hlinked, hcreated, hkeep⟩ :=
        enqueueIdle_spec (h.linked.modifyEntry i _) hs' hnot
      have hnew : ∀ j, r'.entryOf j =
          if j = i then some { s.entry with refs := s.entry.refs - 1 } else r.entryOf j := by
        intro j
        rw [hkeep j, hset]
      simp only [if_pos hzero, hqueue]
      refine ⟨_, r', l ++ [i], rfl, h.of_entries hlinked hcreated hnew (by simp [hentry])
        (fun j hj => by simp [hj]) (by simp [hzero, hmap]) (by simp [hmap]),
        Or.inr ⟨hnot, rfl⟩, hcreated, ?_⟩
      intro j hj
      rw [hnew, if_neg hj]
    · simp only [if_neg hzero]
      exact ⟨_, _, l, rfl, hmodify _ (by simp [hzero]) (by simp [hmap]),
        Or.inl (List.Sublist.refl l), rfl, hothers _⟩

lemma drop_valid (h : Valid r l) (hdrop : r.drop i = some r') :
    Valid r' (l.erase i) ∧ ∀ j, j ≠ i → r'.entryOf j = r.entryOf j := by
  obtain ⟨hlinked, hcreated, hentries⟩ := drop_spec h.linked hdrop
  have hnodup := h.linked.isList.nodup
  have hother : ∀ j, j ≠ i → r'.entryOf j = r.entryOf j := by
    intro j hj
    rw [hentries, if_neg hj]
  have hgone : r'.entryOf i = none := by rw [hentries, if_pos rfl]
  refine ⟨⟨hlinked, ?_, ?_, ?_⟩, hother⟩
  · intro j
    rw [hnodup.mem_erase_iff]
    by_cases hj : j = i
    · simp [hj, idle, hgone]
    · rw [idle_congr (hother j hj), ← h.idle_iff j]
      simp [hj]
  · intro j e he
    by_cases hj : j = i
    · rw [hj, hgone] at he
      cases he
    · rw [hother j hj] at he
      exact h.mapped j e he
  · intro j e he
    rw [hcreated]
    by_cases hj : j = i
    · rw [hj, hgone] at he
      cases he
    · rw [hother j hj] at he
      exact h.created_lt j e he

end Registry

end NvidiaProlapse.CpuMapCache
