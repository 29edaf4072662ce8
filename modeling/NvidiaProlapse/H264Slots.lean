import NvidiaProlapse.H264
import NvidiaProlapse.Runs
import Mathlib.Data.List.GetD

/-!
# Colocated slots and DPB positions

Every reference with a surface holds the slot that is recorded for this surface. Marking
only removes references and changes their long-term index, and the current picture takes
a free position, so a reference never moves. The record of slots outlives references,
flushes and failed pictures.
-/
namespace NvidiaProlapse.H264.Decoder

open Programs Video Runs List

variable {d d' t : Decoder} {r : RefPic} {i slot surface : ℕ}

/-- The entry at a position. -/
def entry (d : Decoder) (i : ℕ) : Option RefPic := d.dpb.getD i none

def surfaceOf (d : Decoder) (slot : ℕ) : Option ℕ := d.slotSurface.getD slot none

lemma mem_refs : r ∈ d.refs ↔ ∃ i, d.entry i = some r := by
  unfold refs
  rw [reduceOption_mem_iff, mem_iff_getElem?]
  constructor
  · rintro ⟨i, hi⟩
    exact ⟨i, by rw [entry, getD_eq_getElem?_getD, hi]; rfl⟩
  rintro ⟨i, hi⟩
  refine ⟨i, ?_⟩
  rw [entry, getD_eq_getElem?_getD] at hi
  cases hget : d.dpb[i]? with
  | none => simp [hget] at hi
  | some e =>
    rw [hget] at hi
    rw [show e = some r from hi]

lemma entry_lt (h : d.entry i = some r) : i < d.dpb.length := by
  by_contra hle
  rw [entry, getD_eq_default _ _ (by omega)] at h
  cases h

lemma entry_setDpb (d : Decoder) (i j : ℕ) (e : Option RefPic) :
    (setDpb i e d).entry j = if i = j ∧ i < d.dpb.length then e else d.entry j := by
  unfold entry setDpb
  by_cases hij : i = j
  · subst hij
    by_cases hi : i < d.dpb.length
    · simp [hi]
    · simp [hi]
  · simp [hij]

lemma entry_replicate (n : ℕ) (hd : d.dpb = List.replicate n none) : d.entry i = none := by
  unfold entry
  rw [hd, getD_eq_getElem?_getD, getElem?_replicate]
  split_ifs <;> rfl

/-! ## Retained references -/

/-- An entry is gone or still the same picture. -/
def Kept (e e' : Option RefPic) : Prop :=
  e' = none ∨ ∃ r idx, e = some r ∧ e' = some { r with longTermIdx := idx }

lemma Kept.refl (e : Option RefPic) : Kept e e := by
  cases e with
  | none => exact .inl rfl
  | some r => exact .inr ⟨r, r.longTermIdx, rfl, rfl⟩

lemma Kept.trans {a b c : Option RefPic} (hab : Kept a b) (hbc : Kept b c) : Kept a c := by
  rcases hbc with rfl | ⟨r, idx, rfl, rfl⟩
  · exact .inl rfl
  rcases hab with hnone | ⟨r', idx', rfl, hr⟩
  · cases hnone
  · cases hr
    exact .inr ⟨r', idx, rfl, rfl⟩

/-- References only left, and those that stayed kept their position, surface and slot. -/
structure Retains (d t : Decoder) : Prop where
  positions : t.dpb.length = d.dpb.length
  slots : t.slotSurface = d.slotSurface
  kept : ∀ i, Kept (d.entry i) (t.entry i)

lemma Retains.refl (d : Decoder) : Retains d d := ⟨rfl, rfl, fun _ => .refl _⟩

lemma Retains.trans {d t u : Decoder} (h : Retains d t) (h' : Retains t u) : Retains d u :=
  ⟨h'.positions.trans h.positions, h'.slots.trans h.slots, fun i => (h.kept i).trans (h'.kept i)⟩

/-- What is still there was there before, at the same position. -/
lemma Retains.entry_eq (h : Retains d t) (hi : t.entry i = some r) :
    ∃ r' idx, d.entry i = some r' ∧ r = { r' with longTermIdx := idx } := by
  rcases h.kept i with hnone | ⟨r', idx, hr', hr⟩
  · rw [hnone] at hi
    cases hi
  · rw [hr] at hi
    cases hi
    exact ⟨r', idx, hr', rfl⟩

/-- Only the DPB and the record of slots matter. -/
lemma Retains.congr (h : Retains d t) (hdpb : d'.dpb = t.dpb)
    (hslots : d'.slotSurface = t.slotSurface) : Retains d d' := by
  refine ⟨by rw [hdpb, h.positions], by rw [hslots, h.slots], ?_⟩
  intro i
  have hentry : d'.entry i = t.entry i := by rw [entry, entry, hdpb]
  rw [hentry]
  exact h.kept i

lemma Retains.setDpb (h : Retains d t) {e : Option RefPic} (he : Kept (t.entry i) e) :
    Retains d (setDpb i e t) := by
  refine h.trans ⟨by simp [Decoder.setDpb], rfl, ?_⟩
  intro j
  rw [entry_setDpb]
  split_ifs with hj
  · rw [← hj.1]
    exact he
  · exact .refl _

lemma Retains.clear (h : Retains d t) (hlength : d.dpb.length = dpbPositions)
    (hdpb : d'.dpb = List.replicate dpbPositions none) (hslots : d'.slotSurface = t.slotSurface) :
    Retains d d' := by
  refine ⟨by rw [hdpb, length_replicate, hlength], by rw [hslots, h.slots], ?_⟩
  intro i
  exact .inl (entry_replicate _ hdpb)

lemma entry_dropRefs (p : RefPic → Bool) (d : Decoder) (i : ℕ) :
    (dropRefs p d).entry i = (d.entry i).filter fun r => !p r := by
  unfold entry dropRefs
  rw [getD_eq_getElem?_getD, getD_eq_getElem?_getD, getElem?_map]
  cases d.dpb[i]? with
  | none => rfl
  | some e => rfl

lemma Retains.dropRefs (h : Retains d t) (p : RefPic → Bool) : Retains d (dropRefs p t) := by
  refine h.trans ⟨by simp [Decoder.dropRefs], rfl, ?_⟩
  intro i
  rw [entry_dropRefs]
  cases t.entry i with
  | none => exact .inl rfl
  | some r =>
    cases hp : p r with
    | true => exact .inl (by simp [Option.filter, hp])
    | false => exact .inr ⟨r, r.longTermIdx, rfl, by simp [Option.filter, hp]⟩

/-! ## Marking -/

lemma slidingWindow_keeps {inv : Decoder → Prop} (hclear : ∀ {d} i, inv d → inv (setDpb i none d))
    (sps : Sps) (frameNum : ℕ) : Keeps inv (slidingWindow sps frameNum) := by
  refine .read fun t ht => ?_
  refine .either ?_ (.unchanged ht)
  split
  · exact .of_modify fun _ h => h ▸ hclear _ ht
  · exact .refused ht

lemma freeLong_retains (idx : ℕ) (target : Option ℕ) : Keeps (Retains d) (freeLong idx target) := by
  refine .read fun t ht => ?_
  split
  · refine (.onlyIf ?_ : Keeps (Retains d) _).enter ht
    exact .of_modify fun _ h => h.setDpb (.inl rfl)
  · exact .unchanged ht

section

variable (hlength : d.dpb.length = dpbPositions)

include hlength

lemma applyMmco_retains (frameNum max : ℕ) (m : Marking) (op : Mmco) :
    Keeps (Retains d) (applyMmco frameNum max m op) := by
  cases op with
  | shortUnused diff =>
    refine .read fun t ht => ?_
    dsimp only
    split
    · exact .write (Retains d) (fun _ h => h ▸ ht.setDpb (.inl rfl)) Spec.ret
    · exact .refused ht
  | longUnused n =>
    refine .read fun t ht => ?_
    split
    · exact .write (Retains d) (fun _ h => h ▸ ht.setDpb (.inl rfl)) Spec.ret
    · exact .refused ht
  | shortToLong diff idx =>
    refine .read fun t ht => ?_
    refine .guarded ht fun _ => ?_
    refine .next ((freeLong_retains idx _).enter ht) ?_
    split
    next i _ =>
      refine .write (Retains d) (fun u h => h.setDpb ?_) Spec.ret
      show Kept (u.entry i) ((u.entry i).map _)
      cases u.entry i with
      | none => exact .inl rfl
      | some r => exact .inr ⟨r, some idx, rfl, rfl⟩
    next => exact .raise
  | maxLongTermIdx plus1 =>
    refine .write (Retains d) (fun t ht => ?_) Spec.ret
    exact (ht.dropRefs _).congr rfl rfl
  | reset =>
    exact .write (Retains d) (fun t ht => ht.clear hlength rfl rfl) Spec.ret
  | currentToLong idx =>
    refine .read fun t ht => ?_
    refine .guarded ht fun _ => ?_
    exact .write (Retains d) (fun _ h => h ▸ ht.dropRefs _) Spec.ret

lemma applyMmcos_retains (frameNum max : ℕ) (ops : List Mmco) (m : Marking) :
    Keeps (Retains d) (applyMmcos frameNum max ops m) := by
  induction ops generalizing m with
  | nil => exact .ret
  | cons op ops ih => exact .seq (applyMmco_retains hlength frameNum max m op) fun m => ih m

lemma markRefs_retains (h : SliceHeader) (sps : Sps) : Keeps (Retains d) (markRefs h sps) := by
  refine .either ?_ ?_
  · exact .write (Retains d) (fun t ht => ht.congr rfl rfl) Spec.ret
  · split
    · exact applyMmcos_retains hlength _ _ _ _
    · exact .next (slidingWindow_keeps (fun _ ht => ht.setDpb (.inl rfl)) sps _) Spec.ret

end

/-- A reference was put into a free position. -/
def Inserted (r : RefPic) (d t : Decoder) : Prop :=
  ∃ i < d.dpb.length, d.entry i = none ∧ t.dpb = d.dpb.set i (some r) ∧
    t.slotSurface = d.slotSurface

lemma insertRef_sets (r : RefPic) :
    Spec (d = ·) (insertRef r)
      (fun _ t => ∃ i < d.dpb.length, d.entry i = none ∧ t = setDpb i (some r) d)
      fun _ => (d = ·) := by
  refine .look ?_
  split
  next i hfind =>
    obtain ⟨hi, hnone, -⟩ := findIdx?_eq_some_iff_getElem.mp hfind
    refine .change ?_
    refine ⟨i, hi, ?_, rfl⟩
    rw [entry, getD_eq_getElem _ _ hi]
    exact Option.isNone_iff_eq_none.mp hnone
  · exact .raise

lemma insertRef_inserts (r : RefPic) :
    Spec (d = ·) (insertRef r) (fun _ => Inserted r d) fun _ => (d = ·) := by
  refine (insertRef_sets r).after ?_
  rintro _ _ ⟨i, hi, hnone, rfl⟩
  exact ⟨i, hi, hnone, rfl, rfl⟩

lemma Inserted.entry (h : Inserted r d t) :
    ∃ i < d.dpb.length, d.entry i = none ∧ ∀ j, t.entry j = if i = j then some r else d.entry j := by
  obtain ⟨i, hi, hnone, hdpb, -⟩ := h
  refine ⟨i, hi, hnone, ?_⟩
  intro j
  have hset := entry_setDpb d i j (some r)
  simp only [hi, and_true] at hset
  rw [← hset]
  show t.dpb.getD j none = (d.dpb.set i (some r)).getD j none
  rw [hdpb]

/-- References were retained, and the current picture may have joined them. -/
def Marked (surface slot : ℕ) (d t : Decoder) : Prop :=
  ∃ u, Retains d u ∧
    (Retains u t ∨ ∃ r, r.surface = some surface ∧ r.slot = some slot ∧ Inserted r u t)

lemma insertCurrent_marks (h : SliceHeader) (sps : Sps) (m : Marking) (poc : ℤ × ℤ)
    (surface slot : ℕ) :
    Spec (Retains d) (insertCurrent h sps m poc surface slot) (fun _ => Marked surface slot d)
      fun _ => Retains d := by
  refine .read fun t ht => ?_
  refine .guarded ht fun _ => ?_
  refine (insertRef_inserts _).post (fun _ u hu => ?_) fun _ _ h => h ▸ ht
  exact ⟨t, ht, .inr ⟨_, rfl, rfl, hu⟩⟩

lemma mark_marks (hlength : d.dpb.length = dpbPositions) (h : SliceHeader) (sps : Sps)
    (poc : ℤ × ℤ) (msb : ℤ) (surface slot : ℕ) :
    Spec (Retains d) (mark h sps poc msb surface slot) (fun _ => Marked surface slot d)
      fun _ => Retains d := by
  refine .either ?_ ?_
  · refine .of_modify fun t ht => ?_
    exact ⟨t, ht, .inl ((Retains.refl t).congr rfl rfl)⟩
  refine .keeping (markRefs_retains hlength h sps) (fun _ _ h => h) fun m => ?_
  refine .next (insertCurrent_marks h sps m _ surface slot) ?_
  refine .of_modify ?_
  rintro t ⟨u, hu, hcase⟩
  refine ⟨u, hu, ?_⟩
  rcases hcase with hkept | ⟨r, hsurface, hslot, i, hi, hnone, hdpb, hslots⟩
  · exact .inl (hkept.congr rfl rfl)
  · exact .inr ⟨r, hsurface, hslot, i, hi, hnone, hdpb, hslots⟩

/-! ## The record of slots -/

lemma lt_of_surfaceOf {s x : ℕ} (h : d.surfaceOf s = some x) : s < d.slotSurface.length := by
  by_contra hle
  rw [surfaceOf, getD_eq_default _ _ (by omega)] at h
  cases h

/-- An entry without a picture has neither slot nor surface, any other the slot that is
recorded for its surface. -/
def Placed (d : Decoder) (r : RefPic) : Prop :=
  (r.slot = none ∧ r.surface = none) ∨
    ∃ slot surface, r.slot = some slot ∧ r.surface = some surface ∧ d.surfaceOf slot = some surface

structure Slotted (d : Decoder) : Prop where
  positions : d.dpb.length = dpbPositions
  slots : d.slotSurface.length = maxSlots
  placed : ∀ i r, d.entry i = some r → Placed d r
  distinct : ∀ i j r r' x, d.entry i = some r → d.entry j = some r' → r.surface = some x →
    r'.surface = some x → i = j
  sticky : ∀ s s' x, d.surfaceOf s = some x → d.surfaceOf s' = some x → s = s'

lemma slotted_new (newH264 : Bool) : Slotted { newH264 := newH264 } := by
  have hempty : ∀ i, entry { newH264 := newH264 } i = none :=
    fun i => entry_replicate dpbPositions rfl
  refine ⟨rfl, rfl, ?_, ?_, ?_⟩
  · intro i r hi
    rw [hempty] at hi
    cases hi
  · intro i j r r' x hi
    rw [hempty] at hi
    cases hi
  intro s s' x hs
  unfold surfaceOf at hs
  rw [getD_eq_getElem?_getD, getElem?_replicate] at hs
  split_ifs at hs <;> cases hs

lemma Placed.congr (h : Placed d r) (hslots : t.slotSurface = d.slotSurface) : Placed t r := by
  have hof : ∀ s, t.surfaceOf s = d.surfaceOf s := by
    intro s
    rw [surfaceOf, surfaceOf, hslots]
  rcases h with h | ⟨s, x, hs, hx, hrecord⟩
  · exact .inl h
  · exact .inr ⟨s, x, hs, hx, by rw [hof, hrecord]⟩

section

variable (h : Slotted d)

include h

/-- The slot of a reference is recorded for its surface. -/
lemma Slotted.recorded (hr : r ∈ d.refs) (hslot : r.slot = some slot) :
    ∃ x, r.surface = some x ∧ d.surfaceOf slot = some x := by
  obtain ⟨i, hi⟩ := mem_refs.mp hr
  rcases h.placed i r hi with ⟨hnone, -⟩ | ⟨s, x, hs, hx, hrecord⟩
  · rw [hnone] at hslot
    cases hslot
  rw [hs] at hslot
  cases hslot
  exact ⟨x, hx, hrecord⟩

lemma Slotted.retains (ht : Retains d t) : Slotted t := by
  refine ⟨ht.positions.trans h.positions, by rw [ht.slots, h.slots], ?_, ?_, ?_⟩
  · intro i r hi
    obtain ⟨r', idx, hr', rfl⟩ := ht.entry_eq hi
    exact (h.placed i r' hr').congr ht.slots
  · intro i j r r' x hi hj hx hx'
    obtain ⟨a, idx, ha, rfl⟩ := ht.entry_eq hi
    obtain ⟨b, idx', hb, rfl⟩ := ht.entry_eq hj
    exact h.distinct i j a b x ha hb hx hx'
  · intro s s' x
    simp only [surfaceOf, ht.slots]
    exact h.sticky s s' x

lemma Slotted.inserted (ht : Inserted r d t) (hplaced : Placed d r)
    (hnew : ∀ x, r.surface = some x → x ∉ d.referencedSurfaces) : Slotted t := by
  have hslots : t.slotSurface = d.slotSurface := by
    obtain ⟨_, _, _, _, hslots⟩ := ht
    exact hslots
  have hlength : t.dpb.length = d.dpb.length := by
    obtain ⟨_, _, _, hdpb, _⟩ := ht
    rw [hdpb, length_set]
  obtain ⟨k, hk, hnone, hentry⟩ := ht.entry
  have hother : ∀ j r' x, d.entry j = some r' → r'.surface = some x → r.surface ≠ some x := by
    intro j r' x hj hx hr
    exact hnew x hr (mem_filterMap.mpr ⟨r', mem_refs.mpr ⟨j, hj⟩, hx⟩)
  refine ⟨hlength.trans h.positions, by rw [hslots, h.slots], ?_, ?_, ?_⟩
  · intro i r' hi
    rw [hentry] at hi
    split_ifs at hi with hik
    · cases hi
      exact hplaced.congr hslots
    · exact (h.placed i r' hi).congr hslots
  · intro i j a b x hi hj ha hb
    rw [hentry] at hi hj
    split_ifs at hi hj with hik hjk
    · rw [← hik, ← hjk]
    · cases hi
      exact absurd ha (hother j b x hj hb)
    · cases hj
      exact absurd hb (hother i a x hi ha)
    · exact h.distinct i j a b x hi hj ha hb
  · intro s s' x
    simp only [surfaceOf, hslots]
    exact h.sticky s s' x

/-! ## The slot of the current picture -/

/-- There are more slots than references. -/
lemma Slotted.exists_free : ∃ s < maxSlots, s ∉ d.refs.filterMap RefPic.slot := by
  by_contra hall
  push Not at hall
  have hsub : List.range maxSlots ⊆ d.refs.filterMap RefPic.slot := by
    intro s hs
    exact hall s (mem_range.mp hs)
  have hle := (subperm_of_subset nodup_range hsub).length_le
  have hrefs : d.refs.length ≤ dpbPositions := by
    rw [← h.positions]
    exact reduceOption_length_le d.dpb
  have hslots := length_filterMap_le RefPic.slot d.refs
  simp only [length_range, maxSlots] at hle
  simp only [dpbPositions] at hrefs
  omega

lemma Slotted.colocatedSlot_isSome (surface : ℕ) : (d.colocatedSlot surface).isSome := by
  unfold colocatedSlot
  split
  · rfl
  split
  · rfl
  · obtain ⟨s, hs, hfree⟩ := h.exists_free
    rw [find?_isSome]
    exact ⟨s, mem_range.mpr hs, by simpa using hfree⟩

/-- The chosen slot is recorded for the surface, or it is nobody's slot. -/
lemma Slotted.colocatedSlot_eq (hslot : d.colocatedSlot surface = some slot) :
    slot < maxSlots ∧ (d.surfaceOf slot = some surface ∨
      (∀ s, d.surfaceOf s ≠ some surface) ∧ ∀ r ∈ d.refs, r.slot ≠ some slot) := by
  have hat : ∀ {s : ℕ} (hs : s < d.slotSurface.length), d.surfaceOf s = d.slotSurface[s] :=
    getD_eq_getElem _ _
  unfold colocatedSlot at hslot
  split at hslot
  next s hfind =>
    cases hslot
    obtain ⟨hlt, heq, -⟩ := findIdx?_eq_some_iff_getElem.mp hfind
    refine ⟨h.slots ▸ hlt, .inl ?_⟩
    rw [hat hlt]
    simpa using heq
  next hfind =>
    have hnew : ∀ s, d.surfaceOf s ≠ some surface := by
      intro s hs
      have hlt := lt_of_surfaceOf hs
      have hmem : some surface ∈ d.slotSurface := by
        rw [← hs, hat hlt]
        exact getElem_mem hlt
      simpa using findIdx?_eq_none_iff.mp hfind _ hmem
    split at hslot
    next s hunassigned =>
      cases hslot
      obtain ⟨hlt, heq, -⟩ := findIdx?_eq_some_iff_getElem.mp hunassigned
      refine ⟨h.slots ▸ hlt, .inr ⟨hnew, ?_⟩⟩
      intro r hr hrs
      obtain ⟨x, -, hrecord⟩ := h.recorded hr hrs
      rw [hat hlt, Option.isNone_iff_eq_none.mp heq] at hrecord
      cases hrecord
    next =>
      have hmem := mem_of_find?_eq_some hslot
      have hfree := find?_some hslot
      refine ⟨mem_range.mp hmem, .inr ⟨hnew, ?_⟩⟩
      intro r hr hrs
      have hnot : slot ∉ d.refs.filterMap RefPic.slot := by simpa using hfree
      exact hnot (mem_filterMap.mpr ⟨r, hr, hrs⟩)

/-- A target that is not a reference gets a slot that no reference holds. -/
lemma Slotted.slot_free (htarget : surface ∉ d.referencedSurfaces)
    (hslot : d.colocatedSlot surface = some slot) : ∀ r ∈ d.refs, r.slot ≠ some slot := by
  intro r hr hrs
  rcases (h.colocatedSlot_eq hslot).2 with hrecord | ⟨-, hfree⟩
  · obtain ⟨x, hx, hsx⟩ := h.recorded hr hrs
    rw [hrecord] at hsx
    cases hsx
    exact htarget (mem_filterMap.mpr ⟨r, hr, hx⟩)
  · exact hfree r hr hrs

lemma surfaceOf_assignSlot (hlt : slot < maxSlots) (surface s : ℕ) :
    (assignSlot surface slot d).surfaceOf s =
      if slot = s then some surface else d.surfaceOf s := by
  unfold surfaceOf assignSlot
  rw [getD_eq_getElem?_getD, getD_eq_getElem?_getD, getElem?_set, h.slots]
  split_ifs <;> simp_all

lemma Slotted.assignSlot (htarget : surface ∉ d.referencedSurfaces)
    (hslot : d.colocatedSlot surface = some slot) : Slotted (assignSlot surface slot d) := by
  obtain ⟨hlt, hcase⟩ := h.colocatedSlot_eq hslot
  have hfree := h.slot_free htarget hslot
  have hof := surfaceOf_assignSlot h hlt surface
  refine ⟨h.positions, by simp [Decoder.assignSlot, h.slots], ?_, h.distinct, ?_⟩
  · intro i r hi
    rcases h.placed i r hi with hnone | ⟨s, x, hs, hx, hsx⟩
    · exact .inl hnone
    refine .inr ⟨s, x, hs, hx, ?_⟩
    rw [hof, if_neg, hsx]
    rintro rfl
    exact hfree r (mem_refs.mpr ⟨i, hi⟩) hs
  · intro s s' x hs hs'
    rw [hof] at hs hs'
    rcases hcase with hrecord | ⟨hnew, -⟩
    · split_ifs at hs hs' with hss hss'
      · rw [← hss, ← hss']
      · cases hs
        exact absurd (h.sticky slot s' surface hrecord hs') hss'
      · cases hs'
        exact absurd (h.sticky slot s surface hrecord hs) hss
      · exact h.sticky s s' x hs hs'
    · split_ifs at hs hs' with hss hss'
      · rw [← hss, ← hss']
      · cases hs
        exact absurd hs' (hnew s')
      · cases hs'
        exact absurd hs (hnew s)
      · exact h.sticky s s' x hs hs'

end

/-! ## Parameter sets and slices -/

section Tables

variable {inv : Decoder → Prop}
  (hinv : ∀ d sps pps, inv d → inv { d with sps := sps, pps := pps })

include hinv

lemma parameterSet_keeps (nal : Nal) : Keeps inv (parameterSet nal) := by
  cases nal with
  | sps parsed =>
    refine .compute (fun s _ => ?_) fun _ _ _ h => h
    exact .write inv (fun d hd => hinv d _ d.pps hd) Spec.ret
  | pps parsed =>
    refine .read fun d hd => .given hd fun s _ => ?_
    exact .write inv (fun t h => h ▸ hinv d d.sps _ hd) Spec.ret
  | subsetSps => exact .raise
  | slice slice | partition | extension | other => exact .ret

lemma collect_keeps (nals : List Nal) (pic : Option Coded) : Keeps inv (collect nals pic) := by
  induction nals generalizing pic with
  | nil => exact .ret
  | cons nal nals ih =>
    refine .seq (parameterSet_keeps hinv nal) fun stored => ?_
    cases stored with
    | true => exact ih pic
    | false =>
      cases nal with
      | slice slice =>
        refine .read fun d hd => .given hd fun p _ => ?_
        exact (ih (some p)).enter hd
      | partition | extension => exact .raise
      | sps parsed | pps parsed | subsetSps | other => exact ih pic

end Tables

/-! ## Runs -/

lemma beginPicture_returns (pic : Coded) {inv : Decoder → Prop}
    (hinv : ∀ d epoch, inv d → inv { d with epoch := epoch }) :
    Spec inv (beginPicture pic) (fun b t => inv t ∧ b.pic = pic) fun _ => inv := by
  refine .read fun d hd => ?_
  refine .next ((.onlyIf ?_ : Keeps inv _).enter hd) ?_
  · exact .of_modify fun t ht => hinv t _ ht
  · exact .read fun t ht => .unchanged ⟨ht, rfl⟩

section First

/-- What the first phase may do to references but for those of an IDR picture: they leave, and
frames without a picture join them. -/
structure Preserved (inv : Decoder → Prop) : Prop where
  same : ∀ {d t}, inv d → t.dpb = d.dpb → t.slotSurface = d.slotSurface → t.maxLtIdx = d.maxLtIdx → inv t
  clear : ∀ {d} i, inv d → inv (setDpb i none d)
  gap : ∀ {d i r}, inv d → i < d.dpb.length → d.entry i = none → r.slot = none → r.surface = none →
    r.longTermIdx = none → inv (setDpb i (some r) d)

lemma Preserved.of_retains {inv : Decoder → Prop} (hretains : ∀ {d t}, inv d → Retains d t → inv t)
    (hgap : ∀ {d t r}, inv d → r.slot = none → r.surface = none → Inserted r d t → inv t) :
    Preserved inv where
  same hd hdpb hslots _ := hretains hd ((Retains.refl _).congr hdpb hslots)
  clear _ hd := hretains hd ((Retains.refl _).setDpb (.inl rfl))
  gap hd hi hnone hslot hsurface _ := hgap hd hslot hsurface ⟨_, hi, hnone, rfl, rfl⟩

variable {inv : Decoder → Prop} (hinv : Preserved inv)

include hinv

lemma Preserved.tables (d : Decoder) (sps : ℕ → Option Sps) (pps : ℕ → Option Pps) (hd : inv d) :
    inv { d with sps := sps, pps := pps } := hinv.same hd rfl rfl rfl

lemma gapFrame_keeps (sps : Sps) (f : ℕ) : Keeps inv (gapFrame sps f) := by
  have hinsert : Keeps inv (insertRef ⟨none, none, f, none, (0, 0), true⟩) := by
    refine .of_states fun t ht => (insertRef_sets _).post ?_ fun _ _ h => h ▸ ht
    rintro _ _ ⟨i, hi, hnone, rfl⟩
    exact hinv.gap ht hi hnone rfl rfl rfl
  refine .next (slidingWindow_keeps hinv.clear sps f) (.next hinsert ?_)
  exact .of_modify fun t ht => hinv.same ht rfl rfl rfl

lemma fillFrameNumGap_keeps (h : SliceHeader) (sps : Sps) : Keeps inv (fillFrameNumGap h sps) := by
  refine .read fun d hd => ?_
  refine .either (.unchanged hd) ?_
  refine .either ?_ (.refused hd)
  exact (Keeps.of_each (gapFrame_keeps hinv sps) _).enter hd

end First

/-- `fresh` tells of the references of an IDR picture. -/
lemma begin_spec {inv : Decoder → Prop} (fresh : Decoder → Prop) (hinv : Preserved inv)
    (hidr : ∀ {d}, inv d → fresh d.startIdr)
    (hepoch : ∀ d epoch, fresh d → fresh { d with epoch := epoch }) (au : List Nal) :
    Spec inv (begin au) (fun b t => fresh t ∨ inv t ∧ ∀ b' ∈ b, b'.pic.hdr.idr = false)
      fun _ t => fresh t ∨ inv t := by
  refine .keeping (collect_keeps hinv.tables au none) (fun _ _ h => .inr h) fun pic => ?_
  cases pic with
  | none => exact .of_pure fun _ hd => .inr ⟨hd, by simp⟩
  | some pic =>
    refine .compute (fun _ _ => ?_) fun _ _ _ h => .inr h
    refine .read fun d hd => .guarded (.inr hd) fun _ => ?_
    have hprepare : Spec inv (prepareRefs pic.hdr pic.sps)
        (fun _ t => fresh t ∨ inv t ∧ pic.hdr.idr = false) fun _ t => fresh t ∨ inv t := by
      refine .branch (fun _ => .of_modify fun t ht => .inl (hidr ht)) fun hnot => ?_
      exact (fillFrameNumGap_keeps hinv pic.hdr pic.sps).post
        (fun _ _ ht => .inr ⟨ht, Bool.eq_false_iff.mpr hnot⟩) fun _ _ h => .inr h
    refine .next (hprepare.enter hd) (.seq ((beginPicture_returns pic ?_).fallback
      fun _ _ h => h.imp_right And.left) fun b => .of_pure ?_)
    · exact fun t epoch ht => ht.imp (hepoch t epoch) fun h => ⟨hinv.same (d := t) h.1 rfl rfl rfl, h.2⟩
    · rintro t ⟨ht, rfl⟩
      exact ht.imp_right fun h => ⟨h.1, by simpa using h.2⟩

lemma Slotted.gap (h : Slotted d) (hslot : r.slot = none) (hsurface : r.surface = none)
    (ht : Inserted r d t) : Slotted t := by
  refine h.inserted ht (.inl ⟨hslot, hsurface⟩) ?_
  rw [hsurface]
  rintro x ⟨⟩

lemma slotted_preserved : Preserved Slotted := .of_retains Slotted.retains Slotted.gap

lemma begin_slotted (au : List Nal) : Keeps Slotted (begin au) :=
  (begin_spec Slotted slotted_preserved (fun h => h.retains ((Retains.refl _).clear h.positions rfl rfl))
    (fun _ _ h => slotted_preserved.same h rfl rfl rfl) au).post (fun _ _ h => h.elim id And.left)
    fun _ _ h => h.elim id id

/-- A completed picture: what was there stayed in place, and the new picture has its own
slot. -/
structure Completed (surface : ℕ) (d t : Decoder) : Prop where
  slotted : Slotted t
  stays : ∀ i r', t.entry i = some r' →
    (∃ r idx, d.entry i = some r ∧ r' = { r with longTermIdx := idx }) ∨
      (r'.surface = some surface ∧ r'.slot = d.colocatedSlot surface ∧
        surface ∉ d.referencedSurfaces)

lemma Retains.completed (h : Retains d t) (hd : Slotted d) (surface : ℕ) :
    Completed surface d t := ⟨hd.retains h, fun _ _ hi => .inl (h.entry_eq hi)⟩

lemma Retains.referencedSurfaces_subset (h : Retains d t) :
    t.referencedSurfaces ⊆ d.referencedSurfaces := by
  intro x hx
  obtain ⟨r, hr, hrx⟩ := mem_filterMap.mp hx
  obtain ⟨i, hi⟩ := mem_refs.mp hr
  obtain ⟨r', idx, hr', rfl⟩ := h.entry_eq hi
  exact mem_filterMap.mpr ⟨r', mem_refs.mpr ⟨i, hr'⟩, hrx⟩

lemma Marked.completed (h : Marked surface slot (assignSlot surface slot d) t) (hd : Slotted d)
    (htarget : surface ∉ d.referencedSurfaces) (hslot : d.colocatedSlot surface = some slot) :
    Completed surface d t := by
  have ha := hd.assignSlot htarget hslot
  obtain ⟨u, hu, hkept | ⟨r, hsurface, hrslot, hinsert⟩⟩ := h
  · exact ⟨ha.retains (hu.trans hkept), fun i r' hi => .inl ((hu.trans hkept).entry_eq hi)⟩
  have hnew : surface ∉ u.referencedSurfaces := fun hx => htarget (hu.referencedSurfaces_subset hx)
  have hplaced : Placed u r := by
    refine .inr ⟨slot, surface, hrslot, hsurface, ?_⟩
    rw [surfaceOf, hu.slots]
    exact (surfaceOf_assignSlot hd (hd.colocatedSlot_eq hslot).1 surface slot).trans (if_pos rfl)
  refine ⟨(ha.retains hu).inserted hinsert hplaced fun x hx => ?_, ?_⟩
  · rw [hsurface] at hx
    cases hx
    exact hnew
  intro i r' hi
  obtain ⟨k, -, -, hentry⟩ := hinsert.entry
  rw [hentry] at hi
  split_ifs at hi with hik
  · cases hi
    exact .inr ⟨hsurface, by rw [hrslot, hslot], htarget⟩
  · exact .inl (hu.entry_eq hi)

lemma complete_completes (hd : Slotted d) (b : Begun) (surface : ℕ) :
    Spec (d = ·) (complete b surface)
      (fun job t => Completed surface d t ∧ surface ∉ d.referencedSurfaces ∧
        d.colocatedSlot surface = some job.slot)
      fun _ => Completed surface d := by
  refine .look ?_
  have hsame : Completed surface d d := (Retains.refl d).completed hd surface
  refine .guarded hsame fun htarget => ?_
  cases hslot : d.colocatedSlot surface with
  | none => exact .refused hsame
  | some slot =>
    have hassigned : ∀ t, Retains (assignSlot surface slot d) t → Completed surface d t :=
      fun t ht => Marked.completed ⟨t, ht, .inl (Retains.refl t)⟩ hd htarget hslot
    refine .write (Retains (assignSlot surface slot d)) ?_ ?_
    · rintro _ rfl
      exact .refl _
    refine .write (Retains (assignSlot surface slot d)) ?_ ?_
    · intro t ht
      unfold chooseErrSlot
      split_ifs
      all_goals exact ht.congr rfl rfl
    refine .read fun t ht => ?_
    have ha := hd.assignSlot htarget hslot
    refine .seq (((mark_marks ha.positions _ _ _ _ surface slot).enter ht).fallback
      fun _ _ h => hassigned _ h) fun _ => ?_
    refine .write (Completed surface d) ?_ (.of_pure fun u hu => ⟨hu, htarget, rfl⟩)
    intro u hu
    have hdone := hu.completed hd htarget hslot
    exact ⟨hdone.slotted.retains ((Retains.refl u).congr rfl rfl), hdone.stays⟩

/-- The calls on a decoder; a begun picture may be completed at any later time. -/
inductive Action where
  | configure (nals : List Nal)
  | begin (au : List Nal)
  | complete (b : Begun) (surface : ℕ)
  | flush

/-- The state after a call, successful or not. -/
def act (d : Decoder) : Action → Decoder
  | .configure nals => (exec (configure nals) d).2
  | .begin au => (exec (begin au) d).2
  | .complete b surface => (exec (complete b surface) d).2
  | .flush => d.flush

lemma act_slotted (hd : Slotted d) (action : Action) : Slotted (d.act action) := by
  cases action with
  | configure nals =>
    exact Spec.state ((Keeps.of_each (fun nal => (parameterSet_keeps slotted_preserved.tables nal).ignore)
      nals).enter hd)
  | begin au => exact Spec.state ((begin_slotted au).enter hd)
  | complete b surface =>
    exact (Spec.state ((complete_completes hd b surface).after (fun _ _ h => h.1))).slotted
  | flush => exact hd.retains ((Retains.refl d).clear hd.positions rfl rfl)

lemma run_slotted {newH264 : Bool} {actions : List Action}
    (hrun : run (fun d action => some (act d action)) { newH264 := newH264 } actions = some d) :
    Slotted d := by
  refine run_invariant ?_ (slotted_new newH264) hrun
  rintro s action _ hs ⟨⟩
  exact act_slotted hs action

/-- Two references never share a surface or a slot, and each has the slot recorded for its
surface. From every reachable state a picture completes, successfully or not, with every
other reference in its place, and its own slot is found and free. -/
theorem colocated_slots_stable {newH264 : Bool} {actions : List Action}
    (hrun : run (fun d action => some (act d action)) { newH264 := newH264 } actions = some d) :
    (∀ i j r r', i ≠ j → d.entry i = some r → d.entry j = some r' →
      (∀ x, r.surface = some x → r'.surface ≠ some x) ∧ ∀ s, r.slot = some s → r'.slot ≠ some s) ∧
    (∀ i r s, d.entry i = some r → r.slot = some s → r.surface.isSome ∧ d.surfaceOf s = r.surface) ∧
    ∀ surface, (d.colocatedSlot surface).isSome ∧ ∀ b,
      (∀ i r', (exec (complete b surface) d).2.entry i = some r' →
        (∃ r idx, d.entry i = some r ∧ r' = { r with longTermIdx := idx }) ∨
          (r'.surface = some surface ∧ r'.slot = d.colocatedSlot surface ∧
            surface ∉ d.referencedSurfaces)) ∧
      ∀ job, (exec (complete b surface) d).1 = .ok job →
        ∀ i r, d.entry i = some r → r.slot ≠ some job.slot := by
  have hd := run_slotted hrun
  have hrecord : ∀ i r s, d.entry i = some r → r.slot = some s →
      r.surface.isSome ∧ d.surfaceOf s = r.surface := by
    intro i r s hi hs
    obtain ⟨x, hx, hsx⟩ := hd.recorded (mem_refs.mpr ⟨i, hi⟩) hs
    rw [hx]
    exact ⟨rfl, hsx⟩
  refine ⟨?_, hrecord, ?_⟩
  · intro i j r r' hij hi hj
    refine ⟨fun x hx hx' => hij (hd.distinct i j r r' x hi hj hx hx'), ?_⟩
    intro s hs hs'
    obtain ⟨hsome, hrs⟩ := hrecord i r s hi hs
    obtain ⟨-, hrs'⟩ := hrecord j r' s hj hs'
    obtain ⟨x, hx⟩ := Option.isSome_iff_exists.mp hsome
    exact hij (hd.distinct i j r r' x hi hj hx (by rw [← hrs', hrs, hx]))
  · intro surface
    refine ⟨hd.colocatedSlot_isSome surface, ?_⟩
    intro b
    have hcomplete := complete_completes hd b surface
    refine ⟨(Spec.state (hcomplete.after (fun _ _ h => h.1))).stays, ?_⟩
    intro job hjob i r hi
    obtain ⟨-, htarget, hslot⟩ := (hcomplete d rfl).1 job _ (Prod.ext hjob rfl)
    exact hd.slot_free htarget hslot r (mem_refs.mpr ⟨i, hi⟩)

/-- A 64x64 stream that keeps up to two references. -/
def smallSps : Sps := { id := 0, maxNumRefFrames := 2, picWidthInMbs := 4, picHeightInMapUnits := 4 }

def smallSlice (hdr : SliceHeader) : Nal := .slice ⟨[], .ok 0, fun _ _ => .ok hdr⟩

def parameterSets : List Nal := [.sps (.ok smallSps), .pps fun _ => .ok ⟨0, 0⟩]

/-- An IDR picture is decoded into surface 3. -/
def idrPicture : List Action :=
  let hdr : SliceHeader := { idr := true, nalRefIdc := 1, frameNum := 0 }
  [.configure parameterSets, .begin [smallSlice hdr],
    .complete ⟨⟨hdr, 0, smallSps, []⟩, (0, 0), 0, 2 ^ 32, ⟨64, 64, (0, 0, 0, 0), (2, 2, 2, false), true⟩⟩ 3]

theorem colocated_slots_stable_idr :
    (idrPicture.foldl act { newH264 := true }).surfaceOf 0 = some 3 ∧
      ((idrPicture.foldl act { newH264 := true }).colocatedSlot 5).isSome := by
  have hrun : run (fun d action => some (act d action)) { newH264 := true } idrPicture =
      some (idrPicture.foldl act { newH264 := true }) := rfl
  obtain ⟨-, hrecord, hslots⟩ := colocated_slots_stable hrun
  refine ⟨?_, (hslots 5).1⟩
  exact (hrecord 0 ⟨some 3, some 0, 0, none, (0, 0), false⟩ 0 (by decide +kernel) rfl).2

end NvidiaProlapse.H264.Decoder
