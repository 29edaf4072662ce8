import NvidiaProlapse.Av1Slots

/-!
# Context buffers of AV1

Ten buffers hold entropy contexts. A frame reads one buffer and the engine writes another;
one of the two is saved with the slot of the frame. Buffers that would hold default tables
are aliases of constant ones. Eight references save at most eight buffers, so two are
always free, and a saved buffer keeps its contents as long as a reference needs it.
-/
namespace NvidiaProlapse.Av1

open Programs Video Runs List Function Finset

variable {ρ κ : Type}

namespace Av1Codec

variable {headers : Headers ρ} {k c : Av1Codec ρ} {j : PictureJob}

/-! ## Free slots and buffers -/

variable {b i : ℕ}

lemma mem_freeCdf : b ∈ c.freeCdf ↔ b < cdfBuffers ∧ ∀ slot ∈ c.slots, slot.savedCdf ≠ some b := by
  simp [freeCdf]

lemma savedBy_some : c.savedBy (some i) = some b ↔
    ∃ slot, c.slots[i]? = some slot ∧ slot.savedCdf = some b := by
  unfold savedBy
  rw [Option.bind_some, getD_eq_getElem?_getD]
  cases c.slots[i]? with
  | none =>
    refine iff_of_false ?_ (by simp)
    rintro ⟨⟩
  | some slot => simp

/-- A buffer that a slot saved is not free. -/
lemma not_free_of_saved (h : c.savedBy (some i) = some b) : b ∉ c.freeCdf := by
  obtain ⟨slot, hslot, hsaved⟩ := savedBy_some.mp h
  exact fun hfree => (mem_freeCdf.mp hfree).2 slot (mem_of_getElem? hslot) hsaved

/-- Releasing keeps what references saved, and nothing else. -/
lemma savedBy_release :
    k.releaseSlots.savedBy (some i) = some b ↔ some i ∈ k.refMap ∧ k.savedBy (some i) = some b := by
  rw [savedBy_some, savedBy_some]
  unfold releaseSlots
  rw [getElem?_mapIdx]
  cases k.slots[i]? with
  | none => simp
  | some slot =>
    by_cases hmem : some i ∈ k.refMap
    · simp [hmem]
    · simp [hmem]

/-- At most eight buffers are saved. -/
lemma two_le_freeCdf (hmap : k.refMap.length ≤ 8) : 2 ≤ k.releaseSlots.freeCdf.length := by
  have hcover : Finset.range cdfBuffers ⊆ k.releaseSlots.freeCdf.toFinset ∪
      (k.refMap.map fun r => (k.releaseSlots.savedBy r).getD 0).toFinset := by
    intro b hb
    rw [Finset.mem_union, mem_toFinset, mem_toFinset]
    by_contra hnone
    rw [not_or, mem_freeCdf] at hnone
    obtain ⟨hsaved, hunmapped⟩ := hnone
    refine hsaved ⟨Finset.mem_range.mp hb, fun slot hslot heq => hunmapped ?_⟩
    obtain ⟨i, hi⟩ := mem_iff_getElem?.mp hslot
    have hby := savedBy_some.mpr ⟨slot, hi, heq⟩
    refine mem_map.mpr ⟨some i, (savedBy_release.mp hby).1, ?_⟩
    rw [hby]
    rfl
  have hcard := (card_le_card hcover).trans (card_union_le _ _)
  have hfree := toFinset_card_le k.releaseSlots.freeCdf
  have hsaved := toFinset_card_le (k.refMap.map fun r => (k.releaseSlots.savedBy r).getD 0)
  rw [length_map] at hsaved
  rw [card_range, cdfBuffers] at hcard
  omega

/-- One of nine slots is not referenced. -/
lemma exists_free_slot (hslots : k.slots.length = dpbSlots) (hmap : k.refMap.length ≤ 8) :
    (k.releaseSlots.slots.findIdx? fun slot => !slot.inUse).isSome := by
  by_contra hnone
  rw [Bool.not_eq_true, Option.isSome_eq_false_iff, Option.isNone_iff_eq_none,
    findIdx?_eq_none_iff] at hnone
  have hcover : (Finset.range dpbSlots).image some ⊆ k.refMap.toFinset := by
    intro r hr
    obtain ⟨i, hi, rfl⟩ := mem_image.mp hr
    have hlt : i < k.releaseSlots.slots.length := by
      rw [length_releaseSlots, hslots]
      exact Finset.mem_range.mp hi
    have huse := hnone _ (getElem_mem hlt)
    rw [mem_toFinset]
    exact (inUse_releaseSlots (getElem?_eq_getElem hlt)).mp (by simpa using huse)
  have hcard := card_le_card hcover
  rw [card_image_of_injective _ (Option.some_injective _), card_range] at hcard
  have hlength := toFinset_card_le k.refMap
  rw [dpbSlots] at hcard
  omega

/-- A frame never lacks a slot or a buffer. -/
lemma finishFrame_succeeds {h : FrameHeader} {tiles : Tiles} (hseq : c.seq.isSome)
    (hslots : c.slots.length = dpbSlots) (hmap : c.refMap.length ≤ 8) :
    ∃ j c', exec (finishFrame headers h tiles) c = (.ok j, c') := by
  have hspec : Spec (c = ·) (finishFrame headers h tiles) (fun _ _ => True) fun _ _ => False := by
    refine .look ?_
    obtain ⟨seq, hseq⟩ := Option.isSome_iff_exists.mp hseq
    rw [hseq]
    refine .write (Books c.releaseSlots) (fun _ h => h ▸ ⟨rfl, rfl⟩) ?_
    refine .read fun d hd => ?_
    obtain ⟨slot, hslot⟩ := Option.isSome_iff_exists.mp (exists_free_slot hslots hmap)
    have htwo := two_le_freeCdf hmap
    have hcdf : d.freeCdf = c.releaseSlots.freeCdf := by unfold freeCdf; rw [hd.1]
    rw [hd.1, hslot, hcdf]
    refine .seq (((allocCdf_books _).enter hd).fallback ?_) fun cdfWrite => .of_states ?_
    · rintro _ _ ⟨-, hempty⟩
      rw [hempty] at htwo
      simp at htwo
    rintro e ⟨he, hwrite⟩
    refine .seq (((readCdf_books _ _).enter he).fallback ?_) fun r => ?_
    · rintro _ _ ⟨-, hempty⟩
      have hlength := length_erase_of_mem hwrite
      rw [hempty, length_nil] at hlength
      omega
    · exact .anew (.of_pure fun _ _ => trivial)
  rcases hrun : exec (finishFrame headers h tiles) c with ⟨r, c'⟩
  cases r with
  | ok j => exact ⟨j, c', rfl⟩
  | error e => exact ((hspec c rfl).2 e c' hrun).elim

end Av1Codec

/-! ## Frames on the engine -/

/-- The decoder, the contents of the buffers, and as history the contexts that the picture in each
slot saved. -/
structure Engine (ρ κ : Type) where
  dec : Av1Decoder ρ
  memory : ℕ → κ
  saved : ℕ → κ

/-- The contents of a buffer, through its alias if it has one. -/
def contents (tables : ℕ → κ) (aliases : List (Option ℕ)) (memory : ℕ → κ) (b : ℕ) : κ :=
  match aliases.getD b none with
  | some q => tables q
  | none => memory b

/-- A job that goes through leaves the contexts `after` in the buffer it writes. -/
inductive Event (κ : Type) where
  | pushUnit (data : List UInt8)
  | job (current : ℕ) (after : κ)
  | flush

namespace Engine

variable {headers : Headers ρ} {tables : ℕ → κ} {m n : Engine ρ κ} {j : PictureJob}

/-- The contexts a frame starts from. -/
def contextRead (tables : ℕ → κ) (m : Engine ρ κ) (j : PictureJob) : κ :=
  contents tables (m.dec.aliasDefaults j) m.memory j.cdfRead

/-- The picture saves the contexts it ends with, or those it started from. -/
def decoded (tables : ℕ → κ) (m : Engine ρ κ) (dec : Av1Decoder ρ) (j : PictureJob) (after : κ) :
    Engine ρ κ where
  dec := dec
  memory := Function.update m.memory j.cdfWrite after
  saved := Function.update m.saved j.slot
    (if j.hdr.disableFrameEndUpdateCdf then m.contextRead tables j else after)

/-- Frames without errors: an error ends the run. -/
def step (headers : Headers ρ) (tables : ℕ → κ) (m : Engine ρ κ) : Event κ → Option (Engine ρ κ)
  | .pushUnit data => some { m with dec := (codec headers).perform m.dec (.pushUnit data) }
  | .flush => some { m with dec := (codec headers).perform m.dec .flush }
  | .job current after =>
    match exec (codec headers).nextJob m.dec with
    | (.ok (some (.decode job)), dec) =>
      match dec.current, exec ((codec headers).build job ⟨job.bitstream.length, 0, current⟩) dec with
      | some j, (.ok _, dec) =>
        some (m.decoded tables ((codec headers).perform dec (.finish job current none)) j after)
      | _, _ => none
    | (.ok _, dec) => some { m with dec := dec }
    | (.error _, _) => none

/-- Every reference saved a buffer, and the buffer holds what the picture saved. -/
structure Sound (tables : ℕ → κ) (m : Engine ρ κ) : Prop where
  slots : m.dec.c.slots.length = dpbSlots
  refMap : m.dec.c.refMap.length = 8
  aliases : m.dec.cdfAlias.length = cdfBuffers
  saved : ∀ slot, some slot ∈ m.dec.c.refMap → ∃ b < cdfBuffers, m.dec.c.savedBy (some slot) = some b ∧
    contents tables m.dec.cdfAlias m.memory b = m.saved slot

variable {aliases : List (Option ℕ)} {b i slot : ℕ} {memory : ℕ → κ} {h : FrameHeader}
  {k c : Av1Codec ρ}

lemma contents_set_ne (hne : b ≠ i) (v : Option ℕ) :
    contents tables (aliases.set i v) memory b = contents tables aliases memory b := by
  unfold contents
  rw [getD_eq_getElem?_getD, getElem?_set_ne hne.symm, ← getD_eq_getElem?_getD]

lemma contents_set_self (hlt : i < aliases.length) (v : Option ℕ) :
    contents tables (aliases.set i v) memory i = v.elim (memory i) tables := by
  unfold contents
  rw [getD_eq_getElem?_getD, getElem?_set_self hlt]
  cases v with
  | none => rfl
  | some q => rfl

lemma contents_update_ne (hne : b ≠ i) (after : κ) :
    contents tables aliases (Function.update memory i after) b = contents tables aliases memory b := by
  unfold contents
  rw [update_of_ne hne]

/-- References of a frame are taken from the map. -/
lemma mem_refMap_of_refSlots (hslot : (k.refSlotsOf h).getD i none = some slot) :
    some slot ∈ k.refMap := by
  unfold Av1Codec.refSlotsOf at hslot
  split_ifs at hslot with hintra
  · rw [getD_eq_getElem?_getD, getElem?_replicate] at hslot
    split_ifs at hslot
    · cases hslot
    · cases hslot
  · rw [getD_eq_getElem?_getD, getElem?_map] at hslot
    cases hidx : h.refFrameIdx[i]? with
    | none =>
      rw [hidx] at hslot
      cases hslot
    | some idx =>
      rw [hidx] at hslot
      exact Av1Codec.mem_of_getD hslot

lemma mem_refMap_of_primary (hj : Av1Codec.Finished k j c) (hslot : j.primarySlot = some slot) :
    some slot ∈ k.refMap := by
  unfold PictureJob.primarySlot at hslot
  split_ifs at hslot
  rw [hj.refs] at hslot
  exact mem_refMap_of_refSlots hslot

section

variable (hj : Av1Codec.Finished m.dec.c j c)

include hj

/-- What a frame reads: the saved contexts of its primary reference, or default tables that no
reference has saved. -/
lemma Sound.reads (hm : Sound tables m) :
    (∃ slot, j.primarySlot = some slot ∧ j.hdr.frameType % 2 = 1 ∧
      m.dec.c.savedBy (some slot) = some j.cdfRead ∧ j.cdfRead < cdfBuffers ∧
      j.cdfRead ∉ m.dec.c.releaseSlots.freeCdf ∧ j.cdfDefaultQctx = none ∧
      contents tables m.dec.cdfAlias m.memory j.cdfRead = m.saved slot) ∨
    ((j.primarySlot = none ∨ j.hdr.frameType % 2 ≠ 1) ∧
      j.cdfRead ∈ m.dec.c.releaseSlots.freeCdf.erase j.cdfWrite ∧
      j.cdfDefaultQctx = some (defaultCdfQctx j.hdr.baseQIdx)) := by
  have hread := hj.read
  unfold Av1Codec.Reads at hread
  cases hprimary : j.primarySlot with
  | none =>
    rw [hprimary] at hread
    exact .inr ⟨.inl rfl, hread⟩
  | some slot =>
    have hmap := mem_refMap_of_primary hj hprimary
    obtain ⟨b, hb, hsaved, hcontents⟩ := hm.saved slot hmap
    have hkept := Av1Codec.savedBy_release.mpr ⟨hmap, hsaved⟩
    rw [hprimary, hkept] at hread
    by_cases htype : j.hdr.frameType % 2 = 1
    · rw [Option.filter_some, if_pos (decide_eq_true htype)] at hread
      obtain ⟨rfl, hqctx⟩ := hread
      exact .inl ⟨slot, rfl, htype, hsaved, hb, Av1Codec.not_free_of_saved hkept, hqctx, hcontents⟩
    · rw [Option.filter_some, if_neg (by simpa using htype)] at hread
      exact .inr ⟨.inr htype, hread⟩

lemma Sound.read_lt (hm : Sound tables m) : j.cdfRead < cdfBuffers := by
  rcases hm.reads hj with ⟨slot, -, -, -, hlt, -⟩ | ⟨-, hfree, -⟩
  · exact hlt
  · exact (Av1Codec.mem_freeCdf.mp (mem_of_mem_erase hfree)).1

lemma Sound.write_ne_read (hm : Sound tables m) : j.cdfWrite ≠ j.cdfRead := by
  rcases hm.reads hj with ⟨slot, -, -, -, -, hused, -⟩ | ⟨-, hfree, -⟩
  · exact fun heq => hused (heq ▸ hj.write)
  · have hnodup : m.dec.c.releaseSlots.freeCdf.Nodup := nodup_range.filter _
    exact fun heq => (hnodup.mem_erase_iff.mp hfree).1 heq.symm

end

lemma length_aliasDefaults (s : Av1Decoder ρ) (j : PictureJob) :
    (s.aliasDefaults j).length = s.cdfAlias.length := by
  unfold Av1Decoder.aliasDefaults
  cases j.cdfDefaultQctx with
  | none => rfl
  | some q => exact length_set

/-- The contexts a frame starts from. -/
lemma Sound.contextRead_eq (hm : Sound tables m) (hj : Av1Codec.Finished m.dec.c j c) :
    m.contextRead tables j = match j.primarySlot.filter fun _ => j.hdr.frameType % 2 = 1 with
      | some slot => m.saved slot
      | none => tables (defaultCdfQctx j.hdr.baseQIdx) := by
  unfold contextRead Av1Decoder.aliasDefaults
  rcases hm.reads hj with ⟨slot, hslot, htype, -, -, -, hqctx, hcontents⟩ | ⟨hnone, -, hqctx⟩
  · rw [hqctx, hslot, Option.filter_some, if_pos (decide_eq_true htype)]
    exact hcontents
  have hfilter : (j.primarySlot.filter fun _ => j.hdr.frameType % 2 = 1) = none := by
    rcases hnone with hnone | htype
    · rw [hnone]
      rfl
    · rw [Option.filter_eq_none_iff]
      exact fun _ _ => by simpa using htype
  have hlt : j.cdfRead < m.dec.cdfAlias.length := hm.aliases ▸ hm.read_lt hj
  rw [hqctx, hfilter]
  exact contents_set_self hlt _

/-- Contexts that a reference saved stay in their buffer. -/
lemma Sound.contents_kept (hm : Sound tables m) {after : κ} (hj : Av1Codec.Finished m.dec.c j c)
    (hmap : some slot ∈ m.dec.c.refMap) (hsaved : m.dec.c.savedBy (some slot) = some b) :
    contents tables ((m.dec.aliasDefaults j).set j.cdfWrite none)
        (Function.update m.memory j.cdfWrite after) b =
      contents tables m.dec.cdfAlias m.memory b := by
  have hused := Av1Codec.not_free_of_saved (Av1Codec.savedBy_release.mpr ⟨hmap, hsaved⟩)
  have hwrite : b ≠ j.cdfWrite := fun heq => hused (heq ▸ hj.write)
  rw [contents_set_ne hwrite, contents_update_ne hwrite]
  unfold Av1Decoder.aliasDefaults
  rcases hm.reads hj with ⟨-, -, -, -, -, -, hqctx, -⟩ | ⟨-, hfree, hqctx⟩
  · rw [hqctx]
  have hread : b ≠ j.cdfRead := by
    rintro rfl
    exact hused (mem_of_mem_erase hfree)
  rw [hqctx]
  exact contents_set_ne hread _

lemma mem_refMap_takeSlot {taken read write : ℕ}
    (hslot : some slot ∈ (Av1Codec.takeSlot h taken read write k).refMap) :
    slot = taken ∨ some slot ∈ k.refMap := by
  obtain ⟨i, hi⟩ := mem_iff_getElem?.mp hslot
  unfold Av1Codec.takeSlot at hi
  rw [getElem?_mapIdx, Option.map_eq_some_iff] at hi
  obtain ⟨r, hr, heq⟩ := hi
  split_ifs at heq with hbit
  · exact .inl (Option.some.inj heq).symm
  · exact .inr (heq ▸ mem_of_getElem? hr)

/-- A decoded picture saves the contexts it should. -/
lemma Sound.decoded (hm : Sound tables m) {dec : Av1Decoder ρ} (hj : Av1Codec.Finished m.dec.c j dec.c)
    (haliases : dec.cdfAlias = (m.dec.aliasDefaults j).set j.cdfWrite none) (after : κ) :
    Sound tables (m.decoded tables dec j after) := by
  have hwrite : j.cdfWrite < cdfBuffers := (Av1Codec.mem_freeCdf.mp hj.write).1
  have hlength : (m.dec.aliasDefaults j).length = cdfBuffers :=
    (length_aliasDefaults _ _).trans hm.aliases
  have hbound : j.slot < m.dec.c.releaseSlots.slots.length := by
    rw [Av1Codec.length_releaseSlots]
    exact hj.bound
  obtain ⟨hslots, hmap⟩ := hj.books
  refine ⟨?_, ?_, ?_, fun slot hslot => ?_⟩
  · show dec.c.slots.length = dpbSlots
    rw [hslots, ← hm.slots]
    exact length_set.trans (Av1Codec.length_releaseSlots _)
  · show dec.c.refMap.length = 8
    rw [hmap, ← hm.refMap]
    exact length_mapIdx
  · show dec.cdfAlias.length = cdfBuffers
    rw [haliases, length_set, hlength]
  show ∃ b < cdfBuffers, dec.c.savedBy (some slot) = some b ∧
    contents tables dec.cdfAlias (update m.memory j.cdfWrite after) b = update m.saved j.slot _ slot
  rw [haliases]
  by_cases hown : slot = j.slot
  · subst hown
    rw [update_self]
    have hsaved : dec.c.savedBy (some j.slot) =
        some (if j.hdr.disableFrameEndUpdateCdf then j.cdfRead else j.cdfWrite) := by
      rw [Av1Codec.savedBy_some, hslots]
      exact ⟨_, getElem?_set_self hbound, rfl⟩
    by_cases hdisable : j.hdr.disableFrameEndUpdateCdf
    · rw [if_pos hdisable] at hsaved ⊢
      have hne := (hm.write_ne_read hj).symm
      refine ⟨_, hm.read_lt hj, hsaved, ?_⟩
      rw [contents_set_ne hne, contents_update_ne hne]
      rfl
    · rw [if_neg hdisable] at hsaved ⊢
      refine ⟨_, hwrite, hsaved, ?_⟩
      rw [contents_set_self (hlength ▸ hwrite), Option.elim_none, update_self]
  · rw [update_of_ne hown]
    have hold : some slot ∈ m.dec.c.refMap := by
      have hslot' : some slot ∈ dec.c.refMap := hslot
      rw [hmap] at hslot'
      exact (mem_refMap_takeSlot hslot').resolve_left hown
    obtain ⟨b, hb, hsaved, hcontents⟩ := hm.saved slot hold
    refine ⟨b, hb, ?_, (hm.contents_kept hj hold hsaved).trans hcontents⟩
    obtain ⟨kept, hkept, hkeptSaved⟩ := Av1Codec.savedBy_some.mp
      (Av1Codec.savedBy_release.mpr ⟨hold, hsaved⟩)
    rw [Av1Codec.savedBy_some, hslots]
    exact ⟨kept, (getElem?_set_ne fun heq => hown heq.symm).trans hkept, hkeptSaved⟩

/-! ## Runs -/

/-- A smaller set of references needs no more buffers. -/
lemma Sound.remap (hm : Sound tables m) (hslots : c.slots = m.dec.c.slots)
    (hlength : c.refMap.length = 8) (hmap : ∀ slot, some slot ∈ c.refMap → some slot ∈ m.dec.c.refMap) :
    Sound tables { m with dec := { m.dec with c := c } } := by
  refine ⟨hslots ▸ hm.slots, hlength, hm.aliases, fun slot hslot => ?_⟩
  obtain ⟨b, hb, hsaved, hcontents⟩ := hm.saved slot (hmap slot hslot)
  refine ⟨b, hb, ?_, hcontents⟩
  unfold Av1Codec.savedBy at hsaved ⊢
  rw [hslots]
  exact hsaved

lemma Sound.parsed (hm : Sound tables m)
    (hc : Av1Codec.Parsed m.dec.c (some (.showExisting slot h)) c) :
    Sound tables { m with dec := { m.dec with c := c } } := by
  have hsubset : ∀ other, some other ∈ c.refMap → some other ∈ m.dec.c.refMap :=
    fun _ hother => hc.shown_subset hother
  cases hc with
  | shown hslot hslots hmap =>
    refine hm.remap hslots ?_ hsubset
    rw [hmap]
    split_ifs
    · exact length_replicate
    · exact hm.refMap

lemma nextJob_offered {job : DecodeJob} {dec : Av1Decoder ρ} {s : Av1Decoder ρ}
    (h : exec (codec headers).nextJob s = (.ok (some (.decode job)), dec)) :
    ∃ j c, Av1Codec.Finished s.c j c ∧ dec = Av1Decoder.takeJob j { s with c := c } := by
  cases Av1Decoder.nextJob_cases h with
  | offered hout hc hcheck hjob => exact ⟨_, _, hc, rfl⟩

lemma step_sound {e : Event κ} (hm : Sound tables m) (h : step headers tables m e = some n) :
    Sound tables n := by
  cases e with
  | pushUnit data =>
    cases h
    exact { hm with }
  | flush =>
    cases h
    refine ⟨rfl, rfl, rfl, fun slot hslot => ?_⟩
    cases eq_of_mem_replicate hslot
  | job current after =>
    unfold step at h
    rcases hrun : exec (codec headers).nextJob m.dec with ⟨r, dec⟩
    rw [hrun] at h
    cases r with
    | error e => cases h
    | ok job =>
      cases Av1Decoder.nextJob_cases hrun with
      | nothing hout hc =>
        cases h
        exact hm.remap hc.1 (hc.2 ▸ hm.refMap) fun _ hslot => hc.2 ▸ hslot
      | shown hout hc hsurface =>
        cases h
        exact hm.parsed hc
      | @offered c j job hout hc hcheck hjob =>
        dsimp only at h
        rcases hbuild : exec ((codec headers).build job ⟨job.bitstream.length, 0, current⟩)
          (Av1Decoder.takeJob j { m.dec with c := c }) with ⟨r, dec⟩
        rw [hbuild] at h
        cases r with
        | error e => cases h
        | ok planes =>
          cases h
          obtain ⟨j', hj', -, rfl, -⟩ := (Av1Decoder.build_built _ _ _ rfl).1 planes dec hbuild
          cases hj'
          exact hm.decoded hc rfl after

lemma fresh_sound (seq : Option SequenceHeader) (max : ℕ × ℕ) (bitDepth : ℕ) (memory saved : ℕ → κ) :
    Sound tables ⟨fresh headers seq max bitDepth, memory, saved⟩ := by
  refine ⟨rfl, rfl, rfl, fun slot hslot => ?_⟩
  cases eq_of_mem_replicate hslot

/-- Along every run of frames without errors: a frame never lacks a slot or a buffer; its slot is not
referenced; the buffer it writes is neither the one it reads nor one that a reference saved; and it
starts from the contexts that its primary reference saved, or else from default tables. -/
theorem contexts_never_reused {headers : Headers ρ} {tables : ℕ → κ} {seq : Option SequenceHeader}
    {max : ℕ × ℕ} {bitDepth : ℕ} {memory saved : ℕ → κ} {events : List (Event κ)} {m : Engine ρ κ}
    (hrun : run (step headers tables) ⟨fresh headers seq max bitDepth, memory, saved⟩ events = some m) :
    (∀ c, Av1Codec.Books m.dec.c c → c.seq.isSome → ∀ h tiles,
      ∃ j c', exec (Av1Codec.finishFrame headers h tiles) c = (.ok j, c')) ∧
    ∀ job dec, exec (codec headers).nextJob m.dec = (.ok (some (.decode job)), dec) →
      ∃ j, dec.current = some j ∧ some j.slot ∉ m.dec.c.refMap ∧ j.cdfWrite ≠ j.cdfRead ∧
        (∀ slot, some slot ∈ m.dec.c.refMap → m.dec.c.savedBy (some slot) ≠ some j.cdfWrite) ∧
        m.contextRead tables j = match j.primarySlot.filter fun _ => j.hdr.frameType % 2 = 1 with
          | some slot => m.saved slot
          | none => tables (defaultCdfQctx j.hdr.baseQIdx) := by
  have hm : Sound tables m :=
    run_invariant (fun _ _ _ hm h => step_sound hm h) (fresh_sound seq max bitDepth memory saved) hrun
  refine ⟨fun c hc hseq h tiles => ?_, fun job dec hnext => ?_⟩
  · exact Av1Codec.finishFrame_succeeds hseq (hc.1 ▸ hm.slots) (hc.2 ▸ hm.refMap.le)
  · obtain ⟨j, c, hj, rfl⟩ := nextJob_offered hnext
    refine ⟨j, rfl, hj.free, hm.write_ne_read hj, fun slot hslot hsaved => ?_, hm.contextRead_eq hj⟩
    exact Av1Codec.not_free_of_saved (Av1Codec.savedBy_release.mpr ⟨hslot, hsaved⟩) hj.write

/-- A key frame, and an inter frame that starts from its contexts. -/
def interHeaders : Headers Unit where
  start := ()
  sequence := fun _ => .ok {}
  existing := fun _ _ _ => .error (.truncated "f(n)")
  coded := fun _ _ o =>
    let key := o.payload.getD 1 0 = 0xff
    (.ok {
      frameType := if key then 0 else 1
      frameIsIntra := key
      showFrame := true
      primaryRefFrame := if key then 7 else 0
      refreshFrameFlags := (o.payload.getD 1 0).toNat
      frameHeight := 64
      upscaledWidth := 64
      headerBytes := 2 }, ())
  updateRefs := fun _ refs => refs
  tileGroup := fun _ payload _ => .ok (true, ⟨payload, [(0, payload.length)]⟩)

def interFrames : List (Event ℕ) :=
  [.pushUnit [0x0a, 0, 0x32, 3, 0, 0xff, 0, 0x32, 3, 0, 1, 0], .job 0 7]

theorem contexts_never_reused_inter :
    ∃ m : Engine Unit ℕ, run (step interHeaders fun q => 100 + q)
        ⟨fresh interHeaders none (64, 64) 8, fun _ => 0, fun _ => 0⟩ interFrames = some m ∧
      ∃ j, (exec (codec interHeaders).nextJob m.dec).2.current = some j ∧ j.primarySlot = some 0 ∧
        m.contextRead (fun q => 100 + q) j = 7 := by
  refine ⟨_, rfl, ?_⟩
  have hframes := (@contexts_never_reused Unit ℕ interHeaders (fun q => 100 + q) none (64, 64) 8
    (fun _ => 0) (fun _ => 0) interFrames _ rfl).2
  obtain ⟨j, hj, -, -, -, hread⟩ := hframes _ _ rfl
  refine ⟨j, hj, ?_, ?_⟩
  · cases hj
    rfl
  · cases hj
    rfl

end Engine

end NvidiaProlapse.Av1
