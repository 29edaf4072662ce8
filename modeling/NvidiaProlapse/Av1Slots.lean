import NvidiaProlapse.Av1Units

/-!
# What parsing does to the slots of AV1

Parsing takes OBUs until a frame is complete or an existing one is shown. A complete frame
releases the slots that nothing refers to, takes a free slot and its context buffers, and
refreshes the reference map. Nothing else touches slots and map.
-/
namespace NvidiaProlapse.Av1

open Programs Video Vp9 List

variable {ρ : Type}

/-- The slot of the primary reference. -/
def PictureJob.primarySlot (j : PictureJob) : Option ℕ :=
  if j.hdr.primaryRefFrame = 7 then none else j.refSlots.getD j.hdr.primaryRefFrame none

namespace Av1Codec

variable {headers : Headers ρ} {k c : Av1Codec ρ} {h : FrameHeader} {tiles : Tiles} {o : Obu}

/-- The slots and the map of `k`. -/
def Books (k c : Av1Codec ρ) : Prop := c.slots = k.slots ∧ c.refMap = k.refMap

/-- The map of `k`; slots may have been released. -/
def Mapped (k c : Av1Codec ρ) : Prop := c.refMap = k.refMap ∧ c.slots.length = k.slots.length

/-- The buffer that the picture in the slot saved. -/
def savedBy (c : Av1Codec ρ) (slot : Option ℕ) : Option ℕ :=
  slot.bind fun i => (c.slots.getD i default).savedCdf

/-- An inter frame reads the saved contexts of its primary reference, any other frame default tables
in a free buffer. -/
def Reads (h : FrameHeader) (saved : Option ℕ) (free : List ℕ) (read : ℕ) (qctx : Option ℕ) : Prop :=
  match saved.filter fun _ => h.frameType % 2 = 1 with
  | some b => read = b ∧ qctx = none
  | none => read ∈ free ∧ qctx = some (defaultCdfQctx h.baseQIdx)

/-- The frame of `j` was finished on the slots and the map of `k`. -/
structure Finished (k : Av1Codec ρ) (j : PictureJob) (c : Av1Codec ρ) : Prop where
  free : some j.slot ∉ k.refMap
  bound : j.slot < k.slots.length
  refs : j.refSlots = k.refSlotsOf j.hdr
  write : j.cdfWrite ∈ k.releaseSlots.freeCdf
  read : Reads j.hdr (k.releaseSlots.savedBy j.primarySlot) (k.releaseSlots.freeCdf.erase j.cdfWrite)
    j.cdfRead j.cdfDefaultQctx
  books : Books (takeSlot j.hdr j.slot j.cdfRead j.cdfWrite k.releaseSlots) c

/-- What the parser put out, and the slots and the map after it. -/
inductive Parsed (k : Av1Codec ρ) : Option Av1Out → Av1Codec ρ → Prop
  | nothing {c : Av1Codec ρ} (hc : Books k c) : Parsed k none c
  | shown {c : Av1Codec ρ} {slot : ℕ} {h : FrameHeader}
      (hslot : k.refMap.getD h.frameToShowMapIdx none = some slot) (hslots : c.slots = k.slots)
      (hmap : c.refMap = if h.isKey then List.replicate 8 (some slot) else k.refMap) :
      Parsed k (some (.showExisting slot h)) c
  | decoded {c : Av1Codec ρ} {j : PictureJob} (hj : Finished k j c) : Parsed k (some (.decode j)) c

lemma Books.mapped (hc : Books k c) : Mapped k c := ⟨hc.2, by rw [hc.1]⟩

lemma Books.release (hc : Books k c) : Books k.releaseSlots c.releaseSlots := by
  refine ⟨?_, hc.2⟩
  unfold releaseSlots
  rw [hc.1, hc.2]

variable {i slot : ℕ} {free : List ℕ}

lemma mem_of_getD {refMap : List (Option ℕ)} (h : refMap.getD i none = some slot) :
    some slot ∈ refMap := by
  rw [getD_eq_getElem?_getD, Option.getD_eq_iff] at h
  obtain hget | ⟨-, hnone⟩ := h
  · exact mem_of_getElem? hget
  · cases hnone

/-- A shown frame leaves no new reference. -/
lemma Parsed.shown_subset {other : ℕ} (hc : Parsed k (some (.showExisting slot h)) c)
    (hother : some other ∈ c.refMap) : some other ∈ k.refMap := by
  cases hc with
  | shown hslot hslots hmap =>
    rw [hmap] at hother
    split_ifs at hother
    · exact (eq_of_mem_replicate hother) ▸ mem_of_getD hslot
    · exact hother

lemma length_releaseSlots (c : Av1Codec ρ) : c.releaseSlots.slots.length = c.slots.length :=
  length_mapIdx

lemma Books.mapped_of_release (hc : Books k.releaseSlots c) : Mapped k c :=
  ⟨hc.2, by rw [hc.1, length_releaseSlots]⟩

/-! ## Context buffers -/

lemma oldestBuffer_mem {stamps : List ℕ} (h : oldestBuffer stamps free = some i) : i ∈ free := by
  induction free with
  | nil => cases h
  | cons j rest ih =>
    rw [oldestBuffer] at h
    cases hrest : oldestBuffer stamps rest with
    | none =>
      rw [hrest] at h
      cases h
      exact mem_cons_self
    | some j' =>
      rw [hrest] at h
      dsimp only at h
      split_ifs at h
      · exact mem_cons_of_mem _ (ih (hrest.trans h))
      · cases h
        exact mem_cons_self

lemma oldestBuffer_isSome (stamps : List ℕ) (h : free ≠ []) :
    (oldestBuffer stamps free).isSome := by
  cases free with
  | nil => exact absurd rfl h
  | cons j rest =>
    rw [oldestBuffer]
    cases oldestBuffer stamps rest with
    | none => rfl
    | some j' =>
      dsimp only
      split_ifs
      · rfl
      · rfl

lemma allocCdf_books (free : List ℕ) :
    Spec (Books k) (allocCdf free) (fun i c => Books k c ∧ i ∈ free) fun _ c => Books k c ∧ free = [] := by
  refine .read fun c hc => ?_
  cases hbuffer : oldestBuffer c.cdfStamp free with
  | none =>
    refine .of_throw fun _ h => ⟨h ▸ hc, ?_⟩
    by_contra hne
    have hsome := oldestBuffer_isSome c.cdfStamp hne
    rw [hbuffer] at hsome
    cases hsome
  | some i =>
    refine .write (Books k) (fun _ h => ?_) (.of_pure fun _ h => ⟨h, oldestBuffer_mem hbuffer⟩)
    subst h
    exact hc

lemma readCdf_books (saved : Option ℕ) (free : List ℕ) :
    Spec (Books k) (readCdf h saved free)
      (fun r c => Books k c ∧ Reads h saved free r.1 r.2) fun _ c => Books k c ∧ free = [] := by
  unfold readCdf Reads
  cases saved.filter fun _ => h.frameType % 2 = 1 with
  | some b => exact .of_pure fun _ hc => ⟨hc, rfl, rfl⟩
  | none =>
    refine .seq (allocCdf_books free) fun i => ?_
    exact .of_pure fun _ hc => ⟨hc.1, hc.2, rfl⟩

/-! ## A complete frame -/

lemma inUse_releaseSlots {slot : Slot} (hslot : k.releaseSlots.slots[i]? = some slot) :
    slot.inUse = true ↔ some i ∈ k.refMap := by
  unfold releaseSlots at hslot
  rw [getElem?_mapIdx, Option.map_eq_some_iff] at hslot
  obtain ⟨old, -, rfl⟩ := hslot
  by_cases hmem : some i ∈ k.refMap
  · simp [hmem]
  · simp [hmem]

lemma findIdx_releaseSlots
    (hslot : (k.releaseSlots.slots.findIdx? fun slot => !slot.inUse) = some slot) :
    some slot ∉ k.refMap ∧ slot < k.slots.length := by
  obtain ⟨hlt, hfree, -⟩ := findIdx?_eq_some_iff_getElem.mp hslot
  refine ⟨fun hmem => ?_, length_releaseSlots k ▸ hlt⟩
  have huse := (inUse_releaseSlots (getElem?_eq_getElem hlt)).mpr hmem
  rw [huse] at hfree
  cases hfree

lemma finishFrame_finished :
    Spec (Books k) (finishFrame headers h tiles) (fun j c => j.hdr = h ∧ Finished k j c)
      fun _ => Mapped k := by
  refine .read fun c hc => ?_
  cases c.seq with
  | none => exact .refused hc.mapped
  | some seq =>
    refine .write (Books k.releaseSlots) (fun _ h => h ▸ hc.release) ?_
    refine .read fun c hc => ?_
    have hcdf : c.freeCdf = k.releaseSlots.freeCdf := by unfold freeCdf; rw [hc.1]
    have hrefs : c.refSlotsOf h = k.refSlotsOf h := by unfold refSlotsOf; rw [hc.2]; rfl
    cases hslot : c.slots.findIdx? fun slot => !slot.inUse with
    | none => exact .refused hc.mapped_of_release
    | some slot =>
      obtain ⟨hfree, hbound⟩ := findIdx_releaseSlots (hc.1 ▸ hslot)
      rw [hcdf]
      refine .seq (((allocCdf_books _).enter hc).fallback
        fun _ _ h => h.1.mapped_of_release) fun cdfWrite => .of_states ?_
      rintro d ⟨hd, hwrite⟩
      refine .seq (((readCdf_books _ _).enter hd).fallback
        fun _ _ h => h.1.mapped_of_release) fun r => .of_states ?_
      rintro e ⟨he, hr⟩
      refine .write (Books (takeSlot h slot r.1 cdfWrite k.releaseSlots)) ?_ ?_
      · rintro _ rfl
        exact ⟨congrArg (set · slot _) he.1, congrArg (mapIdx _) he.2⟩
      refine .of_pure fun f hf => ⟨rfl, hfree, hbound, hrefs, hwrite, ?_, hf⟩
      unfold savedBy
      rw [← hc.1]
      exact hr

/-! ## Parsing -/

lemma codedHeader_books (seq : SequenceHeader) : Keeps (Books k) (codedHeader headers seq o) := by
  refine .read fun c hc => ?_
  refine .write (Books k) (fun _ h => ?_) ?_
  · subst h
    exact hc
  · refine .compute (fun h _ => ?_) fun _ _ _ h => h
    exact .of_pure fun _ hc => hc

lemma parseFrameHeader_books : Keeps (Books k) (parseFrameHeader headers o) := by
  refine .read fun c hc => ?_
  cases c.seq with
  | none => exact .refused hc
  | some seq =>
    refine .either ((codedHeader_books seq).enter hc) ?_
    cases bitAt o.payload 0 with
    | none => exact .refused hc
    | some bit =>
      cases bit with
      | zero => exact (codedHeader_books seq).enter hc
      | succ bit =>
        refine .given hc fun h _ => ?_
        exact .unchanged hc

lemma collectTiles_parsed (payload : List UInt8) :
    Spec (Books k) (collectTiles headers h payload tiles) (Parsed k) fun _ => Mapped k := by
  refine .compute (fun result _ => ?_) fun _ _ _ hc => hc.mapped
  refine .either ?_ ?_
  · exact .seq finishFrame_finished fun job => .of_pure fun _ hc => .decoded hc.2
  · exact .write (Books k) (fun _ hc => hc) (.of_pure fun _ hc => .nothing hc)

lemma frameObu_parsed : Spec (Books k) (frameObu headers o) (Parsed k) fun _ => Mapped k := by
  refine .keeping parseFrameHeader_books (fun _ _ hc => hc.mapped) fun h => ?_
  refine .either ?_ ?_
  · refine .read fun c hc => ?_
    cases hslot : c.refMap.getD h.frameToShowMapIdx none with
    | none => exact .refused hc.mapped
    | some slot =>
      refine .last ?_
      rw [hc.2] at hslot
      refine .shown hslot hc.1 ?_
      unfold showExisting
      rw [hc.2, hslot]
  · refine .either (collectTiles_parsed _) ?_
    exact .write (Books k) (fun _ hc => hc) (.of_pure fun _ hc => .nothing hc)

lemma tileGroupObu_parsed : Spec (Books k) (tileGroupObu headers o) (Parsed k) fun _ => Mapped k := by
  refine .read fun c hc => ?_
  refine .write (Books k) (fun _ h => h ▸ hc) ?_
  cases c.cur with
  | none => exact .of_throw fun _ hc => hc.mapped
  | some cur => exact collectTiles_parsed _

lemma takeObu_parsed : Spec (Books k) (takeObu headers o) (Parsed k) fun _ => Mapped k := by
  refine .read fun c hc => ?_
  have hskip : Spec (c = ·) (pure none) (Parsed k) fun _ : Av1Error => Mapped k :=
    Spec.of_pure fun _ h => .nothing (h ▸ hc)
  refine .either ?_ ?_
  · refine .given hc.mapped fun seq _ => ?_
    exact .write (Books k) (fun _ h => h ▸ hc) (.of_pure fun _ hc => .nothing hc)
  refine .either hskip ?_
  refine .either (frameObu_parsed.enter hc) ?_
  refine .either (tileGroupObu_parsed.enter hc) ?_
  exact .guarded hc.mapped fun _ => hskip

lemma finishUnit_parsed :
    Spec (Books k) (finishUnit : Prog (Av1Codec ρ) Av1Error (Option Av1Out))
      (fun out c => out = none ∧ Books k c) fun _ => Mapped k := by
  refine .read fun c hc => ?_
  refine .either ?_ ?_
  · exact .write (Books k) (fun _ h => h ▸ hc) (.of_throw fun _ hc => hc.mapped)
  · exact .write (Books k) (fun _ h => h ▸ hc) (.of_pure fun _ hc => ⟨rfl, hc⟩)

lemma takeObus_parsed (obus : List Obu) :
    Spec (Books k) (takeObus headers obus) (Parsed k) fun _ => Mapped k := by
  induction obus with
  | nil =>
    refine finishUnit_parsed.after ?_
    rintro _ c ⟨rfl, hc⟩
    exact .nothing hc
  | cons o obus ih =>
    refine .write (Books k) (fun _ hc => hc) ?_
    refine .seq takeObu_parsed fun out => ?_
    cases out with
    | some out => exact .of_pure fun _ h => h
    | none =>
      refine ih.before fun c hc => ?_
      cases hc with
      | nothing hc => exact hc

lemma nextOutFrom_parsed (units : List (List UInt8)) :
    Spec (Books k) (nextOutFrom headers units) (Parsed k) fun _ => Mapped k := by
  induction units with
  | nil => exact .of_pure fun _ hc => .nothing hc
  | cons tu units ih =>
    refine .read fun c hc => ?_
    refine .given hc.mapped fun obus _ => ?_
    refine .seq ((takeObus_parsed _).enter hc) fun out => ?_
    cases out with
    | some out => exact .of_pure fun _ h => h
    | none =>
      refine ih.before fun c hc => ?_
      cases hc with
      | nothing hc => exact hc

/-- One output of the parser. -/
lemma nextOut_parsed (c : Av1Codec ρ) :
    Spec (c = ·) (nextOut headers) (Parsed c) fun _ => Mapped c := by
  refine .look ?_
  exact (nextOutFrom_parsed c.pending).enter ⟨rfl, rfl⟩

end Av1Codec

namespace Av1Decoder

open Av1Codec

variable {headers : Headers ρ} {s t : Av1Decoder ρ} {j : PictureJob}

/-! ## Jobs -/

/-- One call of `nextJob`. The codec may have finished a frame that is then refused. -/
inductive Called (headers : Headers ρ) (s : Av1Decoder ρ) : VResult (Option Job) → Av1Decoder ρ → Prop
  | nothing {c : Av1Codec ρ} (hout : exec (nextOut headers) s.c = (.ok none, c)) (hc : Books s.c c) :
      Called headers s (.ok none) { s with c := c }
  | shown {c : Av1Codec ρ} {slot surface : ℕ} {h : FrameHeader} {info : PictureInfo}
      (hout : exec (nextOut headers) s.c = (.ok (some (.showExisting slot h)), c))
      (hc : Parsed s.c (some (.showExisting slot h)) c)
      (hsurface : s.shownSlot slot h.applyGrain = .ok surface) :
      Called headers s (.ok (some (.showExisting surface info))) { s with c := c }
  | offered {c : Av1Codec ρ} {j : PictureJob} {job : DecodeJob}
      (hout : exec (nextOut headers) s.c = (.ok (some (.decode j)), c)) (hc : Finished s.c j c)
      (hcheck : s.checkJob j = .ok ()) (hjob : job.bitstream = j.tiles.bitstream) :
      Called headers s (.ok (some (.decode job))) (takeJob j { s with c := c })
  | refused {c : Av1Codec ρ} {out : Av1Out} {e : VideoError}
      (hout : exec (nextOut headers) s.c = (.ok (some out), c)) (hc : Parsed s.c (some out) c) :
      Called headers s (.error e) { s with c := c }
  | failed {c : Av1Codec ρ} {e : VideoError} {e' : Av1Error}
      (hout : exec (nextOut headers) s.c = (.error e', c)) (hc : Mapped s.c c) :
      Called headers s (.error e) { s with c := c }

lemma nextJob_called (s : Av1Decoder ρ) :
    Spec (s = ·) (nextJob headers) (fun job => Called headers s (.ok job))
      fun e => Called headers s (.error e) := by
  have hout : Spec (s = ·) (onCodec (nextOut headers))
      (fun out t => ∃ c, t = { s with c := c } ∧ Parsed s.c out c ∧
        exec (nextOut headers) s.c = (.ok out, c)) fun e => Called headers s (.error e) := by
    refine Spec.of_onCodec ?_
    rintro _ rfl
    exact (nextOut_parsed s.c).traced.post (fun out c hc => ⟨c, rfl, hc⟩)
      fun e c hc => .failed hc.2 hc.1
  refine Spec.seq hout fun out => Spec.of_states ?_
  rintro _ ⟨c, rfl, hc, hrun⟩
  cases out with
  | none =>
    refine .unchanged ?_
    cases hc with
    | nothing hc => exact .nothing hrun hc
  | some out =>
    refine .look ?_
    have hrefused : ∀ (e : VideoError) t, { s with c := c } = t → Called headers s (.error e) t := by
      rintro e _ rfl
      exact .refused hrun hc
    refine .compute (fun seq _ => ?_) fun e t _ h => hrefused e t h
    cases out with
    | showExisting slot h =>
      refine .look ?_
      refine .compute (fun surface hsurface => ?_) fun e t _ h => hrefused e t h
      refine .unchanged ?_
      exact .shown hrun hc hsurface
    | decode j =>
      refine .look ?_
      refine .compute (fun _ hcheck => ?_) fun e t _ h => hrefused e t h
      refine .write (fun t => t = takeJob j { s with c := c }) (fun _ h => h ▸ rfl) ?_
      refine .of_pure ?_
      rintro _ rfl
      cases hc with
      | decoded hj => exact .offered hrun hj hcheck rfl

lemma nextJob_cases {r : VResult (Option Job)} (h : exec (codec headers).nextJob s = (r, t)) :
    Called headers s r t := by
  cases r with
  | ok job => exact (nextJob_called s s rfl).1 job t h
  | error e => exact (nextJob_called s s rfl).2 e t h

/-- Where the picture of the job goes. -/
def surfOf (j : PictureJob) (current : ℕ) : Surf :=
  if j.hdr.applyGrain then .grain (if j.hdr.showableFrame then some current else none)
  else .session current

/-- The decoder after the picture was built. -/
def built (s : Av1Decoder ρ) (j : PictureJob) (current : ℕ) : Av1Decoder ρ :=
  { s with
    current := none
    slotSurface := s.slotSurface.set j.slot (some (surfOf j current))
    cdfAlias := (s.aliasDefaults j).set j.cdfWrite none }

lemma build_built (ctx : BuildContext) (s : Av1Decoder ρ) :
    Spec (s = ·) (build ctx)
      (fun planes t => ∃ j, s.current = some j ∧ ctx.bitstreamLen = j.tiles.bitstream.length ∧
        t = s.built j ctx.current ∧ planes = t.planes j ctx.current)
      fun _ t => t = { s with current := none } ∧
        ∀ j, s.current = some j → ctx.bitstreamLen ≠ j.tiles.bitstream.length := by
  refine .look ?_
  refine .write (fun t => t = { s with current := none }) (fun _ h => h ▸ rfl) ?_
  cases hcurrent : s.current with
  | none =>
    refine .of_throw fun _ h => ⟨h, ?_⟩
    rintro j ⟨⟩
  | some j =>
    refine .branch (fun hlen => ?_) fun hlen => ?_
    · refine .of_throw fun _ h => ⟨h, ?_⟩
      rintro _ ⟨⟩
      exact hlen
    refine .write (fun t => t = s.built j ctx.current) ?_ (.read fun t ht => ?_)
    · rintro _ rfl
      rfl
    · refine .unchanged ?_
      exact ⟨j, rfl, not_not.mp hlen, ht, rfl⟩

end Av1Decoder

end NvidiaProlapse.Av1
