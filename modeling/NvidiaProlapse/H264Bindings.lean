import NvidiaProlapse.IndexedWrites
import NvidiaProlapse.SurfaceBindings
import NvidiaProlapse.H264Codec

/-!
# Surfaces of H.264 references

The references are the positions of the DPB. Parsing and marking let pictures go and insert
frames without a surface; only the completed picture gets one. The planes of a picture are
the surfaces of the slots that its references hold.
-/
namespace NvidiaProlapse.H264

open Programs Video IndexedWrites List

namespace Decoder

variable {d t : Decoder} {i slot surface : ℕ}

/-- The surface of the picture at a position of the DPB. -/
def Holds (d : Decoder) (i x : ℕ) : Prop := ∃ r, d.entry i = some r ∧ r.surface = some x

/-- Slots are sound, and no picture came in since `d`. -/
def Thinned (d t : Decoder) : Prop := Slotted t ∧ ∀ i x, t.Holds i x → d.Holds i x

variable {u : Decoder} {r : RefPic} {o : Option ℕ}

lemma Thinned.retains (h : Thinned d t) (hu : Retains t u) : Thinned d u := by
  refine ⟨h.1.retains hu, ?_⟩
  rintro i x ⟨r, hr, hx⟩
  obtain ⟨r', idx, hr', rfl⟩ := hu.entry_eq hr
  exact h.2 i x ⟨r', hr', hx⟩

lemma Thinned.gap (h : Thinned d t) (hslot : r.slot = none) (hsurface : r.surface = none)
    (hu : Inserted r t u) : Thinned d u := by
  refine ⟨h.1.gap hslot hsurface hu, ?_⟩
  rintro i x ⟨r', hr', hx⟩
  obtain ⟨k, -, -, hentry⟩ := hu.entry
  rw [hentry] at hr'
  split_ifs at hr' with hk
  · cases hr'
    rw [hsurface] at hx
    cases hx
  · exact h.2 i x ⟨r', hr', hx⟩

lemma begin_thinned (au : List Nal) : Keeps (Thinned d) (begin au) := by
  have hinv : Preserved (Thinned d) := .of_retains Thinned.retains Thinned.gap
  have hidr : ∀ {t}, Thinned d t → Thinned d t.startIdr := fun h =>
    h.retains ((Retains.refl _).clear h.1.positions rfl rfl)
  exact (begin_spec (Thinned d) hinv hidr (fun _ _ h => hinv.same h rfl rfl rfl) au).post
    (fun _ _ h => h.elim id And.left) fun _ _ h => h.elim id id

lemma complete_holds (hd : Slotted d) (b : Begun) (surface : ℕ) :
    Slotted (exec (complete b surface) d).2 ∧
      ∀ i x, (exec (complete b surface) d).2.Holds i x → d.Holds i x ∨ x = surface := by
  have hdone : Completed surface d (exec (complete b surface) d).2 :=
    Spec.state ((complete_completes hd b surface).after (fun _ _ h => h.1))
  refine ⟨hdone.slotted, ?_⟩
  rintro i x ⟨r', hr', hx⟩
  rcases hdone.stays i r' hr' with ⟨r, idx, hr, rfl⟩ | ⟨hnew, -, -⟩
  · exact .inl ⟨r, hr, hx⟩
  · rw [hnew] at hx
    exact .inr (Option.some.inj hx).symm

/-! ## Planes -/

lemma complete_programs (b : Begun) (surface : ℕ) :
    Yields (d = ·) (complete b surface)
      fun job _ => surface ∉ d.referencedSurfaces ∧ d.colocatedSlot surface = some job.slot ∧
        job.slotSurfaces = d.programSlots job.slot surface := by
  refine .look ?_
  refine .branch (fun _ => .thrown) fun htarget => ?_
  cases hslot : d.colocatedSlot surface with
  | none => exact .thrown
  | some slot =>
    refine .write (fun t => t.dpb = d.dpb) (fun _ h => h ▸ rfl) ?_
    refine .write (fun t => t.dpb = d.dpb) (fun t ht => ?_) (.read fun t ht => ?_)
    · unfold chooseErrSlot
      split_ifs
      · exact ht
      · exact ht
    refine .next (.anything _ _) ?_
    refine .anew (.of_pure fun _ _ => ⟨htarget, rfl, ?_⟩)
    rw [programSlots, programSlots, refs, refs, ht]

/-- What the reference writes into the table of slots. -/
def slotWrite (r : RefPic) : Option (ℕ × Option ℕ) :=
  match r.slot, r.surface with
  | some s, some x => some (s, some x)
  | _, _ => none

lemma slotWrite_eq_some :
    slotWrite r = some (i, o) ↔ ∃ x, r.slot = some i ∧ r.surface = some x ∧ o = some x := by
  unfold slotWrite
  cases r.slot with
  | none => simp
  | some s =>
    cases r.surface with
    | none => simp
    | some x => simp [eq_comm]

lemma programSlots_eq (d : Decoder) (slot surface : ℕ) :
    d.programSlots slot surface =
      (writeAll (d.refs.filterMap slotWrite) (List.replicate maxSlots none)).set slot (some surface) := by
  have hfold : ∀ (rs : List RefPic) (l : List (Option ℕ)), rs.foldl (fun slots r =>
      match r.slot, r.surface with
      | some s, some surf => slots.set s (some surf)
      | _, _ => slots) l = writeAll (rs.filterMap slotWrite) l := by
    intro rs
    induction rs with
    | nil => exact fun l => rfl
    | cons r rs ih =>
      intro l
      rw [foldl_cons, ih, filterMap_cons]
      unfold slotWrite
      cases r.slot with
      | none => rfl
      | some s =>
        cases r.surface with
        | none | some x => rfl
  exact congrArg (fun l => set l slot (some surface)) (hfold d.refs _)

/-- A slot of a reference shows the surface of the reference. -/
lemma programSlots_of_ref (hd : Slotted d) (hfree : ∀ r ∈ d.refs, r.slot ≠ some slot)
    (hr : d.entry i = some r) {s : ℕ} (hs : r.slot = some s) :
    ∃ x, r.surface = some x ∧ (d.programSlots slot surface)[s]? = some (some x) := by
  have hmem : r ∈ d.refs := mem_refs.mpr ⟨i, hr⟩
  obtain ⟨x, hx, hrecord⟩ := hd.recorded hmem hs
  have hlt : s < maxSlots := hd.slots ▸ lt_of_surfaceOf hrecord
  refine ⟨x, hx, ?_⟩
  rw [programSlots_eq, getElem?_set_ne]
  · refine getElem?_writeAll ?_ ?_ (by simpa using hlt)
    · exact mem_filterMap.mpr ⟨r, hmem, slotWrite_eq_some.mpr ⟨x, hs, hx, rfl⟩⟩
    · -- another reference with this slot has the surface recorded for the slot, too
      intro o ho
      obtain ⟨r', hr', hwrite⟩ := mem_filterMap.mp ho
      obtain ⟨y, hslot', hy, rfl⟩ := slotWrite_eq_some.mp hwrite
      obtain ⟨z, hz, hrecord'⟩ := hd.recorded hr' hslot'
      rw [hy] at hz
      cases hz
      exact hrecord'.symm.trans hrecord
  · rintro rfl
    exact hfree r hmem hs

lemma mem_programSlots (h : o ∈ d.programSlots slot surface) :
    o = none ∨ o = some surface ∨ ∃ i x, d.Holds i x ∧ o = some x := by
  rw [programSlots_eq] at h
  rcases mem_or_eq_of_mem_set h with h | rfl
  · rcases mem_writeAll h with h | ⟨s, hs⟩
    · exact .inl (eq_of_mem_replicate h)
    obtain ⟨r, hr, hwrite⟩ := mem_filterMap.mp hs
    obtain ⟨x, -, hx, rfl⟩ := slotWrite_eq_some.mp hwrite
    obtain ⟨i, hi⟩ := mem_refs.mp hr
    exact .inr (.inr ⟨i, x, ⟨r, hi, hx⟩, rfl⟩)
  · exact .inr (.inl rfl)

end Decoder

namespace H264Decoder

open Decoder

variable {s t : H264Decoder}

lemma onDec_keeps {α : Type} {inv : Decoder → Prop} {p : Prog Decoder VideoError α} (h : Keeps inv p) :
    Keeps (fun s => inv s.dec) (onDec p) :=
  Spec.of_focus fun _ hs => (h.enter hs).fallback fun _ _ h => h

lemma nextJob_thinned (hs : Slotted s.dec) : Thinned s.dec (exec codec.nextJob s).2.dec := by
  have hspec : Keeps (fun t => Thinned s.dec t.dec) nextJob :=
    nextJob_spec (fun _ _ => True) (fun _ _ h => h)
      (fun au => (onDec_keeps (begin_thinned au)).after fun _ _ h => ⟨h, fun _ _ => trivial⟩)
      fun _ _ h _ => h
  exact Spec.state (hspec.enter ⟨hs, fun _ _ h => h⟩)

/-- The decoder completes the picture, if there is one. -/
lemma build_dec (job : DecodeJob) (ctx : BuildContext) :
    (s.pending = none ∧ (exec (codec.build job ctx) s).2.dec = s.dec) ∨ ∃ b, s.pending = some b ∧
        (exec (codec.build job ctx) s).2.dec = (exec (complete b ctx.current) s.dec).2 := by
  refine Spec.state (?_ : Ends s (build ctx) fun t => (s.pending = none ∧ t.dec = s.dec) ∨
    ∃ b, s.pending = some b ∧ t.dec = (exec (complete b ctx.current) s.dec).2)
  refine build_spec (fun hnone _ => .inl ⟨hnone, rfl⟩) fun b hb => ?_
  rintro _ rfl
  constructor
  · exact fun _ _ hrun => .inr ⟨b, hb, (congrArg Prod.snd hrun).symm⟩
  · exact fun _ _ hrun => .inr ⟨b, hb, (congrArg Prod.snd hrun).symm⟩

lemma build_holds (hs : Slotted s.dec) (job : DecodeJob) (ctx : BuildContext) :
    Slotted (exec (codec.build job ctx) s).2.dec ∧
      ∀ i x, (exec (codec.build job ctx) s).2.dec.Holds i x → s.dec.Holds i x ∨ x = ctx.current := by
  rcases build_dec (s := s) job ctx with ⟨-, hdec⟩ | ⟨b, -, hdec⟩
  · rw [hdec]
    exact ⟨hs, fun _ _ h => .inl h⟩
  · rw [hdec]
    exact complete_holds hs b ctx.current

/-- The picture that waits to be built refers to the entry with this slot. -/
def UsesSlot (s : H264Decoder) (slot i : ℕ) : Prop :=
  s.pending.isSome ∧ ∃ r, s.dec.entry i = some r ∧ r.slot = some slot

lemma build_planes (hs : Slotted s.dec) {job : DecodeJob} {ctx : BuildContext}
    {planes : List SurfaceRef} (hrun : exec (codec.build job ctx) s = (.ok planes, t)) :
    (∀ slot i, s.UsesSlot slot i → ∃ x, s.dec.Holds i x ∧ planes[slot]? = some (.session x)) ∧
      ∀ plane ∈ planes, plane = .session ctx.current ∨
        ∃ i x, s.dec.Holds i x ∧ plane = .session x := by
  have hspec : Yields (s = ·) (build ctx)
      fun planes _ => ∃ slot, ctx.current ∉ s.dec.referencedSurfaces ∧
        s.dec.colocatedSlot ctx.current = some slot ∧
        planes = (s.dec.programSlots slot ctx.current).map fun x => .session (x.getD ctx.current) := by
    refine build_spec (fun _ _ => trivial) fun b _ => ?_
    exact (complete_programs b ctx.current).after fun job _ h => ⟨job.slot, h.1, h.2.1, by rw [h.2.2]⟩
  obtain ⟨slot, htarget, hslot, rfl⟩ := (hspec s rfl).1 planes t hrun
  constructor
  · rintro slot' i ⟨-, r, hr, hrslot⟩
    obtain ⟨x, hx, hprogram⟩ : ∃ x, r.surface = some x ∧
        (s.dec.programSlots slot ctx.current)[slot']? = some (some x) :=
      programSlots_of_ref hs (hs.slot_free htarget hslot) hr hrslot
    refine ⟨x, ⟨r, hr, hx⟩, ?_⟩
    rw [getElem?_map, hprogram]
    rfl
  · intro plane hplane
    obtain ⟨o, ho, rfl⟩ := mem_map.mp hplane
    rcases mem_programSlots ho with rfl | rfl | ⟨i, x, hx, rfl⟩
    · exact .inl rfl
    · exact .inl rfl
    · exact .inr ⟨i, x, hx, rfl⟩

/-- Positions of the DPB are bound to the surfaces of their pictures. -/
def bindings : Bindings codec ℕ where
  inv := fun s => Slotted s.dec
  bound := fun s => s.dec.Holds
  uses := UsesSlot
  referenced := by
    rintro s i x - ⟨r, hr, hx⟩
    exact List.mem_filterMap.mpr ⟨r, mem_refs.mpr ⟨i, hr⟩, hx⟩
  pushUnit := fun _ hs => ⟨hs, fun _ _ h => h⟩
  nextJob := nextJob_thinned
  build := fun job ctx hs => build_holds hs job ctx
  finish := fun _ _ _ hs => ⟨hs, fun _ _ h => .inl h⟩
  flush := fun {s} hs => by
    have hclear : Retains s.dec s.dec.flush := (Retains.refl _).clear hs.positions rfl rfl
    have hthin : Thinned s.dec s.dec.flush :=
      Thinned.retains ⟨hs, fun _ _ h => h⟩ hclear
    exact hthin
  planes := fun hs hrun => build_planes hs hrun

/-- A decoder with the parameter sets of its configuration. -/
def configured (newH264 : Bool) (max : ℕ × ℕ) (sps : ℕ → Option Sps) (pps : ℕ → Option Pps) :
    H264Decoder :=
  { fresh newH264 max with dec := { newH264 := newH264, sps := sps, pps := pps } }

lemma configured_slotted (newH264 : Bool) (max : ℕ × ℕ) (sps : ℕ → Option Sps)
    (pps : ℕ → Option Pps) : Slotted (configured newH264 max sps pps).dec :=
  slotted_preserved.tables { newH264 := newH264 } sps pps (slotted_new newH264)

lemma configured_empty (newH264 : Bool) (max : ℕ × ℕ) (sps : ℕ → Option Sps) (pps : ℕ → Option Pps)
    (i x : ℕ) : ¬(configured newH264 max sps pps).dec.Holds i x := by
  rintro ⟨r, hr, -⟩
  rw [entry_replicate dpbPositions rfl] at hr
  cases hr

end H264Decoder

end NvidiaProlapse.H264
