import NvidiaProlapse.H264Bindings
import NvidiaProlapse.HevcBindings
import NvidiaProlapse.Vp9Units

/-!
# Decode targets

The references of VP9 are its eight slots: parsing reads them, and a finished frame replaces
those it refreshes. With this, each of H.264, HEVC and VP9 reports the surfaces of all of its
references, and binds a surface only to the picture that is decoded into it.
-/
namespace NvidiaProlapse

open Programs Video List

namespace Vp9

namespace Vp9Decoder

variable {s t : Vp9Decoder}

/-- The references of the frame that waits to be built are there. -/
def Ready (s : Vp9Decoder) : Prop :=
  ∀ h ∈ s.current, h.isIntra = false → ∀ idx ∈ h.refFrameIdx, (s.st.slot idx).surface.isSome

/-- Ready, with the slots `k`. -/
def ReadyWith (k : List RefSlot) (s : Vp9Decoder) : Prop := Ready s ∧ s.st.slots = k

lemma takeFrame_ready {k : List RefSlot} (frame : List UInt8) :
    Keeps (ReadyWith k) (takeFrame frame) := by
  have hparse : Spec (ReadyWith k) (onHeader (parse frame))
      (fun h t => ReadyWith k t ∧ (h.showExistingFrame = false → Referring k h)) fun _ => ReadyWith k := by
    refine .of_focus fun s hs => ?_
    have hready : ∀ p : Parsing, Slots k p → ReadyWith k { s with st := p.st } := by
      intro p hp
      refine ⟨fun h hh hinter idx hidx => ?_, hp⟩
      have hold := hs.1 h hh hinter idx hidx
      rw [Vp9State.slot, hs.2, ← (show p.st.slots = k from hp)] at hold
      exact hold
    have hslots : Slots k { st := s.st } := hs.2
    exact (parse_slots.enter hslots).post (fun h p hp => ⟨hready p hp.1, hp.2⟩)
      fun _ p hp => hready p hp
  refine .seq hparse fun h => .read ?_
  rintro s ⟨hs, hrefs⟩
  refine .guarded hs fun _ => ?_
  refine .branch (fun hexisting => ?_) fun hexisting => ?_
  · refine .look ?_
    cases (s.st.slot h.frameToShow).surface with
    | none => exact .refused hs
    | some surface => exact .unchanged hs
  · refine .look ?_
    refine .guarded hs fun _ => ?_
    refine .write (ReadyWith k) (fun _ h => h ▸ hs) ?_
    refine .either Spec.raise ?_
    refine .either Spec.raise ?_
    refine .write (ReadyWith k) (fun t ht => ⟨?_, ht.2⟩) Spec.ret
    rintro _ ⟨⟩ hinter idx hidx
    have hsome := (hrefs (by simpa using hexisting)).refs hinter idx hidx
    rw [← ht.2] at hsome
    exact hsome

lemma nextJob_ready (hs : Ready s) : ReadyWith s.st.slots (exec codec.nextJob s).2 := by
  have hfrom : ∀ frames, Keeps (ReadyWith s.st.slots) (nextJobFrom frames) := by
    intro frames
    induction frames with
    | nil => exact .ret
    | cons frame frames ih =>
      refine .write (ReadyWith s.st.slots) (fun _ h => h) ?_
      exact .either ih (takeFrame_ready frame)
  have hspec : Ends s nextJob (ReadyWith s.st.slots) := by
    refine Spec.look ?_
    exact (hfrom s.frames).enter ⟨hs, rfl⟩
  exact Spec.state hspec

lemma slot_refreshSlots (h : FrameHeader) (surface : ℕ) (st : Vp9State) (i x : ℕ)
    (hx : ((refreshSlots h surface st).slot i).surface = some x) :
    (st.slot i).surface = some x ∨ x = surface := by
  unfold Vp9State.slot refreshSlots at hx
  rw [getD_eq_getElem?_getD, getElem?_mapIdx] at hx
  unfold Vp9State.slot
  rw [getD_eq_getElem?_getD]
  cases hslot : st.slots[i]? with
  | none =>
    rw [hslot] at hx
    exact .inl hx
  | some slot =>
    rw [hslot] at hx
    split_ifs at hx with hbit
    · exact .inr (Option.some.inj hx).symm
    · exact .inl hx

/-- The slots hold the frames they held before, or the current one. -/
structure Refreshed (current : ℕ) (s t : Vp9Decoder) : Prop where
  length : t.st.slots.length = s.st.slots.length
  surface : ∀ i x, (t.st.slot i).surface = some x → (s.st.slot i).surface = some x ∨ x = current

lemma finish_refreshed (s : Vp9Decoder) (job : DecodeJob) (current : ℕ) (readback : Option (List UInt8)) :
    (exec (codec.finish job current readback) s).2.current = none ∧
      Refreshed current s (exec (codec.finish job current readback) s).2 := by
  have hspec : Spec (s = ·) (finish current readback)
      (fun _ t => t.current = none ∧ Refreshed current s t)
      fun _ t => t.current = none ∧ Refreshed current s t := by
    refine .look ?_
    refine .write (fun t => t.current = none ∧ t.st = s.st) (fun _ h => h ▸ ⟨rfl, rfl⟩) ?_
    have hsame : ∀ t : Vp9Decoder, t.current = none ∧ t.st = s.st →
        t.current = none ∧ Refreshed current s t :=
      fun t ht => ⟨ht.1, by rw [ht.2], fun i x hx => .inl (ht.2 ▸ hx)⟩
    cases s.current with
    | none => exact .of_throw hsame
    | some h =>
      refine .keeping (.onlyIf (.of_modify fun _ h => h)) (fun _ => hsame) fun _ => ?_
      refine .either (.of_throw hsame) ?_
      refine .of_modify fun t ht => ⟨ht.1, ?_, fun i x hx => ?_⟩
      · rw [← ht.2]
        exact length_mapIdx
      · rcases slot_refreshSlots h current t.st i x hx with hx | hx
        · exact .inl (ht.2 ▸ hx)
        · exact .inr hx
  exact Spec.state hspec

lemma Ready.of_none (h : s.current = none) : Ready s := by
  intro hdr hh
  rw [h] at hh
  cases hh

lemma slot_new (idx : ℕ) : (Vp9State.slot {} idx).surface = none := by
  unfold Vp9State.slot
  rw [getD_eq_getElem?_getD, getElem?_replicate]
  split_ifs
  · rfl
  · rfl

/-- Plane `i` of the frame that waits to be built shows this slot. -/
def UsesSlot (s : Vp9Decoder) (i idx : ℕ) : Prop :=
  ∃ h, s.current = some h ∧ h.isIntra = false ∧ h.refFrameIdx[i]? = some idx

lemma build_planes (hs : Ready s) {job : DecodeJob} {ctx : BuildContext} {shown : List SurfaceRef}
    (hrun : exec (codec.build job ctx) s = (.ok shown, t)) :
    (∀ i idx, s.UsesSlot i idx →
      ∃ x, (s.st.slot idx).surface = some x ∧ shown[i]? = some (.session x)) ∧
      ∀ plane ∈ shown, plane = .session ctx.current ∨
        ∃ idx x, (s.st.slot idx).surface = some x ∧ plane = .session x := by
  have hspec : Yields (s = ·) (build ctx)
      fun out _ => ∃ h, s.current = some h ∧ out = planes s.st h ctx.current := by
    refine .look ?_
    cases s.current with
    | none => exact .thrown
    | some h =>
      refine .tried fun _ _ => ?_
      exact .branch (fun _ => .thrown) fun _ => .of_pure fun _ _ => ⟨h, rfl, rfl⟩
  obtain ⟨h, hcurrent, rfl⟩ := (hspec s rfl).1 shown t hrun
  constructor
  · rintro i idx ⟨h', hh', hinter, hidx⟩
    obtain rfl : h = h' := Option.some.inj (hcurrent.symm.trans hh')
    obtain ⟨x, hx⟩ := Option.isSome_iff_exists.mp (hs h hcurrent hinter idx (mem_of_getElem? hidx))
    have hkey : h.isKey = false := (Bool.or_eq_false_iff.mp hinter).1
    refine ⟨x, hx, ?_⟩
    rw [planes, getElem?_append_left (by
      rw [length_map]
      exact (List.getElem?_eq_some_iff.mp hidx).1), List.getElem?_map, hidx]
    simp [hkey, hx]
  · refine forall_mem_append.mpr ⟨forall_mem_map.mpr fun idx _ => ?_, forall_mem_singleton.mpr (.inl rfl)⟩
    split_ifs
    · exact .inl rfl
    · cases hx : (s.st.slot idx).surface with
      | none => exact .inl rfl
      | some x => exact .inr ⟨idx, x, hx, rfl⟩

/-- Slots are bound to the surfaces of their frames. -/
def bindings : Bindings codec ℕ where
  inv := Ready
  bound := fun s idx x => (s.st.slot idx).surface = some x
  uses := UsesSlot
  referenced := by
    rintro s idx x - hx
    unfold Vp9State.slot at hx
    rw [List.getD_eq_getElem?_getD] at hx
    cases hslot : s.st.slots[idx]? with
    | none =>
      rw [hslot] at hx
      cases (show none = some x from hx)
    | some slot =>
      rw [hslot] at hx
      exact List.mem_filterMap.mpr ⟨slot, List.mem_of_getElem? hslot, hx⟩
  pushUnit := fun {s} data hs => by
    have hspec : Ends s (pushUnit data) (ReadyWith s.st.slots) := by
      refine .compute (fun _ _ => Spec.of_modify fun _ h => h ▸ ⟨hs, rfl⟩) ?_
      rintro _ _ - rfl
      exact ⟨hs, rfl⟩
    have hdone : ReadyWith s.st.slots (exec (codec.pushUnit data) s).2 := Spec.state hspec
    refine ⟨hdone.1, fun idx x hx => ?_⟩
    rwa [Vp9State.slot, hdone.2] at hx
  nextJob := fun {s} hs => by
    have hdone := nextJob_ready hs
    refine ⟨hdone.1, fun idx x hx => ?_⟩
    rwa [Vp9State.slot, hdone.2] at hx
  build := fun {s} job ctx hs => by
    have hsame : (exec (codec.build job ctx) s).2 = s := build_frames Prod.mk.eta.symm
    rw [hsame]
    exact ⟨hs, fun _ _ h => .inl h⟩
  finish := fun {s} job current readback _ => by
    obtain ⟨hnone, hrefreshed⟩ := finish_refreshed s job current readback
    exact ⟨.of_none hnone, hrefreshed.surface⟩
  flush := fun {s} hs => by
    refine ⟨?_, fun idx x hx => ?_⟩
    · rintro h ⟨⟩
    · cases (slot_new idx).symm.trans hx
  planes := fun hs hrun => build_planes hs hrun

end Vp9Decoder

end Vp9

/-! ## Runs -/

open Runs

/-- Whatever the calls on a session of H.264, HEVC or VP9: each decode went into a surface that no
unreleased picture and no reference of the codec had, and each reference was programmed from the
surface it is bound to, where it was decoded and which no decode picked since. -/
theorem decode_targets_never_live :
    (∀ newH264 max sps pps device extra calls s, run (perform H264.codec device) (Session.create
        H264.codec (H264.H264Decoder.configured newH264 max sps pps) extra) calls = some s →
      H264.H264Decoder.bindings.AllSafe s.attempts) ∧
    (∀ describe max bitDepth sps pps device extra calls s, run (perform Hevc.codec device)
        (Session.create Hevc.codec (Hevc.HevcDecoder.configured describe max bitDepth sps pps) extra)
        calls = some s →
      Hevc.HevcDecoder.bindings.AllSafe s.attempts) ∧
    ∀ max bitDepth device extra calls s, run (perform Vp9.codec device)
        (Session.create Vp9.codec (Vp9.fresh max bitDepth) extra) calls = some s →
      Vp9.Vp9Decoder.bindings.AllSafe s.attempts := by
  refine ⟨?_, ?_, ?_⟩
  · intro newH264 max sps pps device extra calls s hrun
    have hinv : H264.H264Decoder.bindings.inv (H264.H264Decoder.configured newH264 max sps pps) :=
      H264.H264Decoder.configured_slotted newH264 max sps pps
    exact Bindings.run_safe hinv (H264.H264Decoder.configured_empty newH264 max sps pps) hrun
  · intro describe max bitDepth sps pps device extra calls s hrun
    have hinv : Hevc.HevcDecoder.bindings.inv
        (Hevc.HevcDecoder.configured describe max bitDepth sps pps) :=
      Hevc.HevcDecoder.configured_live describe max bitDepth sps pps
    refine Bindings.run_safe hinv ?_ hrun
    rintro id x ⟨⟩
  · intro max bitDepth device extra calls s hrun
    have hinv : Vp9.Vp9Decoder.bindings.inv (Vp9.fresh max bitDepth) := by
      rintro h ⟨⟩
    refine Bindings.run_safe hinv (fun idx x hx => ?_) hrun
    cases (Vp9.Vp9Decoder.slot_new idx).symm.trans hx

/-- An IDR picture and a picture that refers to it. -/
def twoPictures : List (Call H264.AccessUnit) :=
  [.decode (some (H264.Decoder.parameterSets ++ [H264.Decoder.smallSlice
      { idr := true, nalRefIdc := 1, frameNum := 0 }])) 0 0,
    .decode (some [H264.Decoder.smallSlice { idr := false, nalRefIdc := 1, frameNum := 1 }]) 1 0]

theorem decode_targets_two_pictures :
    ∃ s, run (perform H264.codec (workingDevice _)) (Session.create H264.codec
        (H264.H264Decoder.configured true (64, 64) (fun _ => none) fun _ => none) 0) twoPictures =
      some s ∧ s.attempts.map Attempt.surface = [0, 1] ∧
      H264.H264Decoder.bindings.AllSafe s.attempts :=
  ⟨_, rfl, by decide +kernel, decode_targets_never_live.1 true (64, 64) (fun _ => none) (fun _ => none)
    (workingDevice _) 0 twoPictures _ rfl⟩

end NvidiaProlapse
