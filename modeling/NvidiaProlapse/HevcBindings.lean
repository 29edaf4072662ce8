import NvidiaProlapse.IndexedWrites
import NvidiaProlapse.SurfaceBindings
import NvidiaProlapse.HevcDisplayOrder

/-!
# Surfaces of HEVC references

The references are pictures, by id. A job keeps the surfaces of the pictures it refers to and
drops all others, and the picture that is built gets its own. Pictures of the DPB have
different slots, so each slot shows the picture it belongs to.
-/
namespace NvidiaProlapse.Hevc

open Programs Video IndexedWrites List

namespace Decoder

variable {d t : Decoder}

/-- Pictures of the DPB have slots of their own. -/
def Spaced (d : Decoder) : Prop := (d.dpb.map DpbPic.slot).Nodup ∧ ∀ p ∈ d.dpb, p.slot < 16

/-- The slots of the references and of the picture differ. -/
structure PlacedJob (j : PictureJob) : Prop where
  distinct : (j.refs.map Prod.fst).Nodup
  own : j.slot ∉ j.refs.map Prod.fst
  bounded : ∀ r ∈ j.refs, r.1 < 16

lemma freeSlot_eq_some {dpb : List DpbPic} {slot : ℕ} (h : freeSlot dpb = some slot) :
    slot < 16 ∧ slot ∉ dpb.map DpbPic.slot := by
  have hmem := mem_of_find?_eq_some h
  have hfree := find?_some h
  refine ⟨mem_range.mp hmem, ?_⟩
  intro hslot
  obtain ⟨p, hp, hps⟩ := mem_map.mp hslot
  have := all_eq_true.mp hfree p hp
  simp [hps] at this

lemma Spaced.sublist {dpb : List DpbPic} (hd : Spaced d) (h : dpb.Sublist d.dpb)
    (ht : t.dpb = dpb) : Spaced t := by
  unfold Spaced
  rw [ht]
  exact ⟨hd.1.sublist (h.map _), fun p hp => hd.2 p (h.subset hp)⟩

/-- A picture that joins the DPB has a slot of its own. -/
lemma Decoded.spaced {k : ℕ} {j : PictureJob} (h : Decoded d.dpb k j t) (hd : Spaced d) :
    Spaced t ∧ PlacedJob j := by
  obtain ⟨left, p, hleft, hfree, hp, hrefs, hdpb⟩ := h.placed
  obtain ⟨hnodup, hbound⟩ : Spaced { d with dpb := left } := hd.sublist hleft rfl
  obtain ⟨hlt, hnew⟩ := freeSlot_eq_some hfree
  have hfst : j.refs.map Prod.fst = left.map DpbPic.slot := by
    rw [hrefs, map_map]
    rfl
  refine ⟨⟨?_, ?_⟩, ⟨hfst ▸ hnodup, hfst ▸ hnew, ?_⟩⟩
  · rw [hdpb, map_append]
    exact hnodup.append (nodup_singleton _) (by simpa [hp] using hnew)
  · rw [hdpb, forall_mem_append, forall_mem_singleton]
    exact ⟨hbound, hp ▸ hlt⟩
  · rw [hrefs, forall_mem_map]
    exact hbound

end Decoder

namespace HevcDecoder

open Decoder

variable {s t : HevcDecoder}

/-- Surfaces belong to live pictures, and the slots of the picture that waits are distinct. -/
structure Live (s : HevcDecoder) : Prop where
  spaced : Spaced s.dec
  live : ∀ id x, s.surfaceOf id = some x → id ∈ s.live
  placed : ∀ j ∈ s.pending, PlacedJob j

/-- Live, and no picture got a surface since `m`. -/
def Shrunk (m : ℕ → Option ℕ) (s : HevcDecoder) : Prop :=
  Live s ∧ ∀ id x, s.surfaceOf id = some x → m id = some x

lemma offer_shrunk {m : ℕ → Option ℕ} {j : PictureJob} (hj : PlacedJob j) :
    Keeps (Shrunk m) (offer j) := by
  refine .read fun s hs => ?_
  refine .guarded hs fun _ => ?_
  refine .guarded hs fun _ => ?_
  refine .write (Shrunk m) (fun _ h => ?_) (.read fun t ht => .unchanged ht)
  subst h
  have hdec := (enterEpoch_history s j).2
  have hsurface : (enterEpoch j s).surfaceOf = s.surfaceOf := by
    unfold enterEpoch
    split_ifs
    · rfl
    · rfl
  have htaken : ∀ id x, (takeJob j (enterEpoch j s)).surfaceOf id = some x →
      id ∈ j.refs.map Prod.snd ∧ s.surfaceOf id = some x := by
    intro id x hx
    have hx' : (if id ∈ j.refs.map Prod.snd then (enterEpoch j s).surfaceOf id else none) = some x := hx
    split_ifs at hx' with hid
    exact ⟨hid, hsurface ▸ hx'⟩
  refine ⟨⟨?_, fun id x hx => (htaken id x hx).1, ?_⟩, fun id x hx => hs.2 id x (htaken id x hx).2⟩
  · show Spaced (enterEpoch j s).dec
    rw [hdec]
    exact hs.1.spaced
  · rintro _ ⟨⟩
    exact hj

lemma nextJobFrom_shrunk {m : ℕ → Option ℕ} (units : List AccessUnit) :
    Keeps (Shrunk m) (nextJobFrom units) := by
  refine @nextJobFrom_spec (Shrunk m) _ (fun _ => Shrunk m) ?_ ?_ (fun _ h => h) (fun _ h => h) ?_ units
  · exact fun s _ hs => ⟨{ hs.1 with }, hs.2⟩
  · exact fun s t hs ht => ⟨{ hs.1 with spaced := hs.1.spaced.sublist ht.dpb rfl }, hs.2⟩
  · intro s j t hs hj
    obtain ⟨hspaced, hplaced⟩ := hj.spaced hs.1.spaced
    exact (offer_shrunk hplaced).enter ⟨{ hs.1 with spaced := hspaced }, hs.2⟩

lemma nextJob_shrunk (hs : Live s) : Shrunk s.surfaceOf (exec codec.nextJob s).2 := by
  have hspec : Ends s nextJob (Shrunk s.surfaceOf) := by
    refine Spec.look ?_
    exact (nextJobFrom_shrunk s.units).enter ⟨hs, fun _ _ h => h⟩
  exact Spec.state hspec

/-! ## Planes -/

/-- The table of slots, if every reference has a surface. -/
lemma slotSurfaces_eq_ok {refs : List (ℕ × ℕ)} {slots out : List ℕ}
    (h : slotSurfaces s refs slots = .ok out) :
    (∀ r ∈ refs, (s.surfaceOf r.2).isSome) ∧
      out = writeAll (refs.map fun r => (r.1, (s.surfaceOf r.2).getD 0)) slots := by
  induction refs generalizing slots with
  | nil =>
    cases h
    exact ⟨by simp, rfl⟩
  | cons r refs ih =>
    obtain ⟨slot, id⟩ := r
    cases hsurface : s.surfaceOf id with
    | none => simp [slotSurfaces, hsurface] at h
    | some x =>
      simp only [slotSurfaces, hsurface] at h
      obtain ⟨hrefs, hout⟩ := ih h
      refine ⟨forall_mem_cons.mpr ⟨by simp [hsurface], hrefs⟩, ?_⟩
      simp [hout, hsurface]

/-- One build: the surfaces are looked up, then the picture gets its own. -/
lemma build_spec (job : DecodeJob) (ctx : BuildContext) :
    Spec (s = ·) (codec.build job ctx) (fun planes t => ∃ j slots, s.pending = some j ∧
        slotSurfaces s j.refs (List.replicate 17 ctx.current) = .ok slots ∧
        planes = (slots.set j.slot ctx.current).map .session ∧ t.dec = s.dec ∧ t.pending = none ∧
        t.surfaceOf = Function.update s.surfaceOf j.picId (some ctx.current) ∧
        t.live = s.live ++ [j.picId])
      fun _ t => t.dec = s.dec ∧ t.pending = none ∧ t.surfaceOf = s.surfaceOf ∧ t.live = s.live := by
  refine .look ?_
  refine .write (fun t => t = { s with pending := none }) (fun _ h => h ▸ rfl) ?_
  cases s.pending with
  | none =>
    refine .of_throw ?_
    rintro _ rfl
    exact ⟨rfl, rfl, rfl, rfl⟩
  | some j =>
    refine .compute (fun slots hslots => ?_) ?_
    · refine .write (fun t => t = { s with
        pending := none
        surfaceOf := Function.update s.surfaceOf j.picId (some ctx.current)
        live := s.live ++ [j.picId] }) (fun _ h => h ▸ rfl) (.of_pure ?_)
      rintro _ rfl
      exact ⟨j, slots, rfl, hslots, rfl, rfl, rfl, rfl, rfl⟩
    · rintro _ _ - rfl
      exact ⟨rfl, rfl, rfl, rfl⟩

lemma build_live (hs : Live s) (job : DecodeJob) (ctx : BuildContext) :
    Live (exec (codec.build job ctx) s).2 ∧ ∀ id x,
      (exec (codec.build job ctx) s).2.surfaceOf id = some x → s.surfaceOf id = some x ∨ x = ctx.current := by
  have hgood : Spec (s = ·) (codec.build job ctx)
      (fun _ t => Live t ∧ ∀ id x, t.surfaceOf id = some x → s.surfaceOf id = some x ∨ x = ctx.current)
      fun _ t => Live t ∧ ∀ id x, t.surfaceOf id = some x → s.surfaceOf id = some x ∨ x = ctx.current := by
    refine (build_spec job ctx).post ?_ ?_
    · rintro _ t ⟨j, slots, -, -, -, hdec, hpending, hsurface, hlive⟩
      have hcase : ∀ id x, t.surfaceOf id = some x →
          (id = j.picId ∧ x = ctx.current) ∨ s.surfaceOf id = some x := by
        intro id x hx
        rw [hsurface, Function.update_apply] at hx
        split_ifs at hx with hid
        · exact .inl ⟨hid, (Option.some.inj hx).symm⟩
        · exact .inr hx
      refine ⟨⟨hdec ▸ hs.spaced, fun id x hx => ?_, by simp [hpending]⟩, fun id x hx => ?_⟩
      · rw [hlive, mem_append, mem_singleton]
        rcases hcase id x hx with ⟨hid, -⟩ | hx
        · exact .inr hid
        · exact .inl (hs.live id x hx)
      · rcases hcase id x hx with ⟨-, hx⟩ | hx
        · exact .inr hx
        · exact .inl hx
    · rintro _ t ⟨hdec, hpending, hsurface, hlive⟩
      refine ⟨⟨hdec ▸ hs.spaced, ?_, by simp [hpending]⟩, ?_⟩
      · rw [hsurface, hlive]
        exact hs.live
      · rw [hsurface]
        exact fun _ _ h => .inl h
  exact Spec.state hgood

/-- The picture that waits to be built refers to this picture in this slot. -/
def UsesSlot (s : HevcDecoder) (slot id : ℕ) : Prop := ∃ j, s.pending = some j ∧ (slot, id) ∈ j.refs

lemma build_planes (hs : Live s) {job : DecodeJob} {ctx : BuildContext} {planes : List SurfaceRef}
    (hrun : exec (codec.build job ctx) s = (.ok planes, t)) :
    (∀ slot id, s.UsesSlot slot id →
      ∃ x, s.surfaceOf id = some x ∧ planes[slot]? = some (.session x)) ∧
      ∀ plane ∈ planes, plane = .session ctx.current ∨
        ∃ id x, s.surfaceOf id = some x ∧ plane = .session x := by
  obtain ⟨j, slots, hpending, hslots, rfl, -⟩ := (build_spec job ctx s rfl).1 planes t hrun
  obtain ⟨hsome, rfl⟩ := slotSurfaces_eq_ok hslots
  have hplaced := hs.placed j hpending
  constructor
  · rintro slot id ⟨j', hj', href⟩
    obtain rfl : j = j' := Option.some.inj (hpending.symm.trans hj')
    obtain ⟨x, hx⟩ := Option.isSome_iff_exists.mp (hsome _ href)
    refine ⟨x, hx, ?_⟩
    have hne : j.slot ≠ slot := by
      rintro rfl
      exact hplaced.own (mem_map.mpr ⟨_, href, rfl⟩)
    have hwritten : (writeAll (j.refs.map fun r => (r.1, (s.surfaceOf r.2).getD 0))
        (List.replicate 17 ctx.current))[slot]? = some x := by
      have hlt := hplaced.bounded _ href
      refine getElem?_writeAll ?_ ?_ (by rw [length_replicate]; omega)
      · exact mem_map.mpr ⟨_, href, by simp [hx]⟩
      · -- slots are distinct, so another write to the slot is of the same picture
        intro y hy
        obtain ⟨r, hr, hry⟩ := mem_map.mp hy
        have hsame : r = (slot, id) := inj_on_of_nodup_map hplaced.distinct hr href (Prod.ext_iff.mp hry).1
        rw [hsame] at hry
        simpa [hx] using (Prod.ext_iff.mp hry).2.symm
    rw [getElem?_map, getElem?_set_ne hne, hwritten]
    rfl
  · intro plane hplane
    obtain ⟨x, hx, rfl⟩ := mem_map.mp hplane
    rcases mem_or_eq_of_mem_set hx with hx | rfl
    · rcases mem_writeAll hx with hx | ⟨i, hi⟩
      · exact .inl (by rw [eq_of_mem_replicate hx])
      obtain ⟨r, hr, hri⟩ := mem_map.mp hi
      obtain ⟨y, hy⟩ := Option.isSome_iff_exists.mp (hsome r hr)
      rw [hy] at hri
      cases hri
      exact .inr ⟨r.2, y, hy, rfl⟩
    · exact .inl rfl

/-- Picture ids are bound to surfaces. -/
def bindings : Bindings codec ℕ where
  inv := Live
  bound := fun s id x => s.surfaceOf id = some x
  uses := UsesSlot
  referenced := fun {s id x} hs hx => List.mem_filterMap.mpr ⟨id, hs.live id x hx, hx⟩
  pushUnit := fun _ hs => ⟨{ hs with }, fun _ _ h => h⟩
  nextJob := nextJob_shrunk
  build := fun job ctx hs => build_live hs job ctx
  finish := fun _ _ _ hs => ⟨hs, fun _ _ h => .inl h⟩
  flush := fun {s} hs => by
    have hnone : ∀ id x, (codec.flush s).surfaceOf id ≠ some x := by
      rintro id x ⟨⟩
    refine ⟨⟨⟨List.nodup_nil, ?_⟩, fun id x hx => absurd hx (hnone id x), ?_⟩,
      fun id x hx => absurd hx (hnone id x)⟩
    · rintro p ⟨⟩
    · rintro j ⟨⟩
  planes := fun hs hrun => build_planes hs hrun

/-- A decoder with the parameter sets of its configuration. -/
def configured (describe : Sps → Pps → PicState → VResult Unit) (max : ℕ × ℕ) (bitDepth : ℕ)
    (sps : ℕ → Option Sps) (pps : ℕ → Option Pps) : HevcDecoder :=
  { fresh describe max bitDepth with dec := { describe := describe, sps := sps, pps := pps } }

lemma configured_live (describe : Sps → Pps → PicState → VResult Unit) (max : ℕ × ℕ) (bitDepth : ℕ)
    (sps : ℕ → Option Sps) (pps : ℕ → Option Pps) :
    Live (configured describe max bitDepth sps pps) := by
  refine ⟨⟨nodup_nil, ?_⟩, ?_, ?_⟩
  · rintro p ⟨⟩
  · rintro id x ⟨⟩
  · rintro j ⟨⟩

end HevcDecoder

end NvidiaProlapse.Hevc
