import NvidiaProlapse.Hevc

/-!
# What an access unit does to the HEVC decoder

An access unit gives at most one picture. Pictures that are not needed any more leave the DPB,
and the picture joins it in a free slot. Every invariant of the decoder follows from that.
-/
namespace NvidiaProlapse.Hevc

open Programs Video List

namespace Decoder

/-- A picture of the sequence has its size and its window. -/
structure Shows (sps : Sps) (j : PictureJob) : Prop where
  width : j.width = sps.width
  height : j.height = sps.height
  crop : j.crop = (sps.confWin.1 * 2, sps.confWin.2.1 * 2, sps.confWin.2.2.1 * 2,
    sps.confWin.2.2.2 * 2)

/-- The picture belongs to a stored sequence. -/
def Stored (j : PictureJob) (d : Decoder) : Prop := ∃ id sps, d.sps id = some sps ∧ Shows sps j

/-- A new picture belongs to the latest sequence, and to a new one if it starts one. -/
structure Follows (k : ℕ) (j : PictureJob) (t : Decoder) : Prop where
  sequence : j.sequence = t.sequences
  later : j.starts = true → k < t.sequences
  irap : j.starts = true → j.keyframe = true
  lower : -2 ^ 31 ≤ j.poc
  upper : j.poc < 2 ^ 31

/-- Pictures may have left the DPB, and a sequence may have started. -/
structure Kept (dpb : List DpbPic) (k : ℕ) (t : Decoder) : Prop where
  dpb : t.dpb.Sublist dpb
  sequences : k ≤ t.sequences

/-- The picture joined what was left of the DPB. -/
structure Decoded (dpb : List DpbPic) (k : ℕ) (j : PictureJob) (t : Decoder) : Prop
    extends Follows k j t where
  kept : k ≤ t.sequences
  placed : ∃ left p, left.Sublist dpb ∧ freeSlot left = some j.slot ∧ p.slot = j.slot ∧
    j.refs = left.map (fun p => (p.slot, p.id)) ∧ t.dpb = left ++ [p]
  stored : Stored j t

variable {d : Decoder} {dpb : List DpbPic} {k : ℕ}

lemma wrap_lower (n : ℤ) : -2 ^ 31 ≤ wrap n := by
  have := Int.le_bmod (x := n) (m := 2 ^ 32) (by norm_num)
  norm_num at this ⊢
  exact this

lemma wrap_upper (n : ℤ) : wrap n < 2 ^ 31 := by
  have := Int.bmod_lt (x := n) (m := 2 ^ 32) (by norm_num)
  norm_num at this ⊢
  exact this

lemma pictureOrderCount_wraps (d : Decoder) (sps : Sps) (starts : Bool) (lsb : ℕ) :
    ∃ n, d.pictureOrderCount sps starts lsb = wrap n := by
  unfold pictureOrderCount
  split_ifs
  · exact ⟨_, rfl⟩
  · exact ⟨_, rfl⟩

lemma decodePicture_decodes (u tid : ℕ) {starts : Bool} {sps : Sps} (pps : Pps) (h : SliceHeader)
    (slices : List (Nal × SliceHeader)) {id : ℕ} (hsps : d.sps id = some sps)
    (hirap : starts = true → isIrap u = true) :
    Spec (d = ·) (decodePicture u tid starts sps pps h slices) (Decoded d.dpb d.sequences)
      fun _ => Kept d.dpb d.sequences := by
  refine .look ?_
  obtain ⟨n, hn⟩ := d.pictureOrderCount_wraps sps starts h.pocLsb
  rw [hn]
  refine .write (fun t => Kept d.dpb d.sequences t ∧ t.sps = d.sps ∧
    (starts = true → d.sequences < t.sequences)) ?_ (.read ?_)
  · rintro _ rfl
    unfold beginPicture
    cases starts with
    | false => exact ⟨⟨.refl _, le_rfl⟩, rfl, by simp⟩
    | true => exact ⟨⟨nil_sublist _, Nat.le_succ _⟩, rfl, fun _ => Nat.lt_succ_self _⟩
  rintro b ⟨hb, hsame, hlater⟩
  refine .given hb fun refs _ => ?_
  refine .write (fun t => t = { b with dpb := b.dpb.filter fun p => p.id ∈ refs.2.2 })
    (fun _ h => h ▸ rfl) (.read ?_)
  rintro _ rfl
  have hleft : Kept d.dpb d.sequences { b with dpb := b.dpb.filter fun p => p.id ∈ refs.2.2 } :=
    ⟨filter_sublist.trans hb.dpb, hb.sequences⟩
  dsimp only
  cases hslot : freeSlot (b.dpb.filter fun p => p.id ∈ refs.2.2) with
  | none => exact .refused hleft
  | some slot =>
    refine .given hleft fun diff _ => .given hleft fun _ _ => .last ?_
    exact ⟨⟨rfl, hlater, hirap, wrap_lower n, wrap_upper n⟩, hb.sequences,
      ⟨_, _, hleft.dpb, hslot, rfl, rfl, rfl⟩, id, sps, hsame ▸ hsps, rfl, rfl, rfl⟩

lemma picture_decodes (u tid : ℕ) (h : SliceHeader) (slices : List (Nal × SliceHeader)) :
    Spec (d = ·) (picture u tid h slices)
      (fun j t => j.elim (Kept d.dpb d.sequences t) (Decoded d.dpb d.sequences · t))
      fun _ => Kept d.dpb d.sequences := by
  refine .look (.given ⟨.refl _, le_rfl⟩ fun found hfound => ?_)
  have hsps : d.sps found.2.spsId = some found.1 := by
    unfold tables at hfound
    split at hfound
    · cases hfound
    split at hfound
    · cases hfound
    · cases hfound
      assumption
  refine .write (fun t => ∃ skip, t = { d with skipRasl := skip }) ?_ (.of_states ?_)
  · rintro _ rfl
    exact ⟨_, rfl⟩
  rintro _ ⟨skip, rfl⟩
  refine .either (.unchanged ⟨.refl _, le_rfl⟩) (.either (.refused ⟨.refl _, le_rfl⟩) ?_)
  have hirap : d.noRaslOutput u = true → isIrap u = true := fun h => (Bool.and_eq_true_iff.mp h).1
  exact .seq (decodePicture_decodes u tid _ h slices hsps hirap) fun j => .of_pure fun _ ht => ht

section Tables

variable {inv : Decoder → Prop}
  (hinv : ∀ d sps pps first, inv d → inv { d with sps := sps, pps := pps, firstInCvs := first })

include hinv

lemma takeNal_keeps (nal : Nal) (pic : Option Coded) : Keeps inv (takeNal nal pic) := by
  refine .either ?_ ?_
  · refine .compute (fun s _ => ?_) fun _ _ _ h => h
    exact .write inv (fun d h => hinv d _ d.pps d.firstInCvs h) Spec.ret
  refine .either ?_ ?_
  · refine .compute (fun s _ => ?_) fun _ _ _ h => h
    exact .write inv (fun d h => hinv d d.sps _ d.firstInCvs h) Spec.ret
  refine .either ?_ ?_
  · exact .write inv (fun d h => hinv d d.sps d.pps _ h) Spec.ret
  refine .either ?_ ?_
  · refine .read fun t ht => ?_
    refine .given ht fun hdr _ => ?_
    exact .compute (fun pic' _ => .unchanged ht) fun _ _ _ h => h ▸ ht
  · exact .either Spec.raise Spec.ret

lemma collect_keeps (au : AccessUnit) (pic : Option Coded) : Keeps inv (collect au pic) := by
  induction au generalizing pic with
  | nil => exact .ret
  | cons nal nals ih =>
    refine .compute (fun _ _ => ?_) fun _ _ _ h => h
    refine .either (ih pic) ?_
    exact .seq (takeNal_keeps hinv nal pic) fun pic' => ih pic'

end Tables

lemma decodeAu_decodes (au : AccessUnit) :
    Spec (fun d => d.dpb = dpb ∧ d.sequences = k) (decodeAu au)
      (fun j t => j.elim (Kept dpb k t) (Decoded dpb k · t)) fun _ => Kept dpb k := by
  have hcollect : Keeps (fun d : Decoder => d.dpb = dpb ∧ d.sequences = k) (collect au none) :=
    collect_keeps (fun _ _ _ _ h => h) au none
  refine .seq (hcollect.fallback fun _ t ht => ?_) fun pic => .of_states ?_
  · exact ⟨ht.1 ▸ .refl _, ht.2.ge⟩
  rintro d ⟨rfl, rfl⟩
  cases pic with
  | none => exact .unchanged ⟨.refl _, le_rfl⟩
  | some pic => exact picture_decodes pic.unitType pic.tid pic.hdr pic.slices

end Decoder

namespace HevcDecoder

open Decoder

/-- The next job comes from the first access unit with a picture. -/
lemma nextJobFrom_spec {pre bad : HevcDecoder → Prop} {ok : Option Job → HevcDecoder → Prop}
    (hunits : ∀ s units, pre s → pre { s with units := units })
    (hkept : ∀ s t, pre s → Kept s.dec.dpb s.dec.sequences t → pre { s with dec := t })
    (hbad : ∀ s, pre s → bad s) (hnone : ∀ s, pre s → ok none s)
    (hoffer : ∀ s j t, pre s → Decoded s.dec.dpb s.dec.sequences j t →
      Spec ({ s with dec := t } = ·) (offer j) ok fun _ => bad) (units : List AccessUnit) :
    Spec pre (nextJobFrom units) ok fun _ => bad := by
  induction units with
  | nil => exact .of_pure hnone
  | cons au units ih =>
    refine .write pre (fun s hs => hunits s units hs) ?_
    have hdecode : Spec pre (onDec (decodeAu au))
        (fun j s => j.elim (pre s) fun j => Spec (s = ·) (offer j) ok fun _ => bad) fun _ => bad := by
      refine .of_focus fun s hs => ((decodeAu_decodes au).enter ⟨rfl, rfl⟩).post ?_ ?_
      · intro j t ht
        cases j with
        | none => exact hkept s t hs ht
        | some j => exact hoffer s j t hs ht
      · exact fun _ t ht => hbad _ (hkept s t hs ht)
    refine .seq hdecode fun j => ?_
    cases j with
    | none => exact ih
    | some j => exact .of_states fun s hs => hs

end HevcDecoder

end NvidiaProlapse.Hevc
