import NvidiaProlapse.HevcPictures

/-!
# The conformance window of HEVC pictures

The window offsets of a sequence parameter set are bounded one by one, and nothing compares
them with the picture. The crop rectangle of a job is computed with 32-bit subtractions: it
lies inside the picture exactly where the window does.
-/
namespace NvidiaProlapse.Hevc

open Programs Video

/-- The window leaves no negative size. -/
def Sps.WindowFits (sps : Sps) : Prop :=
  2 * sps.confWin.1 + 2 * sps.confWin.2.1 ≤ sps.width ∧
    2 * sps.confWin.2.2.1 + 2 * sps.confWin.2.2.2 ≤ sps.height

/-- The crop rectangle lies inside the picture. -/
def InsidePicture (info : PictureInfo) : Prop :=
  info.crop.1 + info.crop.2.2.1 ≤ info.width ∧ info.crop.2.1 + info.crop.2.2.2 ≤ info.height

instance (info : PictureInfo) : Decidable (InsidePicture info) := inferInstanceAs (Decidable (_ ∧ _))

namespace HevcDecoder

/-- Only a window that fits gives a rectangle inside the picture. -/
lemma insidePicture_iff {sps : Sps} {j : PictureJob} (h : Decoder.Shows sps j) :
    InsidePicture (sessionInfo j) ↔ sps.WindowFits := by
  have hwindow := sps.confWin_le
  simp only [InsidePicture, sessionInfo, sub32, h.crop, h.width, h.height, Sps.WindowFits]
  omega

lemma nextJobFrom_stored (units : List AccessUnit) :
    Yields (fun _ => True) (nextJobFrom units) fun job s => ∀ d, job = some (.decode d) →
        ∃ j, Decoder.Stored j s.dec ∧ d.info = sessionInfo j := by
  refine nextJobFrom_spec (fun _ _ _ => trivial) (fun _ _ _ _ => trivial) (fun _ _ => trivial) ?_ ?_ units
  · rintro _ - _ ⟨⟩
  intro s j t _ hj
  refine .look (.guarded trivial fun _ => .guarded trivial fun _ => ?_)
  refine .write (fun u => u.dec = t) ?_ (.read fun u hu => .unchanged ?_)
  · rintro _ rfl
    simp only [takeJob, enterEpoch]
    split_ifs <;> rfl
  · rintro _ ⟨⟩
    exact ⟨j, hu ▸ hj.stored, rfl⟩

/-- Every decode job shows a picture of a stored sequence. Its crop rectangle lies inside the
picture exactly where the window of the sequence fits into it. -/
theorem crop_inside_iff {s t : HevcDecoder} {job : DecodeJob}
    (hnext : exec nextJob s = (.ok (some (.decode job)), t)) :
    ∃ j id sps, job.info = sessionInfo j ∧ t.dec.sps id = some sps ∧ Decoder.Shows sps j ∧
      (InsidePicture job.info ↔ sps.WindowFits) := by
  have hspec : Spec (fun _ => True) nextJob _ _ :=
    Spec.read fun s _ => (nextJobFrom_stored s.units).enter trivial
  obtain ⟨j, ⟨id, sps, hsps, hshows⟩, hinfo⟩ := (hspec s trivial).1 _ t hnext job rfl
  exact ⟨j, id, sps, hinfo, hsps, hshows, hinfo ▸ insidePicture_iff hshows⟩

/-- A decoder that was just created and has an IDR picture of 64x64 queued. -/
def idrQueued (left : ℕ) (h : left ≤ 16888) : HevcDecoder :=
  let sps : Sps :=
    { id := 0, width := 64, height := 64, confWin := (left, 0, 0, 0), confWin_le := by simpa using h }
  { fresh (fun _ _ _ => .ok ()) (64, 64) 8 with
    units := [[{ bytes := [66, 1], sps := .ok sps }, { bytes := [68, 1], pps := .ok ⟨0, 0⟩ },
      { bytes := [38, 1], slice := fun _ _ => .ok { ppsId := 0 } }]] }

theorem crop_inside_idr : ∃ job t, exec nextJob (idrQueued 4 (by decide)) =
      (.ok (some (.decode job)), t) ∧
    ∃ j id sps, job.info = sessionInfo j ∧ t.dec.sps id = some sps ∧ Decoder.Shows sps j ∧
      (InsidePicture job.info ↔ sps.WindowFits) :=
  ⟨_, _, rfl, crop_inside_iff (s := idrQueued 4 (by decide)) rfl⟩

/-- A left offset of 100 samples in a picture of 64 leaves a width of 2^32 - 36. -/
theorem crop_outside_idr : ∃ job t, exec nextJob (idrQueued 50 (by decide)) =
      (.ok (some (.decode job)), t) ∧
    job.info.width = 64 ∧ job.info.crop = (100, 0, 2 ^ 32 - 36, 64) ∧ ¬ InsidePicture job.info :=
  ⟨_, _, rfl, rfl, rfl, by decide⟩

end HevcDecoder

end NvidiaProlapse.Hevc
