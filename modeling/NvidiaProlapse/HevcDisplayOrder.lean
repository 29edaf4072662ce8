import NvidiaProlapse.HevcPictures
import NvidiaProlapse.Runs

/-!
# Display keys of HEVC pictures

A display key is an epoch and an order count. A coded video sequence starts at an IRAP
picture with NoRaslOutputFlag, an epoch at an IRAP picture whose order count is not above
those of the epoch. Keys follow the sequences as far as the two agree.
-/
namespace NvidiaProlapse.Hevc

open Programs Runs Video List

/-! ## Epochs and sequences -/

namespace Shot

/-- Keys tell sequences apart and order the pictures of one sequence. -/
def InOrder (p x : Shot) : Prop :=
  (p.sequence < x.sequence → p.key < x.key) ∧
    (p.sequence = x.sequence → (p.key < x.key ↔ p.poc < x.poc) ∧ (x.key < p.key ↔ x.poc < p.poc))

instance (p x : Shot) : Decidable (InOrder p x) := inferInstanceAs (Decidable (_ ∧ _))

/-- Where the two pictures share the epoch but not the sequence, or the sequence but not the
epoch, the order counts increase. -/
def Fits (p x : Shot) : Prop :=
  (p.sequence < x.sequence → p.epoch = x.epoch → p.poc < x.poc) ∧
    (p.sequence = x.sequence → p.epoch < x.epoch → p.poc < x.poc)

/-- The key is the epoch and a 32-bit order count. -/
structure Keyed (x : Shot) : Prop where
  key : x.key = x.epoch * 2 ^ 32 + x.poc
  lower : -2 ^ 31 ≤ x.poc
  upper : x.poc < 2 ^ 31

variable {p x : Shot}

/-- A later epoch has larger keys. -/
lemma Keyed.key_lt (hp : Keyed p) (hx : Keyed x) (h : p.epoch < x.epoch) : p.key < x.key := by
  have := hp.upper
  have := hx.lower
  rw [hp.key, hx.key]
  omega

lemma Keyed.key_lt_iff (hp : Keyed p) (hx : Keyed x) (h : p.epoch = x.epoch) :
    p.key < x.key ↔ p.poc < x.poc := by
  rw [hp.key, hx.key, h]
  omega

lemma inOrder_iff_fits (hp : Keyed p) (hx : Keyed x) (hle : p.epoch ≤ x.epoch) :
    InOrder p x ↔ Fits p x := by
  rcases lt_or_eq_of_le hle with hlt | heq
  · have hkey := hp.key_lt hx hlt
    have hnot : ¬x.key < p.key := by omega
    simp only [InOrder, Fits, hkey, hnot, hlt, hlt.ne, false_implies, implies_true, true_and, true_iff,
      false_iff, not_lt]
    exact forall_congr' fun _ => ⟨fun h => fun _ => h.1, fun h => ⟨h trivial, (h trivial).le⟩⟩
  · simp only [InOrder, Fits, hp.key_lt_iff hx heq, hx.key_lt_iff hp heq.symm, heq, lt_irrefl]
    simp

end Shot

namespace HevcDecoder

open Shot

variable {s t : HevcDecoder} {j : PictureJob} {x : Shot}

/-- The history agrees with the epoch and the sequence the decoder is in. -/
structure Epochs (s : HevcDecoder) : Prop where
  keyed : ∀ x ∈ s.history, Keyed x
  epoch : ∀ x ∈ s.history, x.epoch ≤ s.epoch
  sequence : ∀ x ∈ s.history, x.sequence ≤ s.dec.sequences
  maximum : ∀ x ∈ s.history, x.epoch = s.epoch → ∃ m, s.epochMaxPoc = some m ∧ x.poc ≤ m

lemma Epochs.congr (hs : Epochs s) (hhistory : t.history = s.history) (hepoch : t.epoch = s.epoch)
    (hmax : t.epochMaxPoc = s.epochMaxPoc) (hdec : s.dec.sequences ≤ t.dec.sequences) : Epochs t := by
  constructor
  · rw [hhistory]
    exact hs.keyed
  · rw [hhistory, hepoch]
    exact hs.epoch
  · rw [hhistory]
    exact fun x hx => (hs.sequence x hx).trans hdec
  · rw [hhistory, hepoch, hmax]
    exact hs.maximum

/-- What the picture adds to the history. -/
def shotOf (s : HevcDecoder) (j : PictureJob) : Shot :=
  let s := enterEpoch j s
  { j with epoch := s.epoch, key := s.displayKey j }

/-- The history as it was, or with a picture that may violate the order only if it does not
start a sequence. -/
def Grown (h : List Shot) (t : HevcDecoder) : Prop :=
  t.history = h ∨ ∃ x, t.history = h ++ [x] ∧ (∀ p ∈ h, p.epoch ≤ x.epoch) ∧
    (x.starts = true → ∀ p ∈ h, Fits p x)

lemma enterEpoch_epoch (s : HevcDecoder) (j : PictureJob) :
    (enterEpoch j s).epoch = if s.startsEpoch j then s.epoch + 1 else s.epoch := by
  unfold enterEpoch
  split_ifs <;> rfl

lemma enterEpoch_history (s : HevcDecoder) (j : PictureJob) :
    (enterEpoch j s).history = s.history ∧ (enterEpoch j s).dec = s.dec := by
  unfold enterEpoch
  split_ifs <;> exact ⟨rfl, rfl⟩

lemma le_enterEpoch (hs : Epochs s) (j : PictureJob) :
    ∀ p ∈ s.history, p.epoch ≤ (enterEpoch j s).epoch := by
  intro p hp
  have := hs.epoch p hp
  rw [enterEpoch_epoch]
  split_ifs
  · omega
  · omega

/-- The order counts of the epoch stay below its maximum. -/
lemma le_epochMaxPoc (hs : Epochs s) (j : PictureJob) (p : Shot) (hp : p ∈ s.history)
    (hepoch : p.epoch = (enterEpoch j s).epoch) :
    ∃ m, (enterEpoch j s).epochMaxPoc = some m ∧ p.poc ≤ m := by
  have hle := hs.epoch p hp
  rw [enterEpoch_epoch] at hepoch
  unfold enterEpoch
  split_ifs at hepoch ⊢ with h
  · omega
  · obtain ⟨m, hm, hpm⟩ := hs.maximum p hp hepoch
    exact ⟨Max.max m j.poc, by rw [hm]; rfl, hpm.trans (le_max_left m j.poc)⟩

lemma poc_le_epochMaxPoc (s : HevcDecoder) (j : PictureJob) :
    ∃ m, (enterEpoch j s).epochMaxPoc = some m ∧ j.poc ≤ m := by
  unfold enterEpoch
  split_ifs
  · exact ⟨j.poc, rfl, le_refl _⟩
  · cases s.epochMaxPoc with
    | none => exact ⟨j.poc, rfl, le_refl _⟩
    | some m => exact ⟨Max.max m j.poc, rfl, le_max_right m j.poc⟩

lemma takeJob_history (s : HevcDecoder) (j : PictureJob) :
    (takeJob j (enterEpoch j s)).history = s.history ++ [s.shotOf j] := by
  show (enterEpoch j s).history ++ _ = _
  rw [(enterEpoch_history s j).1]
  rfl

lemma takeJob_epochs (hs : Epochs s) (hj : j.sequence = s.dec.sequences) (hlower : -2 ^ 31 ≤ j.poc)
    (hupper : j.poc < 2 ^ 31) : Epochs (takeJob j (enterEpoch j s)) := by
  have hhistory := takeJob_history s j
  have hdec : (takeJob j (enterEpoch j s)).dec = s.dec := (enterEpoch_history s j).2
  constructor
  · rw [hhistory, forall_mem_append, forall_mem_singleton]
    exact ⟨hs.keyed, ⟨rfl, hlower, hupper⟩⟩
  · rw [hhistory, forall_mem_append, forall_mem_singleton]
    exact ⟨le_enterEpoch hs j, le_refl _⟩
  · rw [hhistory, hdec, forall_mem_append, forall_mem_singleton]
    exact ⟨hs.sequence, hj.le⟩
  · rw [hhistory, forall_mem_append, forall_mem_singleton]
    exact ⟨le_epochMaxPoc hs j, fun _ => poc_le_epochMaxPoc s j⟩

/-- A picture that starts a sequence comes after everything in its epoch. -/
lemma fits_of_starts (hs : Epochs s) (hirap : j.starts = true → j.keyframe = true)
    (hlater : j.starts = true → ∀ p ∈ s.history, p.sequence < j.sequence) (hstarts : j.starts = true) :
    ∀ p ∈ s.history, Fits p (s.shotOf j) := by
  intro p hp
  have hlt := hlater hstarts p hp
  refine ⟨?_, fun heq => absurd heq hlt.ne⟩
  intro _ hepoch
  have hle := hs.epoch p hp
  have hepoch' : p.epoch = if s.startsEpoch j then s.epoch + 1 else s.epoch := by
    rw [← enterEpoch_epoch]
    exact hepoch
  split_ifs at hepoch' with h
  · omega
  obtain ⟨m, hm, hpm⟩ := hs.maximum p hp hepoch'
  have : ¬j.poc ≤ m := by simpa [startsEpoch, hirap hstarts, hm] using h
  show p.poc < j.poc
  omega

/-! ## Jobs -/

/-- A picture that was decoded from the next access unit. -/
structure Offered (j : PictureJob) (s : HevcDecoder) : Prop where
  epochs : Epochs s
  sequence : j.sequence = s.dec.sequences
  later : j.starts = true → ∀ p ∈ s.history, p.sequence < j.sequence
  irap : j.starts = true → j.keyframe = true
  lower : -2 ^ 31 ≤ j.poc
  upper : j.poc < 2 ^ 31

lemma offer_grows (hs : Offered j s) :
    Spec (s = ·) (offer j) (fun _ t => Epochs t ∧ Grown s.history t)
      fun _ t => Epochs t ∧ Grown s.history t := by
  refine .look ?_
  have hsame : Epochs s ∧ Grown s.history s := ⟨hs.epochs, .inl rfl⟩
  refine .guarded hsame fun _ => ?_
  refine .guarded hsame fun _ => ?_
  refine .write (fun t => Epochs t ∧ Grown s.history t) ?_ ?_
  · rintro _ rfl
    refine ⟨takeJob_epochs hs.epochs hs.sequence hs.lower hs.upper, .inr ⟨s.shotOf j, ?_, ?_, ?_⟩⟩
    · rw [takeJob_history]
    · exact le_enterEpoch hs.epochs j
    · exact fits_of_starts hs.epochs hs.irap hs.later
  · exact .read fun t ht => .unchanged ht

lemma nextJobFrom_grows {h : List Shot} (units : List AccessUnit) :
    Spec (fun s => Epochs s ∧ s.history = h) (nextJobFrom units)
      (fun _ t => Epochs t ∧ Grown h t) fun _ t => Epochs t ∧ Grown h t := by
  refine nextJobFrom_spec ?_ ?_ (fun s hs => ⟨hs.1, .inl hs.2⟩) (fun s hs => ⟨hs.1, .inl hs.2⟩) ?_ units
  · exact fun s _ hs => ⟨hs.1.congr rfl rfl rfl (le_refl _), hs.2⟩
  · exact fun s t hs ht => ⟨hs.1.congr rfl rfl rfl ht.sequences, hs.2⟩
  rintro s j t ⟨hs, rfl⟩ hj
  refine offer_grows { hj with epochs := hs.congr rfl rfl rfl hj.kept, later := ?_ }
  intro hstarts p hp
  rw [hj.sequence]
  exact lt_of_le_of_lt (hs.sequence p hp) (hj.later hstarts)

lemma nextJob_grows (hs : Epochs s) :
    Spec (s = ·) nextJob (fun _ t => Epochs t ∧ Grown s.history t)
      fun _ t => Epochs t ∧ Grown s.history t := by
  refine .look ?_
  exact (nextJobFrom_grows s.units).enter ⟨hs, rfl⟩

lemma build_history (hs : Epochs s) (ctx : BuildContext) :
    Spec (s = ·) (build ctx) (fun _ t => Epochs t ∧ t.history = s.history)
      fun _ t => Epochs t ∧ t.history = s.history := by
  refine .look ?_
  refine .write (fun t => Epochs t ∧ t.history = s.history) ?_ ?_
  · rintro _ rfl
    exact ⟨hs.congr rfl rfl rfl (le_refl _), rfl⟩
  cases s.pending with
  | none => exact .raise
  | some j =>
    refine .compute (fun slots _ => ?_) fun _ _ _ h => h
    refine .finish ?_
    exact fun t ht => ⟨ht.1.congr rfl rfl rfl (le_refl _), ht.2⟩

/-! ## Whole streams -/

lemma perform_grows (hs : Epochs s) (call : CodecCall AccessUnit) :
    Epochs (codec.perform s call) ∧ Grown s.history (codec.perform s call) := by
  cases call with
  | pushUnit data => exact ⟨hs.congr rfl rfl rfl (le_refl _), .inl rfl⟩
  | nextJob => exact Spec.state (nextJob_grows hs)
  | build job ctx =>
    have hbuild := Spec.state (build_history hs ctx)
    exact ⟨hbuild.1, .inl hbuild.2⟩
  | finish job current readback => exact ⟨hs, .inl rfl⟩
  | flush =>
    refine ⟨⟨hs.keyed, ?_, hs.sequence, ?_⟩, .inl rfl⟩
    · exact fun x hx => (hs.epoch x hx).trans (by show s.epoch ≤ s.epoch + 1; omega)
    intro x hx heq
    have hle := hs.epoch x hx
    have : x.epoch = s.epoch + 1 := heq
    omega

/-- A call that turns a picture into a job, where the picture does not start a sequence, finds
its epoch and its sequence in agreement. -/
def Agrees (s : HevcDecoder) (call : CodecCall AccessUnit) : Prop :=
  ∀ x, (codec.perform s call).history = s.history ++ [x] → x.starts = false →
    ∀ p ∈ s.history, Fits p x

lemma perform_inOrder_iff (hs : Epochs s) (hinv : s.history.Pairwise InOrder)
    (call : CodecCall AccessUnit) :
    (codec.perform s call).history.Pairwise InOrder ↔ Agrees s call := by
  obtain ⟨hepochs, hgrown⟩ := perform_grows hs call
  unfold Agrees
  rcases hgrown with hsame | ⟨x, hx, hle, hstarts⟩
  · rw [hsame]
    refine iff_of_true hinv ?_
    intro x hx
    have := congrArg length hx
    simp at this
  · have hkeyed : Keyed x := hepochs.keyed x (by simp [hx])
    have hiff : ∀ p ∈ s.history, InOrder p x ↔ Fits p x := fun p hp =>
      inOrder_iff_fits (hs.keyed p hp) hkeyed (hle p hp)
    rw [hx, pairwise_append]
    simp only [pairwise_singleton, mem_singleton, forall_eq, hinv, true_and,
      append_cancel_left_eq, cons.injEq, and_true, forall_eq']
    constructor
    · intro h hx p hp
      exact (hiff p hp).mp (h p hp)
    intro h p hp
    cases hx : x.starts with
    | true => exact (hiff p hp).mpr (hstarts hx p hp)
    | false => exact (hiff p hp).mpr (h hx p hp)

/-- One slice segment of a NAL unit type. -/
def sliceNal (t : UInt8) (hdr : SliceHeader) : Nal where
  bytes := [2 * t, 1]
  slice := fun _ _ => .ok hdr

lemma size_accepted : 64 ≤ 16888 ∧ 64 ≤ 16888 := by decide

lemma window_accepted : 0 ≤ 16888 ∧ 0 ≤ 16888 ∧ 0 ≤ 16888 ∧ 0 ≤ 16888 := by decide

/-- An IDR picture, a picture with order count 2, a BLA picture with order count 10 and a
decodable leading picture of it with order count 1. -/
def leadingPicture : List (CodecCall AccessUnit) :=
  let sps : Nal :=
    { bytes := [66, 1], sps := .ok ⟨0, 64, 64, (0, 0, 0, 0), 8, 8, 0, size_accepted, window_accepted⟩ }
  let pps : Nal := { bytes := [68, 1], pps := .ok ⟨0, 0⟩ }
  [.pushUnit [sps, pps, sliceNal 19 { ppsId := 0 }], .nextJob,
    .pushUnit [sliceNal 1 { ppsId := 0, pocLsb := 2, rps := { s0 := [(-2, true)] } }], .nextJob,
    .pushUnit [sliceNal 17 { ppsId := 0, pocLsb := 10 }], .nextJob,
    .pushUnit [sliceNal 7 { ppsId := 0, pocLsb := 1, rps := { s1 := [(9, true)] } }], .nextJob]

end HevcDecoder

end NvidiaProlapse.Hevc
