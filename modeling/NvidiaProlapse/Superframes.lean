import NvidiaProlapse.Vp9

/-!
# Splitting superframes

An encoder appends an index to the frames of a superframe: the size of each frame in
`mag` bytes between two marker bytes. Splitting reads the sizes back and cuts the packet
from its start. A size is checked against the packet and not against the bytes before the
index.
-/
namespace NvidiaProlapse.Vp9

open Video List

variable {data : List UInt8} {frames : List (List UInt8)} {mag : ℕ}

def sizeBytes : ℕ → ℕ → List UInt8
  | 0, _ => []
  | mag + 1, size => UInt8.ofNat size :: sizeBytes mag (size / 256)

def marker (mag count : ℕ) : UInt8 := UInt8.ofNat (0xc0 + 8 * (mag - 1) + (count - 1))

/-- A superframe as Annex B describes it. -/
def assemble (mag : ℕ) (frames : List (List UInt8)) : List UInt8 :=
  frames.flatten ++ marker mag frames.length :: frames.flatMap (fun frame => sizeBytes mag frame.length) ++
    [marker mag frames.length]

/-- The packet ends in an index of `count` sizes of `mag` bytes each, which starts at `start`. -/
def Indexed (data : List UInt8) (mag count start : ℕ) : Prop :=
  ∃ last, data.getLast? = some last ∧ data[start]? = some last ∧ last.toNat / 32 = 6 ∧
    last.toNat / 8 % 4 + 1 = mag ∧ last.toNat % 8 + 1 = count ∧ start + (2 + mag * count) = data.length

/-- The bytes of `frames` frames together, by the sizes from `pos` on. -/
def declared (data : List UInt8) (mag : ℕ) : ℕ → ℕ → ℕ
  | 0, _ => 0
  | frames + 1, pos => littleEndian ((data.drop pos).take mag) + declared data mag frames (pos + mag)

lemma length_sizeBytes (size : ℕ) : (sizeBytes mag size).length = mag := by
  induction mag generalizing size with
  | zero => rfl
  | succ mag ih => simp [sizeBytes, ih]

lemma littleEndian_sizeBytes {size : ℕ} (h : size < 256 ^ mag) : littleEndian (sizeBytes mag size) = size := by
  induction mag generalizing size with
  | zero => simp_all [sizeBytes, littleEndian]
  | succ mag ih =>
    have hdiv : size / 256 < 256 ^ mag := Nat.div_lt_of_lt_mul (by rwa [pow_succ, mul_comm] at h)
    simp only [sizeBytes, littleEndian, ih hdiv, UInt8.toNat_ofNat']
    omega

/-- The sizes of the frames stand in the index from `pos` on and the frames from `off` on. -/
lemma sliceFrames_assembled {before index rest tail : List UInt8}
    (hsizes : ∀ frame ∈ frames, frame.length < 256 ^ mag) (hoff : data = before ++ (frames.flatten ++ rest))
    (hpos : data = index ++ (frames.flatMap (fun frame => sizeBytes mag frame.length) ++ tail)) :
    sliceFrames data mag frames.length index.length before.length = .ok frames := by
  induction frames generalizing before index with
  | nil => rfl
  | cons frame frames ih =>
    rw [forall_mem_cons] at hsizes
    have hsize : littleEndian ((data.drop index.length).take mag) = frame.length := by
      rw [hpos, drop_left, flatMap_cons, append_assoc, take_append_of_le_length (length_sizeBytes _).ge,
        take_of_length_le (length_sizeBytes _).le, littleEndian_sizeBytes hsizes.1]
    have hrest := @ih (before ++ frame) (index ++ sizeBytes mag frame.length) hsizes.2 (by simp [hoff]) (by simp [hpos])
    simp only [length_append, length_sizeBytes] at hrest
    have hfits : before.length + frame.length ≤ data.length := by simp [hoff]
    have hframe : (data.drop before.length).take frame.length = frame := by simp [hoff]
    simp [sliceFrames, hsize, hfits, hrest, hframe]
    rfl

lemma sliceFrames_consecutive {count pos off : ℕ} (hoff : off ≤ data.length)
    (h : sliceFrames data mag count pos off = .ok frames) :
    frames.flatten = (data.drop off).take (declared data mag count pos) ∧
      off + declared data mag count pos ≤ data.length := by
  induction count generalizing pos off frames with
  | zero =>
    cases h
    simp [declared, hoff]
  | succ count ih =>
    simp only [sliceFrames, declared] at h ⊢
    generalize littleEndian ((data.drop pos).take mag) = size at h ⊢
    split_ifs at h with hfits
    cases hrest : sliceFrames data mag count (pos + mag) (off + size) with
    | error e => simp [hrest, bind, Except.bind] at h
    | ok rest =>
      obtain ⟨hflat, hlength⟩ := ih hfits hrest
      rw [hrest] at h
      cases h
      simp [hflat, take_add, ← add_assoc, hlength]

lemma splitSuperframe_indexed {count start : ℕ} (h : Indexed data mag count start) :
    splitSuperframe data = sliceFrames data mag count (start + 1) 0 := by
  obtain ⟨last, hlast, hfirst, hmark, rfl, rfl, hlength⟩ := h
  have hstart : data.length - (2 + (last.toNat / 8 % 4 + 1) * (last.toNat % 8 + 1)) = start := by omega
  simp only [splitSuperframe, hlast, hmark, hstart, hfirst]
  simp [← hlength]

lemma indexed_assemble (hmag : 1 ≤ mag ∧ mag ≤ 4) (hcount : 1 ≤ frames.length ∧ frames.length ≤ 8) :
    Indexed (assemble mag frames) mag frames.length frames.flatten.length := by
  have hmarker : (marker mag frames.length).toNat = 0xc0 + 8 * (mag - 1) + (frames.length - 1) := by
    rw [marker, UInt8.toNat_ofNat']
    omega
  refine ⟨marker mag frames.length, getLast?_concat, by simp [assemble], ?_, ?_, ?_, ?_⟩
  · omega
  · omega
  · omega
  · simp [assemble, length_sizeBytes, mul_comm]
    omega

/-- Splitting inverts assembly. The frames of any packet are consecutive from its start, and they
end before the index if and only if the sizes in it add up to no more than the bytes before it. -/
theorem splitSuperframe_frames (data : List UInt8) :
    (∀ mag frames, 1 ≤ mag ∧ mag ≤ 4 → 1 ≤ frames.length ∧ frames.length ≤ 8 →
      (∀ frame ∈ frames, frame.length < 256 ^ mag) → splitSuperframe (assemble mag frames) = .ok frames) ∧
    ∀ mag count start frames, Indexed data mag count start → splitSuperframe data = .ok frames →
      frames.flatten <+: data ∧
        (frames.flatten <+: data.take start ↔ declared data mag count (start + 1) ≤ start) := by
  constructor
  · intro mag frames hmag hcount hsizes
    rw [splitSuperframe_indexed (indexed_assemble hmag hcount)]
    have := @sliceFrames_assembled (assemble mag frames) frames mag [] (frames.flatten ++ [marker mag frames.length])
      _ [marker mag frames.length] hsizes (by simp [assemble]; rfl) (by simp [assemble])
    simpa using this
  · intro mag count start frames hindexed hsplit
    rw [splitSuperframe_indexed hindexed] at hsplit
    obtain ⟨hflat, hlength⟩ := sliceFrames_consecutive (Nat.zero_le _) hsplit
    rw [drop_zero] at hflat
    rw [hflat]
    refine ⟨ take_prefix _ _, fun h => ?_, fun h => take_prefix_take_left h⟩
    have := h.length_le
    simp only [length_take] at this
    omega

/-- The one size of this index runs a byte into it. -/
theorem splitSuperframe_overlaps_index :
    Indexed [0x86, 0xc0, 2, 0xc0] 1 1 1 ∧ splitSuperframe [0x86, 0xc0, 2, 0xc0] = .ok [[0x86, 0xc0]] := by
  refine ⟨⟨0xc0, ?_⟩, rfl⟩
  decide

end NvidiaProlapse.Vp9
