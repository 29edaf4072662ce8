import NvidiaProlapse.Vp9Units
import NvidiaProlapse.Av1Units

/-!
# Admitted and processed units

A session admits a unit by the number of surfaces its codec asks for, and then works on the
jobs of the codec. The jobs are those of the unit as long as nothing of an earlier unit was
left in the queue, which is the case unless an earlier unit ended in an error.
-/
namespace NvidiaProlapse.Video

open Programs List

namespace Vp9Units

open Vp9 Vp9Decoder

variable {s t : Vp9Decoder} {data : List UInt8} {frames : List (List UInt8)} {jobs : List Job}

/-- The decoder after the unit was pushed. -/
def pushed (s : Vp9Decoder) (data : List UInt8) : Vp9Decoder := (exec (codec.pushUnit data) s).2

section

variable (hsplit : splitSuperframe data = .ok frames)

include hsplit

lemma pushed_eq : pushed s data = { s with frames := s.frames ++ frames } := by
  rw [pushed, exec_pushUnit hsplit]

lemma queue_of_unit_iff :
    (∀ jobs t, Working codec (pushed s data) jobs t → t.frames <:+ frames) ↔ s.frames = [] := by
  rw [pushed_eq hsplit]
  constructor
  · intro h
    have hsuffix : s.frames ++ frames <:+ frames := h [] _ .pushed
    have hlength := hsuffix.length_le
    rw [length_append] at hlength
    exact length_eq_zero_iff.mp (by omega)
  · intro hempty jobs t hworking
    have hsuffix := (working_frames hworking).1
    rwa [hempty, nil_append] at hsuffix

lemma decode_count_le {n : ℕ} (hempty : s.frames = [])
    (hneeded : codec.surfacesNeeded s data = .ok n) (h : Working codec (pushed s data) jobs t) :
    jobs.countP Job.isDecode ≤ n := by
  rw [pushed_eq hsplit, hempty, nil_append] at h
  rw [surfacesNeeded_count hsplit hneeded]
  have := (working_frames h).2
  omega

/-- A unit that is processed without an error is refused for a zero frame or for a frame of the
other profile. -/
lemma accepted_iff (hempty : s.frames = []) (h : Processed codec (pushed s data) jobs t) :
    (∃ n, codec.surfacesNeeded s data = .ok n) ↔
      [0] ∉ frames ∧ ∀ frame ∈ frames, profile frame ≠ .ok (2 - s.sessionProfile) := by
  rw [pushed_eq hsplit, hempty, nil_append] at h
  have hprofiles : ∀ frame ∈ frames, frame = [0] ∨ profile frame = .ok 0 ∨ profile frame = .ok 2 :=
    processed_profiles h
  have hsession : s.sessionProfile = 0 ∨ s.sessionProfile = 2 := by
    unfold sessionProfile
    split_ifs
    · exact .inl rfl
    · exact .inr rfl
  refine (surfacesNeeded_isOk hsplit).trans ⟨fun hall => ⟨fun hzero => ?_, fun frame hf => ?_⟩, ?_⟩
  · have := hall [0] hzero
    simp [profile] at this
  · rw [hall frame hf]
    rcases hsession with hp | hp
    · simp [hp]
    · simp [hp]
  · rintro ⟨hzero, hother⟩ frame hf
    have hne := hother frame hf
    rcases hprofiles frame hf with rfl | hp | hp
    · exact absurd hf hzero
    · rcases hsession with hs | hs
      · rw [hp, hs]
      · simp [hp, hs] at hne
    · rcases hsession with hs | hs
      · simp [hp, hs] at hne
      · rw [hp, hs]

end

end Vp9Units

namespace Av1Units

open Av1 Av1Decoder

variable {ρ : Type} {headers : Headers ρ} {s t : Av1Decoder ρ} {data : List UInt8} {jobs : List Job}

/-- The decoder after the unit was pushed. -/
def pushed (headers : Headers ρ) (s : Av1Decoder ρ) (data : List UInt8) : Av1Decoder ρ :=
  (exec ((codec headers).pushUnit data) s).2

lemma pushed_eq (s : Av1Decoder ρ) (data : List UInt8) :
    pushed headers s data = { s with c := { s.c with pending := s.c.pending ++ [data] } } := rfl

/-- A decoder that was in use. -/
def used (headers : Headers ρ) (seq : Option SequenceHeader) (max : ℕ × ℕ) (bitDepth : ℕ)
    (calls : List (CodecCall (List UInt8))) : Av1Decoder ρ :=
  calls.foldl (codec headers).perform (fresh headers seq max bitDepth)

lemma used_settled (seq : Option SequenceHeader) (max : ℕ × ℕ) (bitDepth : ℕ)
    (calls : List (CodecCall (List UInt8))) : Settled (used headers seq max bitDepth calls) := by
  refine foldlRecOn calls _ ?_ fun s hs call _ => perform_settled hs call
  exact fun _ => ⟨rfl, rfl⟩

lemma pushed_settled : Settled (pushed headers s data) := fun h => absurd h (by simp [pushed_eq])

lemma queue_of_unit_iff :
    (∀ jobs t, Working (codec headers) (pushed headers s data) jobs t → t.c.pending <:+ [data]) ↔
      s.c.pending = [] := by
  constructor
  · intro h
    have hsuffix : s.c.pending ++ [data] <:+ [data] := h [] _ .pushed
    have hlength := hsuffix.length_le
    rw [length_append] at hlength
    exact length_eq_zero_iff.mp (by omega)
  · intro hempty jobs t hworking
    have hsuffix := working_pending pushed_settled hworking
    rwa [pushed_eq, hempty, nil_append] at hsuffix

lemma splits_of_needed {n : ℕ} (h : (codec headers).surfacesNeeded s data = .ok n) :
    ∃ obus, splitObus data = .ok obus ∧ n = obus.countP isCounted := by
  have hneeded : framesInUnit data = .ok n := h
  unfold framesInUnit at hneeded
  cases hsplit : splitObus data with
  | error e => simp [hsplit, Except.mapError, bind, Except.bind] at hneeded
  | ok obus =>
    simp only [hsplit, Except.mapError, bind, Except.bind, Except.ok.injEq] at hneeded
    exact ⟨obus, rfl, hneeded.symm⟩

lemma decode_count_le {n : ℕ} (hs : Settled s) (hempty : s.c.pending = []) (hseq : Plain s.c.seq)
    (hdata : PlainUnit headers data) (hneeded : (codec headers).surfacesNeeded s data = .ok n)
    (h : Working (codec headers) (pushed headers s data) jobs t) : jobs.countP Job.isDecode ≤ n := by
  obtain ⟨obus, hsplit, rfl⟩ := splits_of_needed hneeded
  rw [pushed_eq, hempty, nil_append] at h
  exact working_unit (hs hempty).1 hsplit hseq hdata h

lemma accepted (h : Processed (codec headers) (pushed headers s data) jobs t) :
    ∃ n, (codec headers).surfacesNeeded s data = .ok n := by
  obtain ⟨obus, hsplit⟩ := processed_splits pushed_settled h data (by simp [pushed_eq])
  refine ⟨obus.countP isCounted, ?_⟩
  show framesInUnit data = _
  rw [framesInUnit, hsplit]
  rfl

end Av1Units

/-- A key frame of 64x64. -/
def keyFrame : List UInt8 :=
  [0x82, 0x49, 0x83, 0x42, 0x20, 0x03, 0xf0, 0x03, 0xf2, 0x00, 0x00, 0x20, 0x00, 0x01, 0x00]

/-- A truncated frame and a key frame in one superframe. -/
def brokenSuperframe : List UInt8 := [0x86] ++ keyFrame ++ [0xc1, 1, 15, 0xc1]

/-- A stream of reduced still pictures of 64x64, one tile each. -/
def stillHeaders : Av1.Headers Unit where
  start := ()
  sequence := fun _ => .ok { reducedStillPictureHeader := true }
  existing := fun _ _ _ => .error (.truncated "f(n)")
  coded := fun _ _ _ => (.ok {
    frameType := 0, frameIsIntra := true, showFrame := true, refreshFrameFlags := 0xff
    frameHeight := 64, upscaledWidth := 64, headerBytes := 1 }, ())
  updateRefs := fun _ refs => refs
  tileGroup := fun _ payload _ => .ok (true, ⟨payload, [(0, payload.length)]⟩)

/-- A sequence header, then a frame whose first bit disables the update of the contexts. -/
def stillPicture : List UInt8 := [0x0a, 0, 0x32, 2, 0x80, 0]

end NvidiaProlapse.Video
