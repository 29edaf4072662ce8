import NvidiaProlapse.DecodeTargets
import NvidiaProlapse.DisplayIds
import NvidiaProlapse.UnitSurfaces

/-!
# Admission while the caller holds nothing

A caller that takes and releases every picture it is offered still shares the pool with the
references of the codec and with the pictures that wait in the reorder list. AV1 keeps
neither list nor more than eight references, so its units are always admitted. A VP9 unit
is refused when it asks for more surfaces than the references leave, an H.264 or HEVC
picture when references and waiting pictures fill the pool, and then no call of the caller
but a flush or a drain makes room.
-/
namespace NvidiaProlapse.Video

open Programs Runs List Session

variable {υ σ : Type} {codec : Codec υ σ} {device : Device υ} {s t : Session σ}

/-! ## What runs keep -/

lemma step_surfaces (h : Step codec s t) : t.surfaces = s.surfaces := by
  cases h with
  | quiet h => exact h.surfaces
  | push data | advance | drain => rfl
  | showExisting hjob p hp => exact emit_surfaces _ p none
  | decode hjob hfree h =>
    cases h with
    | stopped hc => rfl
    | shown hc p hp hshown => exact emit_surfaces _ p _

/-- Jobs without a display key do not wait. -/
lemma step_unordered (hkeys : ∀ {c job c'}, exec codec.nextJob c = (.ok (some (.decode job)), c') →
    job.displayKey = none) (h : Step codec s t) (hs : s.reorder = []) : t.reorder = [] := by
  cases h with
  | quiet h => exact h.reorder.trans hs
  | push data | advance | showExisting hjob p hp => exact hs
  | decode hjob hfree h =>
    cases h with
    | stopped hc => exact hs
    | shown hc p hp hshown =>
      rw [hkeys hjob]
      exact hs
  | drain => rfl

/-- What every call on the codec keeps, every step keeps. -/
lemma step_codec {inv : σ → Prop} (hcall : ∀ c call, inv c → inv (codec.perform c call))
    (h : Step codec s t) (hs : inv s.codec) : inv t.codec := by
  have hnext : inv (exec codec.nextJob s.codec).2 := hcall _ .nextJob hs
  have hprogress : ∀ {job current c c'}, inv c → Progress codec job current c c' → inv c' := by
    intro job current c c' hc h
    cases h with
    | started => exact hc
    | @built len index result _ hbuild =>
      have hb := hcall c (.build job ⟨len, index, current⟩) hc
      rw [Codec.perform, hbuild] at hb
      exact hb
    | @finished len index planes readback result _ _ hbuild hfinish =>
      have hb := hcall c (.build job ⟨len, index, current⟩) hc
      rw [Codec.perform, hbuild] at hb
      have hf := hcall _ (.finish job current readback) hb
      rw [Codec.perform, hfinish] at hf
      exact hf
  cases h with
  | quiet h => exact h.codec ▸ hs
  | push data => exact hcall _ (.pushUnit data) hs
  | advance => exact hnext
  | showExisting hjob p hp =>
    rw [hjob] at hnext
    exact hnext
  | decode hjob hfree h =>
    rw [hjob] at hnext
    cases h with
    | stopped hc => exact hprogress hnext hc
    | shown hc p hp hshown =>
      rw [emit_codec]
      exact hprogress hnext hc
  | drain => exact hs

/-- A property of the codec, the size of the pool and the reorder list. -/
def On (inv : σ → ℕ → List (ℤ × ℕ) → Prop) (s : Session σ) : Prop := inv s.codec s.surfaces s.reorder

/-- What such a property keeps at every step and at a flush, it keeps at every call. -/
lemma perform_on {inv : σ → ℕ → List (ℤ × ℕ) → Prop} {call : Call υ}
    (hstep : ∀ s t, Step codec s t → On inv s → On inv t) (hflush : ∀ s, On inv s → On inv (s.flush codec))
    (hs : On inv s) (h : perform codec device s call = some t) : On inv t := by
  cases call with
  | decode data timestamp flags =>
    cases h
    exact decode_invariant hstep hs data timestamp flags
  | nextPicture =>
    obtain rfl := nextPicture_state h
    exact hs
  | release id =>
    cases h
    rw [exec_release]
    exact hs
  | pictureHdr id =>
    cases h
    exact hs
  | flush =>
    cases h
    exact hflush s hs

variable {calls : List (Call υ)} {extra n : ℕ} {state : σ} {data : υ}

section

variable (hrun : run (perform codec device) (Session.create codec state extra) calls = some s)

include hrun

lemma run_on {inv : σ → ℕ → List (ℤ × ℕ) → Prop}
    (hstep : ∀ s t, Step codec s t → On inv s → On inv t)
    (hflush : ∀ s, On inv s → On inv (s.flush codec))
    (hstart : On inv (Session.create codec state extra)) : On inv s :=
  run_invariant (fun _ _ _ hs h => perform_on hstep hflush hs h) hstart hrun

/-- The pool keeps its size. -/
lemma run_surfaces : s.surfaces = codec.dpbSize + 2 + extra := by
  have hstart : On (fun _ n _ => n = codec.dpbSize + 2 + extra) (create codec state extra) := rfl
  refine run_on hrun ?_ ?_ hstart
  · exact fun s t h hs => (step_surfaces h).trans hs
  · exact fun s hs => hs

/-- What the calls on the codec keep, runs keep. -/
lemma run_codec {inv : σ → Prop} (hcall : ∀ c call, inv c → inv (codec.perform c call))
    (hstate : inv state) : inv s.codec := by
  have hstart : On (fun c _ _ => inv c) (create codec state extra) := hstate
  refine run_on hrun ?_ ?_ hstart
  · exact fun s t h hs => step_codec hcall h hs
  · exact fun s hs => hcall _ .flush hs

/-- Without display keys no picture waits. -/
lemma run_unordered
    (hkeys : ∀ {c job c'}, exec codec.nextJob c = (.ok (some (.decode job)), c') → job.displayKey = none) :
    s.reorder = [] := by
  have hstart : On (fun _ _ reorder => reorder = []) (create codec state extra) := rfl
  refine run_on hrun ?_ ?_ hstart
  · exact fun s t h hs => step_unordered hkeys h hs
  · exact fun s _ => rfl

end

/-! ## Idle sessions -/

/-- Nothing is offered, and every picture the caller took was released. -/
def Idle (s : Session σ) : Prop :=
  s.display = [] ∧ ∀ id ∈ s.pictures.keys, id ∈ s.reorder.map Prod.snd

instance (s : Session σ) : Decidable (Idle s) := inferInstanceAs (Decidable (_ ∧ _))

/-- The surfaces of the pictures that wait for their turn. -/
def Session.waiting (s : Session σ) : Finset ℕ :=
  (s.reorder.filterMap fun entry => (s.pictures.lookup entry.2).map Picture.surface).toFinset

/-- The caller is told to wait, and nothing changes. -/
def Refused (codec : Codec υ σ) (s : Session σ) (data : υ) : Prop :=
  ∃ message, exec (checkAdmission codec data) s = (.error (.again message), s)

lemma Idle.heldSet (h : Idle s) : s.heldSet = s.waiting := by
  ext x
  rw [mem_heldSet, waiting, mem_toFinset, mem_filterMap]
  constructor
  · rintro ⟨p, hp, rfl⟩
    obtain ⟨⟨id, p⟩, hmem, rfl⟩ := mem_map.mp hp
    obtain ⟨entry, hentry, rfl⟩ := mem_map.mp (h.2 id (mem_keys_of_mem hmem))
    refine ⟨entry, hentry, ?_⟩
    rw [AList.mem_lookup_iff.mpr hmem]
    rfl
  · rintro ⟨entry, -, hx⟩
    obtain ⟨p, hp, rfl⟩ := Option.map_eq_some_iff.mp hx
    exact ⟨p, mem_map.mpr ⟨_, AList.mem_lookup_iff.mp hp, rfl⟩, rfl⟩

lemma freeSurfaces_length :
    (s.freeSurfaces codec).length =
      (Finset.range s.surfaces \ (refs codec s.codec ∪ s.heldSet)).card := by
  have hnodup : (s.freeSurfaces codec).Nodup := nodup_range.filter _
  rw [← toFinset_card_of_nodup hnodup]
  congr 1
  ext x
  simp [freeSurfaces, refs, mem_heldSet]

lemma refused_iff (hneed : codec.surfacesNeeded s.codec data = .ok n) : Refused codec s data ↔
      unitAdmitted n (s.freeSurfaces codec).length (codec.maxReferenced s.codec) s.held.length
        s.surfaces = false := by
  have hexec : exec (checkAdmission codec data) s = exec
      (if unitAdmitted n (s.freeSurfaces codec).length (codec.maxReferenced s.codec) s.held.length
          s.surfaces then pure ()
        else throw (.again
          s!"unit needs {n} free surfaces, {(s.freeSurfaces codec).length} free: release pictures first")) s := by
    rw [checkAdmission, exec_bind, exec_get]
    simp only [hneed]
    rfl
  rw [Refused, hexec]
  cases unitAdmitted n (s.freeSurfaces codec).length (codec.maxReferenced s.codec) s.held.length
    s.surfaces with
  | true => simp
  | false => simp

/-- In an idle session only references and waiting pictures take surfaces from a unit. -/
lemma Idle.refused_iff (h : Idle s) (hneed : codec.surfacesNeeded s.codec data = .ok n)
    (hmax : codec.maxReferenced s.codec = none) : Refused codec s data ↔
      (Finset.range s.surfaces \ (refs codec s.codec ∪ s.waiting)).card < n := by
  rw [Video.refused_iff hneed, hmax, freeSurfaces_length, h.heldSet, unitAdmitted]
  simp

lemma Idle.refused_one_iff (h : Idle s) {picture : Bool}
    (hneed : codec.surfacesNeeded s.codec data = .ok (if picture then 1 else 0))
    (hmax : codec.maxReferenced s.codec = none) : Refused codec s data ↔ picture = true ∧
      ∀ x < s.surfaces, x ∈ refs codec s.codec ∨ x ∈ s.waiting := by
  rw [h.refused_iff hneed hmax]
  cases picture with
  | false => simp
  | true =>
    simp [Finset.subset_iff]

lemma Idle.not_refused (h : Idle s) (hreorder : s.reorder = []) {m : ℕ}
    (hneed : codec.surfacesNeeded s.codec data = .ok n) (hmax : codec.maxReferenced s.codec = some m)
    (hm : m + 1 ≤ s.surfaces) : ¬Refused codec s data := by
  have hheld : s.held.length = 0 := by
    have hcard : s.heldSet.card = s.held.length := card_toFinset _
    rw [← hcard, h.heldSet, waiting, hreorder]
    rfl
  have hadmitted : unitAdmitted n (s.freeSurfaces codec).length (some m) 0 s.surfaces = true := by
    rw [unitAdmitted, Option.any_some, decide_eq_true (show m + 1 + 0 ≤ s.surfaces from hm), Bool.or_true]
  rw [Video.refused_iff hneed, hmax, hheld, hadmitted]
  decide

end NvidiaProlapse.Video

namespace NvidiaProlapse

open Programs Video Runs

/-! ## VP9 and AV1 show in decode order -/

def Video.Unkeyed (out : Option Job) : Prop := ∀ job, out = some (.decode job) → job.displayKey = none

namespace Vp9.Vp9Decoder

lemma nextJob_unkeyed {c c' : Vp9Decoder} {job : DecodeJob}
    (h : exec codec.nextJob c = (.ok (some (.decode job)), c')) : job.displayKey = none := by
  have htake : ∀ frame, Yields (fun _ => True) (takeFrame frame) fun out _ => Unkeyed out := by
    intro frame
    refine .seq (.anything _ _) fun h => .read fun s _ => ?_
    refine .either Spec.thrown ?_
    refine .either (.read fun s _ => ?_) (.read fun s _ => ?_)
    · cases (s.st.slot h.frameToShow).surface with
      | none => exact .thrown
      | some surface =>
        refine .of_pure fun _ _ job => ?_
        rintro ⟨⟩
    · refine .either Spec.thrown ?_
      refine .anew ?_
      refine .either Spec.thrown ?_
      refine .either Spec.thrown ?_
      refine .anew (.of_pure fun _ _ job => ?_)
      rintro ⟨⟩
      rfl
  have hfrom : ∀ frames, Yields (fun _ => True) (nextJobFrom frames) fun out _ => Unkeyed out := by
    intro frames
    induction frames with
    | nil =>
      refine .of_pure fun _ _ job => ?_
      rintro ⟨⟩
    | cons frame frames ih =>
      refine .anew ?_
      exact .either ih (htake frame)
  have hspec : Yields (c = ·) nextJob fun out _ => Unkeyed out :=
    Spec.read fun s _ => (hfrom s.frames).enter trivial
  exact (hspec c rfl).1 _ _ h job rfl

/-- Eight slots, and the references of the frame to build are there. -/
def EightSlots (c : Vp9Decoder) : Prop := Ready c ∧ c.st.slots.length = 8

lemma perform_eightSlots (c : Vp9Decoder) (call : CodecCall (List UInt8)) (hc : EightSlots c) :
    EightSlots (codec.perform c call) := by
  cases call with
  | pushUnit data =>
    have hspec : Ends c (pushUnit data) EightSlots := by
      refine .compute (fun _ _ => Spec.of_modify fun _ h => h ▸ hc) ?_
      rintro _ _ - rfl
      exact hc
    exact Spec.state hspec
  | nextJob =>
    have hdone := nextJob_ready hc.1
    exact ⟨hdone.1, hdone.2 ▸ hc.2⟩
  | build job ctx =>
    have hsame : (exec (codec.build job ctx) c).2 = c := build_frames Prod.mk.eta.symm
    rw [Codec.perform, hsame]
    exact hc
  | finish job current readback =>
    obtain ⟨hnone, hrefreshed⟩ := finish_refreshed c job current readback
    exact ⟨.of_none hnone, hrefreshed.length.trans hc.2⟩
  | flush => exact ⟨.of_none rfl, rfl⟩

lemma EightSlots.card_refs {c : Vp9Decoder} (h : EightSlots c) : (refs codec c).card ≤ 8 :=
  calc (refs codec c).card ≤ c.st.referenced.length := List.toFinset_card_le _
    _ ≤ c.st.slots.length := List.length_filterMap_le _ _
    _ = 8 := h.2

end Vp9.Vp9Decoder

lemma Av1.Av1Decoder.nextJob_unkeyed {ρ : Type} {headers : Headers ρ} {c c' : Av1Decoder ρ}
    {job : DecodeJob} (h : exec (codec headers).nextJob c = (.ok (some (.decode job)), c')) :
    job.displayKey = none := by
  have hspec : Yields (c = ·) (nextJob headers) fun out _ => Unkeyed out := by
    refine .seq (.anything _ _) fun out => ?_
    cases out with
    | none =>
      refine .of_pure fun _ _ job => ?_
      rintro ⟨⟩
    | some out =>
      refine .read fun s _ => .tried fun seq _ => ?_
      cases out with
      | showExisting slot h =>
        refine .read fun s _ => .tried fun surface _ => ?_
        refine .of_pure fun _ _ job => ?_
        rintro ⟨⟩
      | decode j =>
        refine .read fun s _ => .tried fun _ _ => ?_
        refine .anew (.of_pure fun _ _ job => ?_)
        rintro ⟨⟩
        rfl
  exact (hspec c rfl).1 _ _ h job rfl

/-! ## Runs -/

/-- Two reference pictures and sixteen that nothing refers to, in display order. The stream has no
VUI, so sixteen pictures are held back. The caller takes and releases what it is offered. -/
def eighteenPictures : List (Call H264.AccessUnit) :=
  let sps : H264.Sps := { H264.Decoder.smallSps with log2MaxPocLsbMinus4 := 4 }
  let picture (i : ℕ) : H264.Nal := H264.Decoder.smallSlice
    { idr := i = 0, nalRefIdc := if i < 2 then 1 else 0, frameNum := min i 2, picOrderCntLsb := 2 * i }
  .decode (some [.sps (.ok sps), .pps fun _ => .ok ⟨0, 0⟩, picture 0]) 0 0 ::
    (List.range 17).flatMap fun i =>
      [.decode (some [picture (i + 1)]) 0 0, .nextPicture] ++ if i < 15 then [] else [.release (i - 14)]

end NvidiaProlapse
