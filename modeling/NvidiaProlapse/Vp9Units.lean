import NvidiaProlapse.UnitJobs
import NvidiaProlapse.Vp9

/-!
# Surfaces for a VP9 unit

The plug-in counts the frames of a unit by the first byte of each and decodes them with
the full header parser. The two agree on a frame that parses: it is decoded exactly if
its show-existing bit is clear.
-/
namespace NvidiaProlapse.Vp9

open Programs Video List

variable {data frame : List UInt8} {frames : List (List UInt8)} {k : List RefSlot}

/-! ## What a header leaves alone -/

/-- The reference slots during the parse. -/
def Slots (k : List RefSlot) (p : Parsing) : Prop := p.st.slots = k

lemma bit_slots : Keeps (Slots k) (bit data) := by
  refine .read fun p hp => ?_
  cases bitAt data p.pos with
  | none => exact .refused hp
  | some b => exact .write (Slots k) (fun _ h => h ▸ hp) Spec.ret

lemma bits_slots (n : ℕ) : Keeps (Slots k) (bits data n) := by
  induction n with
  | zero => exact .ret
  | succ n ih => exact .seq ih fun v => .seq bit_slots fun b => .ret

lemma flag_slots : Keeps (Slots k) (flag data) :=
  Spec.seq bit_slots fun _ => .ret

lemma skip_slots (n : ℕ) : Keeps (Slots k) (skip data n) :=
  Spec.seq (bits_slots n) fun _ => .ret

lemma announced_slots {p : Parser Unit} (hp : Keeps (Slots k) p) : Keeps (Slots k) (announced data p) :=
  Spec.seq flag_slots fun _ => Keeps.onlyIf hp

lemma require_slots (c : Prop) [Decidable c] (message : String) : Keeps (Slots k) (require c message) :=
  Spec.either Spec.ret Spec.raise

lemma syncCode_slots : Keeps (Slots k) (syncCode data) :=
  Spec.seq (bits_slots 24) fun _ => require_slots _ _

lemma colorConfig_slots (profile : ℕ) : Keeps (Slots k) (colorConfig data profile) := by
  have hdepth : Keeps (Slots k) (sampleDepth data profile) :=
    Spec.branch (fun _ => .seq flag_slots fun _ => .ret) fun _ => .ret
  refine .seq hdepth fun depth => .seq (bits_slots 3) fun space => ?_
  refine .next (require_slots _ _) (.seq flag_slots fun range => ?_)
  exact .of_modify fun _ h => h

lemma intraColor_slots (profile : ℕ) : Keeps (Slots k) (intraColor data profile) :=
  Spec.either (colorConfig_slots profile) (.of_modify fun _ h => h)

lemma renderSize_slots : Keeps (Slots k) (renderSize data) := announced_slots (skip_slots 32)

lemma interpFilter_slots : Keeps (Slots k) (interpFilter data) :=
  Spec.seq flag_slots fun _ => Keeps.onlyIf (skip_slots 2)

lemma refIndices_slots (n : ℕ) : Keeps (Slots k) (refIndices data n) := by
  induction n with
  | zero => exact .ret
  | succ n ih =>
    refine .seq (bits_slots 3) fun idx => .next (skip_slots 1) ?_
    exact .seq ih fun rest => .ret

lemma loopFilter_slots : Keeps (Slots k) (loopFilter data) := by
  refine .next (skip_slots 9) (announced_slots (announced_slots ?_))
  exact .of_each (fun _ => announced_slots (skip_slots 7)) _

lemma quantization_slots : Keeps (Slots k) (quantization data) :=
  Spec.next (skip_slots 8) (Keeps.of_each (fun _ => announced_slots (skip_slots 5)) _)

lemma segmentMap_slots : Keeps (Slots k) (segmentMap data) := by
  refine Spec.write (Slots k) (fun _ h => h) ?_
  refine Spec.next (Keeps.of_each (fun _ => announced_slots (skip_slots 8)) _) ?_
  refine Spec.seq flag_slots fun temporal => Keeps.onlyIf ?_
  exact Keeps.of_each (fun _ => announced_slots (skip_slots 8)) _

lemma segmentFeatures_slots : Keeps (Slots k) (segmentFeatures data) := by
  refine Spec.next (skip_slots 1) (Keeps.of_each (fun _ => ?_) _)
  exact Keeps.of_each (fun n => announced_slots (skip_slots n)) _

lemma segmentation_slots : Keeps (Slots k) (segmentation data) := by
  refine Spec.write (Slots k) (fun _ h => h) ?_
  refine Spec.seq flag_slots fun enabled => ?_
  refine Spec.write (Slots k) (fun _ h => h) ?_
  refine Spec.next (Keeps.onlyIf (announced_slots segmentMap_slots)) ?_
  exact Keeps.onlyIf (announced_slots segmentFeatures_slots)

lemma tileColumns_slots (n : ℕ) : Keeps (Slots k) (tileColumns data n) := by
  induction n with
  | zero => exact .ret
  | succ n ih => exact announced_slots ih

lemma tileInfo_slots (width : ℕ) : Keeps (Slots k) (tileInfo data width) :=
  Spec.next (tileColumns_slots _) (announced_slots (skip_slots 1))

lemma require_holds (inv : Parsing → Prop) (c : Prop) [Decidable c] (message : String) :
    Spec inv (require c message) (fun _ p => inv p ∧ c) fun _ => inv :=
  Spec.branch (fun hc => .of_pure fun _ h => ⟨h, hc⟩) fun _ => .raise

/-- The parser keeps the slots and returns a good header. -/
def Codes (k : List RefSlot) (good : FrameHeader → Prop) (p : Parser FrameHeader) : Prop :=
  Spec (Slots k) p (fun h q => Slots k q ∧ good h) fun _ => Slots k

/-- A coded frame; the references of an inter frame are there. -/
structure Referring (k : List RefSlot) (h : FrameHeader) : Prop where
  coded : h.showExistingFrame = false
  refs : h.isIntra = false → ∀ idx ∈ h.refFrameIdx, (k.getD idx default).surface.isSome

variable {h : FrameHeader} {good good' : FrameHeader → Prop}

lemma frameSize_codes (hh : ∀ width height, good { h with width := width, height := height }) :
    Codes k good (frameSize data h) :=
  Spec.seq (bits_slots 16) fun _ => .seq (bits_slots 16) fun _ =>
    Spec.of_pure fun _ hp => ⟨hp, hh _ _⟩

lemma sizeWithRefs_codes (hh : ∀ width height, good { h with width := width, height := height })
    (refs : List ℕ) : Codes k good (sizeWithRefs data h refs) := by
  induction refs with
  | nil => exact frameSize_codes hh
  | cons idx refs ih =>
    refine .seq flag_slots fun found => .read fun p hp => ?_
    exact .either (.of_pure fun _ h => ⟨h ▸ hp, hh _ _⟩) (ih.enter hp)

/-- A parser that keeps the slots may follow. -/
lemma Codes.then {p : Parser FrameHeader} (hp : Codes k good p) {f : FrameHeader → Parser FrameHeader}
    (hf : ∀ h, good h → Codes k good' (f h)) : Codes k good' (p >>= f) := by
  refine .seq hp fun h => .of_states ?_
  rintro q ⟨hq, hh⟩
  exact (hf h hh).enter hq

lemma keyFrame_codes (profile : ℕ) (hh : h.showExistingFrame = false) (hkey : h.isKey = true) :
    Codes k (Referring k) (keyFrame data profile h) := by
  refine Spec.next syncCode_slots (Spec.next (colorConfig_slots profile) ?_)
  refine Codes.then (?_ : Codes k (fun h => h.showExistingFrame = false ∧ h.isKey = true) _)
    fun h' hh' => ?_
  · exact frameSize_codes fun _ _ => ⟨hh, hkey⟩
  refine .next renderSize_slots (.of_pure fun _ hp => ⟨hp, hh'.1, fun hinter => ?_⟩)
  have hintra : h'.isIntra = true := Bool.or_eq_true_iff.mpr (.inl hh'.2)
  exact absurd (hintra.symm.trans hinter) (by decide)

lemma intraFrame_codes (profile : ℕ) (hh : h.showExistingFrame = false) (hintra : h.intraOnly = true) :
    Codes k (Referring k) (intraFrame data profile h) := by
  refine .next syncCode_slots (Spec.next (intraColor_slots profile) ?_)
  refine Spec.seq (bits_slots 8) fun refresh => ?_
  refine Codes.then (?_ : Codes k (fun h => h.showExistingFrame = false ∧ h.intraOnly = true) _)
    fun h' hh' => ?_
  · exact frameSize_codes fun _ _ => ⟨hh, hintra⟩
  refine .next renderSize_slots (.of_pure fun _ hp => ⟨hp, hh'.1, fun hinter => ?_⟩)
  simp [FrameHeader.isIntra, hh'.2] at hinter

lemma interFrame_codes (hh : h.showExistingFrame = false) :
    Codes k (Referring k) (interFrame data h) := by
  refine Spec.seq (bits_slots 8) fun refresh => Spec.seq (refIndices_slots 3) fun refs => ?_
  refine Codes.then (?_ : Codes k (fun h => h.showExistingFrame = false ∧ h.refFrameIdx = refs) _)
    fun h' hh' => ?_
  · exact sizeWithRefs_codes (fun _ _ => ⟨hh, rfl⟩) refs
  refine .next renderSize_slots (.read fun p hp => ?_)
  refine .next ((require_holds (Slots k) _ _).enter hp) (.of_states ?_)
  rintro q ⟨hq, hrefs⟩
  have hgood : Referring k h' := by
    refine ⟨hh'.1, fun _ => ?_⟩
    have hslots : p.st.slots = k := hp
    simpa [hh'.2, Vp9State.slot, hslots] using hrefs
  refine .next ((skip_slots 1).enter hq) (.next interpFilter_slots ?_)
  exact .of_pure fun _ hp => ⟨hp, hgood⟩

lemma frameKind_codes (profile : ℕ) (hh : h.showExistingFrame = false) :
    Codes k (Referring k) (frameKind data profile h) := by
  refine Spec.branch (fun hkey => keyFrame_codes profile hh hkey) fun _ => ?_
  have hintra : Keeps (Slots k) (intraOnlyFlag data h) :=
    Spec.either Spec.ret flag_slots
  refine Spec.seq hintra fun intraOnly => Spec.next (Keeps.onlyIf (skip_slots 2)) ?_
  exact Spec.either (intraFrame_codes profile hh rfl) (interFrame_codes hh)

lemma compressedHeader_codes (hh : Referring k h) :
    Codes k (Referring k) (compressedHeader data h) := by
  refine .seq (bits_slots 16) fun size => .next (require_slots _ _) ?_
  refine .read fun p hp => .next ((require_slots _ _).enter hp) ?_
  exact .next (require_slots _ _) (.of_pure fun _ hp => ⟨hp, hh.coded, hh.refs⟩)

lemma codedFrame_codes (profile : ℕ) : Codes k (Referring k) (codedFrame data profile) := by
  refine .seq bit_slots fun _ => Spec.seq flag_slots fun _ => Spec.seq flag_slots fun _ => ?_
  refine Codes.then (frameKind_codes profile rfl) fun h hh => ?_
  have hcontext : Keeps (Slots k) (contextFlags data h) :=
    Spec.either Spec.ret (.next (skip_slots 1) flag_slots)
  refine .seq hcontext fun _ => .seq (skip_slots 2) fun _ => ?_
  refine .next loopFilter_slots (.next quantization_slots ?_)
  refine .next segmentation_slots (.next (tileInfo_slots _) ?_)
  exact compressedHeader_codes ⟨hh.coded, hh.refs⟩

lemma existingFrame_slots :
    Spec (Slots k) (existingFrame data)
      (fun h p => Slots k p ∧ (h.showExistingFrame = false → Referring k h)) fun _ => Slots k := by
  refine .seq (bits_slots 3) fun idx => .read fun p hp => ?_
  refine .next ((require_slots _ _).enter hp) (.of_pure fun _ h => ⟨h, ?_⟩)
  rintro ⟨⟩

lemma headerProfile_slots : Keeps (Slots k) (headerProfile data) := by
  refine .seq bit_slots fun _ => .seq bit_slots fun _ => ?_
  exact .next (require_slots _ _) Spec.ret

/-- Parsing does not change the reference slots. -/
lemma parse_slots :
    Spec (Slots k) (parse data)
      (fun h p => Slots k p ∧ (h.showExistingFrame = false → Referring k h)) fun _ => Slots k := by
  refine .seq (bits_slots 2) fun _ => .seq (require_slots _ _) fun _ => ?_
  refine .seq headerProfile_slots fun profile => .seq flag_slots fun existing => ?_
  refine .either existingFrame_slots ?_
  exact (codedFrame_codes profile).after fun _ _ h => ⟨h.1, fun _ => h.2⟩

/-! ## The first bits of a header -/

lemma bit_reads (k : ℕ) :
    Yields (fun p => p.pos = k) (bit data) fun b p => bitAt data k = some b ∧ p.pos = k + 1 := by
  refine .read ?_
  rintro p rfl
  cases hb : bitAt data p.pos with
  | none => exact .thrown
  | some b =>
    refine .write (fun q => q.pos = p.pos + 1) (fun _ h => h ▸ rfl) ?_
    exact .of_pure fun q hq => ⟨rfl, hq⟩

variable {i : ℕ}

lemma bitAt_lt_two {b : ℕ} (hb : bitAt data i = some b) : b < 2 := by
  obtain ⟨byte, -, rfl⟩ := Option.map_eq_some_iff.mp hb
  exact Nat.mod_lt _ (by norm_num)

/-- The marker, the profile and the show-existing bit of a header that parses. -/
structure Opened (data : List UInt8) (existing : Bool) : Prop where
  marker : ∃ a b, bitAt data 0 = some a ∧ bitAt data 1 = some b ∧ 2 * a + b = 2
  profile : ∃ a b, bitAt data 2 = some a ∧ bitAt data 3 = some b ∧ (a + 2 * b = 0 ∨ a + 2 * b = 2)
  existing : bitAt data 4 = some (if existing then 1 else 0)

lemma marker_reads :
    Yields (fun p => p.pos = 0) (bits data 2)
      fun m p => (∃ a b, bitAt data 0 = some a ∧ bitAt data 1 = some b ∧ 2 * a + b = m) ∧ p.pos = 2 := by
  have hone : Yields (fun p => p.pos = 0) (bits data 1)
      fun v p => bitAt data 0 = some v ∧ p.pos = 1 := by
    have hzero : Yields (fun p => p.pos = 0) (bits data 0) fun v p => v = 0 ∧ p.pos = 0 := .of_pure fun p hp => ⟨rfl, hp⟩
    refine .seq hzero fun v => .of_states ?_
    rintro p ⟨rfl, hp⟩
    refine .seq ((bit_reads 0).enter hp) fun b => .of_pure fun q hq => ?_
    simpa using hq
  refine .seq hone fun a => .of_states ?_
  rintro p ⟨ha, hp⟩
  refine .seq ((bit_reads 1).enter hp) fun b => ?_
  exact .of_pure fun q hq => ⟨⟨a, b, ha, hq.1, rfl⟩, hq.2⟩

lemma headerProfile_reads :
    Yields (fun p => p.pos = 2) (headerProfile data)
      fun _ p => (∃ a b, bitAt data 2 = some a ∧ bitAt data 3 = some b ∧
        (a + 2 * b = 0 ∨ a + 2 * b = 2)) ∧ p.pos = 4 := by
  refine .seq (bit_reads 2) fun a => .of_states ?_
  rintro p ⟨ha, hp⟩
  refine .seq ((bit_reads 3).enter hp) fun b => .of_states ?_
  rintro q ⟨hb, hq⟩
  refine .next (((require_holds (·.pos = 4) _ _).enter hq).fallback fun _ _ _ => trivial) ?_
  exact .of_pure fun r hr => ⟨⟨a, b, ha, hb, hr.2⟩, hr.1⟩

lemma existing_reads :
    Yields (fun p => p.pos = 4) (flag data) fun existing _ => bitAt data 4 = some (if existing then 1 else 0) := by
  refine .seq (bit_reads 4) fun b => .of_pure fun p hp => ?_
  have hlt := bitAt_lt_two hp.1
  have hb : b = if decide (b ≠ 0) = true then 1 else 0 := by
    simp only [decide_eq_true_eq]
    split_ifs with h
    · omega
    · omega
  exact hp.1.trans (congrArg some hb)

lemma parse_opens :
    Yields (fun p => p.pos = 0) (parse data) fun h _ => Opened data h.showExistingFrame := by
  refine .seq marker_reads fun m => .of_states ?_
  rintro p ⟨⟨a, b, ha, hb, hm⟩, hp⟩
  refine .next (((require_holds (·.pos = 2) _ _).enter hp).fallback fun _ _ _ => trivial) (.of_states ?_)
  rintro q ⟨hq, rfl⟩
  refine .seq (headerProfile_reads.enter hq) fun profile => .of_states ?_
  rintro r ⟨hprofile, hr⟩
  refine .seq (existing_reads.enter hr) fun existing => .of_states ?_
  intro u hexisting
  have hopened : Opened data existing := ⟨⟨a, b, ha, hb, hm⟩, hprofile, hexisting⟩
  cases existing with
  | true =>
    refine .seq (.anything _ _) fun idx => .read fun p _ => ?_
    refine .next (.anything _ _) ?_
    exact .of_pure fun _ _ => hopened
  | false =>
    refine ((codedFrame_codes profile).enter rfl).post ?_ fun _ _ _ => trivial
    intro h v hv
    rw [hv.2.coded]
    exact hopened

/-- What the first byte says about a frame that parses. -/
lemma Opened.profile_eq {existing : Bool} (h : Opened frame existing) :
    Vp9Decoder.profile frame = .ok 0 ∨ Vp9Decoder.profile frame = .ok 2 := by
  obtain ⟨⟨a, b, ha, hb, hm⟩, ⟨c, d, hc, hd, hp⟩, -⟩ := h
  cases frame with
  | nil => cases ha
  | cons byte rest =>
    have hlt : byte.toNat < 256 := byte.toNat_lt
    have ha' : byte.toNat / 2 ^ 7 % 2 = a := Option.some.inj ha
    have hb' : byte.toNat / 2 ^ 6 % 2 = b := Option.some.inj hb
    have hc' : byte.toNat / 2 ^ 5 % 2 = c := Option.some.inj hc
    have hmarker : byte.toNat / 64 = 2 := by omega
    have hbits : byte.toNat / 32 % 2 + 2 * (byte.toNat / 16 % 2) = 0 ∨
        byte.toNat / 32 % 2 + 2 * (byte.toNat / 16 % 2) = 2 := by omega
    have hprofile : Vp9Decoder.profile (byte :: rest) =
        .ok (byte.toNat / 32 % 2 + 2 * (byte.toNat / 16 % 2)) := if_neg (not_not.mpr hmarker)
    rw [hprofile]
    exact hbits.imp (congrArg Except.ok) (congrArg Except.ok)

namespace Vp9Decoder

variable {s t : Vp9Decoder}

/-! ## Jobs of a unit -/

/-- A frame that yielded a job. -/
structure Yielded (frame : List UInt8) (job : Job) : Prop where
  profile : profile frame = .ok 0 ∨ profile frame = .ok 2
  decode : job.isDecode = true → bitAt frame 4 = some 0

/-- One call of `nextJob`: zero frames are skipped, then a frame is consumed. -/
inductive Consumed (frames : List (List UInt8)) : VResult (Option Job) → Vp9Decoder → Prop
  | empty {t : Vp9Decoder} (hzeros : ∀ z ∈ frames, z = [0]) (ht : t.frames = []) :
      Consumed frames (.ok none) t
  | job {zeros rest : List (List UInt8)} {frame : List UInt8} {job : Job} {t : Vp9Decoder}
      (hframes : frames = zeros ++ frame :: rest) (hzeros : ∀ z ∈ zeros, z = [0])
      (ht : t.frames = rest) (hjob : Yielded frame job) : Consumed frames (.ok (some job)) t
  | failed {e : VideoError} {t : Vp9Decoder} (ht : t.frames <:+ frames) : Consumed frames (.error e) t

lemma takeFrame_yields (frames : List (List UInt8)) :
    Spec (fun s => s.frames = frames) (takeFrame frame)
      (fun job t => t.frames = frames ∧ ∃ j, job = some j ∧ Yielded frame j)
      fun _ t => t.frames = frames := by
  have hparse : Spec (fun s => s.frames = frames) (onHeader (parse frame))
      (fun h t => t.frames = frames ∧ Opened frame h.showExistingFrame) fun _ t => t.frames = frames := by
    refine .of_focus fun s hs => ?_
    exact (parse_opens.enter rfl).post (fun _ _ h => ⟨hs, h⟩) fun _ _ _ => hs
  refine .seq hparse fun h => .read ?_
  rintro s ⟨hs, hopened⟩
  refine .guarded hs fun _ => ?_
  refine .branch (fun hexisting => ?_) fun hexisting => ?_
  · refine .look ?_
    cases (s.st.slot h.frameToShow).surface with
    | none => exact .refused hs
    | some surface =>
      refine .of_pure fun _ h => ⟨h ▸ hs, _, rfl, hopened.profile_eq, ?_⟩
      rintro ⟨⟩
  · refine .look ?_
    refine .guarded hs fun _ => ?_
    refine .write (fun t => t.frames = frames) (fun _ h => h ▸ hs) ?_
    refine .either Spec.raise ?_
    refine .either Spec.raise ?_
    refine .write (fun t => t.frames = frames) (fun _ h => h) ?_
    refine .of_pure fun t ht => ⟨ht, _, rfl, hopened.profile_eq, fun _ => ?_⟩
    rw [hopened.existing, if_neg hexisting]

lemma nextJobFrom_consumes (frames : List (List UInt8)) :
    Spec (fun s => s.frames = frames) (nextJobFrom frames) (fun job => Consumed frames (.ok job))
      fun e => Consumed frames (.error e) := by
  induction frames with
  | nil => exact .of_pure fun s hs => .empty (by simp) hs
  | cons frame frames ih =>
    refine .write (fun s => s.frames = frames) (fun _ _ => rfl) ?_
    refine .branch (fun hzero => ?_) fun hzero => ?_
    · refine ih.post (fun job t ht => ?_) fun e t ht => ?_
      · cases ht with
        | empty hzeros ht => exact .empty (by simpa [hzero] using hzeros) ht
        | @job zeros rest frame' job t hframes hzeros ht hjob =>
          have hcons : frame :: frames = (frame :: zeros) ++ frame' :: rest := by
            rw [hframes, cons_append]
          exact .job hcons (by simpa [hzero] using hzeros) ht hjob
      · cases ht with
        | failed ht => exact .failed (ht.trans (suffix_cons _ _))
    · refine (takeFrame_yields frames).post ?_ ?_
      · rintro _ t ⟨ht, job, rfl, hjob⟩
        have hnone : frame :: frames = [] ++ frame :: frames := rfl
        exact .job hnone (by simp) ht hjob
      · intro e t ht
        exact .failed (ht ▸ suffix_cons _ _)

variable {r : VResult (Option Job)} {n : ℕ} {job : DecodeJob} {jobs : List Job}

lemma nextJob_consumes (h : exec codec.nextJob s = (r, t)) : Consumed s.frames r t := by
  have hspec : Spec (s = ·) nextJob (fun job => Consumed s.frames (.ok job))
      fun e => Consumed s.frames (.error e) := by
    refine .look ?_
    exact (nextJobFrom_consumes s.frames).enter rfl
  cases r with
  | ok job => exact (hspec s rfl).1 job t h
  | error e => exact (hspec s rfl).2 e t h

/-- The frames whose show-existing bit is clear. -/
def decodable (frames : List (List UInt8)) : ℕ := frames.countP fun frame => bitAt frame 4 = some 0

lemma countFrames_cons : countFrames s (frame :: frames) = .ok n ↔
    profile frame = .ok s.sessionProfile ∧
      ∃ m, countFrames s frames = .ok m ∧ n = if bitAt frame 4 = some 0 then m + 1 else m := by
  rw [countFrames]
  cases profile frame with
  | error e => simp [bind, Except.bind]
  | ok p =>
    by_cases hsession : p = s.sessionProfile
    · cases countFrames s frames with
      | error e => simp [hsession, bind, Except.bind]
      | ok m => simp [hsession, bind, Except.bind, eq_comm]
    · simp [hsession, bind, Except.bind]

lemma countFrames_isOk (s : Vp9Decoder) (frames : List (List UInt8)) :
    (∃ n, countFrames s frames = .ok n) ↔ ∀ frame ∈ frames, profile frame = .ok s.sessionProfile := by
  induction frames with
  | nil => simp [countFrames]
  | cons frame frames ih =>
    rw [forall_mem_cons, ← ih]
    simp only [countFrames_cons]
    constructor
    · rintro ⟨n, hp, m, hm, -⟩
      exact ⟨hp, m, hm⟩
    · rintro ⟨hp, m, hm⟩
      exact ⟨_, hp, m, hm, rfl⟩

lemma countFrames_count (h : countFrames s frames = .ok n) : n = decodable frames := by
  induction frames generalizing n with
  | nil =>
    cases h
    rfl
  | cons frame frames ih =>
    obtain ⟨-, m, hm, rfl⟩ := countFrames_cons.mp h
    rw [ih hm, decodable, decodable, countP_cons]
    by_cases hbit : bitAt frame 4 = some 0
    · simp [hbit]
    · simp [hbit]

section

variable (hsplit : splitSuperframe data = .ok frames)

include hsplit

lemma surfacesNeeded_count (h : s.surfacesNeeded data = .ok n) : n = decodable frames := by
  unfold surfacesNeeded at h
  rw [hsplit] at h
  exact countFrames_count h

lemma surfacesNeeded_isOk :
    (∃ n, s.surfacesNeeded data = .ok n) ↔ ∀ frame ∈ frames, profile frame = .ok s.sessionProfile := by
  unfold surfacesNeeded
  rw [hsplit]
  exact countFrames_isOk s frames

/-- The decoder after a unit was pushed. -/
lemma exec_pushUnit :
    exec (codec.pushUnit data) s = (.ok (), { s with frames := s.frames ++ frames }) := by
  show exec (pushUnit data) s = _
  unfold pushUnit
  rw [hsplit, exec_bind]
  rfl

end

lemma Consumed.suffix (h : Consumed frames r t) : t.frames <:+ frames := by
  cases h with
  | empty hzeros ht => exact ht ▸ nil_suffix
  | job hframes hzeros ht hjob =>
    rw [hframes, ht]
    exact (suffix_cons _ _).trans (suffix_append _ _)
  | failed ht => exact ht

/-- A decode job uses up a decodable frame. -/
lemma Consumed.count (h : Consumed frames r t) :
    (issued r).countP Job.isDecode + decodable t.frames ≤ decodable frames := by
  have hle : decodable t.frames ≤ decodable frames := List.Sublist.countP_le h.suffix.sublist
  cases h with
  | empty hzeros ht | failed ht => simpa [issued] using hle
  | @job zeros rest frame job t hframes hzeros ht hjob =>
    cases hdecode : job.isDecode with
    | false => simpa [issued, hdecode] using hle
    | true =>
      have hbit := hjob.decode hdecode
      rw [hframes, ht]
      simp only [issued, countP_cons, countP_nil, hdecode, decodable, countP_append, hbit]
      simp
      omega

lemma build_frames {ctx : BuildContext} {r : VResult (List SurfaceRef)}
    (h : exec (codec.build job ctx) s = (r, t)) : t = s := by
  have hspec : Spec (s = ·) (build ctx) (fun _ t => t = s) fun _ t => t = s := by
    refine .look ?_
    cases s.current with
    | none => exact .of_throw fun _ h => h.symm
    | some h =>
      refine .compute (fun _ _ => ?_) fun _ _ _ h => h.symm
      exact .either (.of_throw fun _ h => h.symm) (.of_pure fun _ h => h.symm)
  have ht : (exec (build ctx) s).2 = t := congrArg Prod.snd h
  exact ht ▸ Spec.state hspec

lemma finish_frames {current : ℕ} {readback : Option (List UInt8)} {r : VResult Unit}
    (h : exec (codec.finish job current readback) s = (r, t)) : t.frames = s.frames := by
  have hspec : Spec (s = ·) (finish current readback) (fun _ t => t.frames = s.frames)
      fun _ t => t.frames = s.frames := by
    refine .look ?_
    refine .write (fun t => t.frames = s.frames) (fun _ h => h ▸ rfl) ?_
    cases s.current with
    | none => exact Spec.raise
    | some h =>
      refine Spec.next (Keeps.onlyIf (Spec.of_modify fun _ h => h)) ?_
      exact .either Spec.raise (.of_modify fun _ h => h)
  have ht : (exec (finish current readback) s).2 = t := congrArg Prod.snd h
  exact ht ▸ Spec.state hspec

/-- Nothing but frames of the unit is queued, and each decode job took one of them. -/
lemma working_frames (h : Working codec { s with frames := frames } jobs t) :
    t.frames <:+ frames ∧ jobs.countP Job.isDecode + decodable t.frames ≤ decodable frames := by
  refine @Working.invariant _ _ _ _ _ _ (fun jobs t => t.frames <:+ frames ∧
    jobs.countP Job.isDecode + decodable t.frames ≤ decodable frames) h ⟨suffix_refl _, by simp⟩
    ?_ ?_ ?_
  · rintro jobs t r u ⟨hsuffix, hcount⟩ hrun
    have hconsumed := nextJob_consumes hrun
    refine ⟨hconsumed.suffix.trans hsuffix, ?_⟩
    have := hconsumed.count
    rw [countP_append]
    omega
  · rintro jobs job ctx t r u h hrun
    rw [build_frames hrun]
    exact h
  · rintro jobs job current readback t r u h hrun
    rw [finish_frames hrun]
    exact h

/-- In a unit processed without an error every frame but zero frames was parsed. -/
lemma processed_profiles (h : Processed codec s jobs t) :
    ∀ frame ∈ s.frames, frame = [0] ∨ profile frame = .ok 0 ∨ profile frame = .ok 2 := by
  have hjob : ∀ {s t : Vp9Decoder} {job : Job}, exec codec.nextJob s = (.ok (some job), t) →
      (∀ frame ∈ t.frames, frame = [0] ∨ profile frame = .ok 0 ∨ profile frame = .ok 2) →
      ∀ frame ∈ s.frames, frame = [0] ∨ profile frame = .ok 0 ∨ profile frame = .ok 2 := by
    intro s t job hrun hrest
    cases nextJob_consumes hrun with
    | job hframes hzeros ht hjob =>
      rw [hframes, forall_mem_append, forall_mem_cons]
      exact ⟨fun z hz => .inl (hzeros z hz), .inr hjob.profile, ht ▸ hrest⟩
  induction h with
  | done hnext =>
    cases nextJob_consumes hnext with
    | empty hzeros ht => exact fun frame hf => .inl (hzeros frame hf)
  | showExisting hnext _ ih => exact hjob hnext ih
  | decode hnext hbuild hfinish _ ih =>
    refine hjob hnext ?_
    rwa [finish_frames hfinish, build_frames hbuild] at ih

end Vp9Decoder

end NvidiaProlapse.Vp9
