import NvidiaProlapse.Av1
import NvidiaProlapse.UnitJobs

/-!
# Jobs of an AV1 unit

The OBUs of the queued units are taken in order. A frame that is decoded was counted when
its unit was admitted, unless its sequence has a reduced header, where the first bit of a
frame header does not say whether an existing frame is shown.
-/
namespace NvidiaProlapse.Av1

open Programs Video Vp9 List

variable {ρ : Type} {headers : Headers ρ} {data : List UInt8}

/-- The OBUs of a unit; none if it cannot be split. -/
def unitObus (tu : List UInt8) : List Obu := (splitObus tu).toOption.getD []

lemma unitObus_eq {obus : List Obu} (h : splitObus data = .ok obus) : unitObus data = obus := by
  rw [unitObus, h]
  rfl

/-- No sequence header of the unit is a reduced one. -/
def PlainUnit (headers : Headers ρ) (tu : List UInt8) : Prop :=
  ∀ o ∈ unitObus tu, o.obuType = obuSequenceHeader → ∀ seq, headers.sequence o.payload = .ok seq →
    seq.reducedStillPictureHeader = false

def Plain (seq : Option SequenceHeader) : Prop :=
  ∀ s, seq = some s → s.reducedStillPictureHeader = false

/-- Counted frames of the units that are still to come. -/
def remaining : List (List UInt8) → ℕ → ℕ
  | [], _ => 0
  | tu :: units, pos => ((unitObus tu).drop pos).countP Av1Decoder.isCounted + remaining units 0

def inProgress (cur : Option (FrameHeader × Tiles)) : ℕ := cur.elim 0 fun _ => 1

def decodes : Option Av1Out → ℕ
  | some (.decode _) => 1
  | _ => 0

namespace Av1Codec

variable {P : List (List UInt8)} {p d k : ℕ} {strict : Prop} {h : FrameHeader}
  {tiles : Tiles} {o : Obu}

/-- A condition on the queue, the sequence and the frame in progress. -/
def Queued (inv : List (List UInt8) → ℕ → Option SequenceHeader → Option (FrameHeader × Tiles) → Prop)
    (c : Av1Codec ρ) : Prop := inv c.pending c.obuPos c.seq c.cur

section

variable {inv : List (List UInt8) → ℕ → Option SequenceHeader → Option (FrameHeader × Tiles) → Prop}

lemma allocCdf_queued (free : List ℕ) : Keeps (Queued (ρ := ρ) inv) (allocCdf free) := by
  refine .read fun c hc => ?_
  cases oldestBuffer c.cdfStamp free with
  | none => exact .refused hc
  | some i =>
    refine .write (Queued inv) (fun _ h => ?_) Spec.ret
    subst h
    exact hc

lemma readCdf_queued (saved : Option ℕ) (free : List ℕ) :
    Keeps (Queued (ρ := ρ) inv) (readCdf h saved free) := by
  unfold readCdf
  cases saved.filter fun _ => h.frameType % 2 = 1 with
  | some c => exact .ret
  | none => exact .seq (allocCdf_queued free) fun _ => .ret

lemma finishFrame_queued : Keeps (Queued inv) (finishFrame headers h tiles) := by
  refine .read fun c hc => ?_
  cases c.seq with
  | none => exact .refused hc
  | some seq =>
    refine .write (Queued inv) (fun _ h => h ▸ hc) ?_
    refine .read fun c hc => ?_
    cases c.slots.findIdx? fun slot => !slot.inUse with
    | none => exact .refused hc
    | some slot =>
      refine .seq ((allocCdf_queued _).before (fun _ h => h ▸ hc)) fun cdfWrite => ?_
      refine .seq (readCdf_queued _ _) fun _ => ?_
      exact .write (Queued inv) (fun _ h => h) Spec.ret

lemma codedHeader_queued (seq : SequenceHeader) :
    Spec (Queued inv) (codedHeader headers seq o)
      (fun h c => Queued inv c ∧ h.showExistingFrame = false) fun _ => Queued inv := by
  refine .read fun c hc => ?_
  refine .write (Queued inv) (fun _ h => ?_) ?_
  · subst h
    exact hc
  · refine .compute (fun h _ => ?_) fun _ _ _ h => h
    exact .of_pure fun _ hc => ⟨hc, rfl⟩

end

/-- Between two OBUs of the unit in front: `d` more frames are accounted for. -/
def Busy (strict : Prop) (P : List (List UInt8)) (p d k : ℕ) : Av1Codec ρ → Prop :=
  Queued fun pending pos seq cur =>
    pending = P ∧ pos = p ∧ (strict → Plain seq ∧ inProgress cur + d ≤ k)

variable {c : Av1Codec ρ}

lemma Busy.mono {d' : ℕ} (hc : Busy strict P p d k c) (hd : d' ≤ d) : Busy strict P p d' k c := by
  obtain ⟨hpending, hpos, hcount⟩ := hc
  refine ⟨hpending, hpos, fun hstrict => ?_⟩
  obtain ⟨hplain, hle⟩ := hcount hstrict
  exact ⟨hplain, by omega⟩

/-- With a frame in progress one more frame is accounted for. -/
lemma Busy.start (hc : Busy strict P p (d + 1) k c) (tiles : Tiles) :
    Busy strict P p d k { c with cur := some (h, tiles) } := by
  obtain ⟨hpending, hpos, hcount⟩ := hc
  refine ⟨hpending, hpos, fun hstrict => ?_⟩
  obtain ⟨hplain, hle⟩ := hcount hstrict
  refine ⟨hplain, ?_⟩
  show 1 + d ≤ k
  omega

lemma collectTiles_busy (payload : List UInt8) :
    Spec (Busy strict P p (d + 1) k) (collectTiles headers h payload tiles)
      (fun out => Busy strict P p (decodes out + d) k) fun _ => Busy strict P p d k := by
  refine .compute (fun result _ => ?_) fun _ _ _ hc => hc.mono (by omega)
  refine .either ?_ ?_
  · refine .keeping finishFrame_queued (fun _ _ hc => .mono hc (by omega)) fun job => ?_
    exact .of_pure fun _ hc => hc.mono (by simp [decodes]; omega)
  · refine .write (Busy strict P p d k) (fun _ hc => hc.start _) ?_
    exact .of_pure fun _ hc => hc.mono (by simp [decodes])

/-- A header of a coded frame was counted, unless the sequence is a reduced one. -/
lemma parseFrameHeader_busy :
    Spec (Busy strict P p d k) (parseFrameHeader headers o) (fun h c => Busy strict P p d k c ∧
        (strict → h.showExistingFrame = false → bitAt o.payload 0 = some 0))
      fun _ => Busy strict P p d k := by
  refine .read fun c hc => ?_
  have hcoded : ∀ seq, (strict → bitAt o.payload 0 = some 0) → Spec (c = ·) (codedHeader headers seq o)
      (fun h c => Busy strict P p d k c ∧
        (strict → h.showExistingFrame = false → bitAt o.payload 0 = some 0))
      fun _ => Busy strict P p d k := by
    intro seq hbit
    refine (codedHeader_queued seq).weaken (fun _ h => h ▸ hc) ?_ fun _ _ h => h
    exact fun h c hc => ⟨hc.1, fun hstrict _ => hbit hstrict⟩
  cases hseq : c.seq with
  | none => exact .refused hc
  | some seq =>
    refine .branch (fun hreduced => ?_) fun _ => ?_
    · refine hcoded seq fun hstrict => ?_
      have hplain : seq.reducedStillPictureHeader = false := (hc.2.2 hstrict).1 seq hseq
      simp [hreduced] at hplain
    cases hbit : bitAt o.payload 0 with
    | none => exact .refused hc
    | some b =>
      cases b with
      | zero => simpa only [hbit] using hcoded seq fun _ => hbit
      | succ b =>
        refine .given hc fun h _ => ?_
        refine .of_pure fun _ h => ⟨h ▸ hc, ?_⟩
        rintro - ⟨⟩

/-- Whether the OBU was counted, as a number. -/
def counted (o : Obu) : ℕ := if Av1Decoder.isCounted o then 1 else 0

lemma frameObu_busy (hframe : o.obuType = obuFrameHeader ∨ o.obuType = obuFrame) :
    Spec (Busy strict P p (counted o + d) k) (frameObu headers o)
      (fun out => Busy strict P p (decodes out + d) k) fun _ => Busy strict P p d k := by
  refine .seq (parseFrameHeader_busy.fallback fun _ _ hc => hc.mono (by omega)) fun h => ?_
  refine .branch (fun hshow => ?_) fun hshow => ?_
  · refine .read ?_
    rintro c ⟨hc, -⟩
    cases c.refMap.getD h.frameToShowMapIdx none with
    | none => exact .refused (hc.mono (by omega))
    | some slot =>
      refine .write (Busy strict P p d k) (fun _ h => h ▸ hc.mono (by omega)) ?_
      exact .of_pure fun _ hc => hc.mono (by simp [decodes])
  · have hcounts : ∀ c : Av1Codec ρ, Busy strict P p (counted o + d) k c ∧
        (strict → h.showExistingFrame = false → bitAt o.payload 0 = some 0) →
        Busy strict P p (d + 1) k c := by
      rintro c ⟨⟨hpending, hpos, hcount⟩, hbit⟩
      refine ⟨hpending, hpos, fun hstrict => ?_⟩
      have hone : counted o = 1 := by
        have hbit := hbit hstrict (by simpa using hshow)
        have htype : o.obuType = obuFrame ∨ o.obuType = obuFrameHeader := hframe.symm
        simp [counted, Av1Decoder.isCounted, hbit, htype]
      obtain ⟨hplain, hle⟩ := hcount hstrict
      exact ⟨hplain, by omega⟩
    refine .either ?_ ?_
    · exact (collectTiles_busy _).before hcounts
    · refine .write (Busy strict P p d k) (fun c hc => (hcounts c hc).start _) ?_
      exact .of_pure fun _ hc => hc.mono (by simp [decodes])

lemma tileGroupObu_busy :
    Spec (Busy strict P p d k) (tileGroupObu headers o)
      (fun out => Busy strict P p (decodes out + d) k) fun _ => Busy strict P p d k := by
  refine .read fun c hc => ?_
  obtain ⟨hpending, hpos, hcount⟩ := hc
  cases hcur : c.cur with
  | none =>
    refine .write (Busy strict P p d k) (fun _ h => ?_) Spec.raise
    subst h
    refine ⟨hpending, hpos, fun hstrict => ?_⟩
    simpa [hcur] using hcount hstrict
  | some frame =>
    refine .write (Busy strict P p (d + 1) k) (fun _ h => ?_) (collectTiles_busy _)
    subst h
    refine ⟨hpending, hpos, fun hstrict => ?_⟩
    obtain ⟨hplain, hle⟩ := hcount hstrict
    rw [hcur] at hle
    refine ⟨hplain, ?_⟩
    show 0 + (d + 1) ≤ k
    have : 1 + d ≤ k := hle
    omega

lemma takeObu_busy (hsequence : strict → o.obuType = obuSequenceHeader → ∀ seq,
      headers.sequence o.payload = .ok seq → seq.reducedStillPictureHeader = false) :
    Spec (Busy strict P p (counted o + d) k) (takeObu headers o)
      (fun out => Busy strict P p (decodes out + d) k) fun _ => Busy strict P p d k := by
  refine .read fun c hc => ?_
  have hnone : Busy strict P p (decodes none + d) k c := hc.mono (by simp [decodes])
  refine .branch (fun htype => ?_) fun _ => ?_
  · refine .given (hc.mono (by omega)) fun seq hseq => ?_
    refine .write (Busy strict P p (decodes none + d) k) (fun _ h => ?_) (.of_pure fun _ h => h)
    subst h
    obtain ⟨hpending, hpos, hcount⟩ := hnone
    refine ⟨hpending, hpos, fun hstrict => ⟨?_, (hcount hstrict).2⟩⟩
    rintro _ ⟨⟩
    exact hsequence hstrict htype seq hseq
  · refine .either (.unchanged hnone) ?_
    refine .branch (fun hframe => (frameObu_busy hframe).enter hc) fun _ => ?_
    refine .either (tileGroupObu_busy.enter (hc.mono (by omega))) ?_
    refine .either (.refused (hc.mono (by omega))) ?_
    exact .unchanged hnone

/-- Between two calls: an empty queue leaves no frame in progress, and what is left was counted. -/
def Left (strict : Prop) (d k : ℕ) (c : Av1Codec ρ) : Prop :=
  (c.pending = [] → c.cur = none ∧ c.obuPos = 0) ∧
    (strict → Plain c.seq ∧ inProgress c.cur + (d + remaining c.pending c.obuPos) ≤ k)

lemma Left.mono {d' : ℕ} (hc : Left strict d k c) (hd : d' ≤ d) : Left strict d' k c := by
  refine ⟨hc.1, fun hstrict => ?_⟩
  obtain ⟨hplain, hle⟩ := hc.2 hstrict
  exact ⟨hplain, by omega⟩

variable {tu : List UInt8} {units : List (List UInt8)}

lemma Busy.left (hc : Busy strict (tu :: units) p (d + remaining (tu :: units) p) k c) :
    Left strict d k c := by
  obtain ⟨hpending, hpos, hcount⟩ := hc
  constructor
  · rw [hpending]
    rintro ⟨⟩
  · rw [hpending, hpos]
    exact hcount

lemma finishUnit_left :
    Spec (Busy strict (tu :: units) p (remaining units 0) k) (finishUnit (ρ := ρ))
      (fun out c => out = none ∧ c.pending = units ∧ c.obuPos = 0 ∧ Left strict 0 k c)
      fun _ => Busy strict (tu :: units) p (remaining units 0) k := by
  refine .read fun c hc => ?_
  obtain ⟨hpending, hpos, hcount⟩ := hc
  refine .branch (fun hcur => ?_) fun hcur => ?_
  · refine .write (Busy strict (tu :: units) p (remaining units 0) k) (fun _ h => ?_) Spec.raise
    subst h
    refine ⟨hpending, hpos, fun hstrict => ?_⟩
    obtain ⟨hplain, hle⟩ := hcount hstrict
    refine ⟨hplain, ?_⟩
    show 0 + _ ≤ k
    omega
  · have hnone : c.cur = none := by simpa using hcur
    refine .write (fun t => t = { c with pending := c.pending.tail, obuPos := 0 })
      (fun _ h => h ▸ rfl) (.of_pure ?_)
    rintro _ rfl
    refine ⟨rfl, by simp [hpending], rfl, fun _ => ⟨hnone, rfl⟩, fun hstrict => ?_⟩
    simpa [hpending] using hcount hstrict

lemma takeObus_left (hplain : strict → PlainUnit headers tu) (obus : List Obu)
    (hobus : (unitObus tu).drop p = obus) :
    Spec (Busy strict (tu :: units) p (remaining (tu :: units) p) k) (takeObus headers obus)
      (fun out c => (out = none ∧ c.pending = units ∧ c.obuPos = 0 ∧ Left strict 0 k c) ∨
        (out ≠ none ∧ c.pending = tu :: units ∧ Left strict (decodes out) k c))
      fun _ c => c.pending = tu :: units ∧ Left strict 0 k c := by
  -- by induction on the OBUs that are left, which determine the counted frames to come
  induction obus generalizing p with
  | nil =>
    have hcount : remaining (tu :: units) p = remaining units 0 := by simp [remaining, hobus]
    rw [hcount]
    refine finishUnit_left.post (fun _ _ h => .inl h) fun _ c hc => ?_
    exact ⟨hc.1, Busy.left (p := p) (by rwa [hcount, Nat.zero_add])⟩
  | cons o obus ih =>
    have hnext : (unitObus tu).drop (p + 1) = obus := by
      rw [← drop_drop, hobus]
      rfl
    have hmem : o ∈ unitObus tu := by
      refine mem_of_mem_drop (i := p) ?_
      simp [hobus]
    have hcount : remaining (tu :: units) p = counted o + remaining (tu :: units) (p + 1) := by
      simp only [remaining, hobus, hnext, countP_cons, counted]
      omega
    refine Spec.write (Busy strict (tu :: units) (p + 1) (counted o + remaining (tu :: units) (p + 1)) k)
      (fun c hc => ?_) ?_
    · rw [← hcount]
      exact ⟨hc.1, congrArg (· + 1) hc.2.1, hc.2.2⟩
    refine .seq ((takeObu_busy fun hstrict => hplain hstrict o hmem).fallback
      fun _ c hc => ⟨hc.1, Busy.left (by rwa [Nat.zero_add])⟩) fun out => ?_
    cases out with
    | none => exact (ih hnext).before fun _ h => by simpa [decodes] using h
    | some out => exact .of_pure fun c hc => .inr ⟨by simp, hc.1, hc.left⟩

/-- The units that were taken to their end could be split. -/
def Popped (P : List (List UInt8)) (c : Av1Codec ρ) : Prop :=
  ∃ popped, P = popped ++ c.pending ∧ ∀ tu ∈ popped, ∃ obus, splitObus tu = .ok obus

lemma Popped.cons {obus : List Obu} (hsplit : splitObus tu = .ok obus) (h : Popped units c) :
    Popped (tu :: units) c := by
  obtain ⟨popped, hunits, hpopped⟩ := h
  refine ⟨tu :: popped, congrArg (tu :: ·) hunits, ?_⟩
  exact forall_mem_cons.mpr ⟨⟨obus, hsplit⟩, hpopped⟩

lemma nextOutFrom_left (hplain : strict → ∀ tu ∈ P, PlainUnit headers tu) :
    Spec (fun c => c.pending = P ∧ Left strict 0 k c) (nextOutFrom headers P)
      (fun out c => Left strict (decodes out) k c ∧ Popped P c ∧ (out = none → c.pending = []))
      fun _ c => Left strict 0 k c ∧ c.pending <:+ P := by
  induction P with
  | nil =>
    refine .of_pure fun c hc => ⟨hc.2, ⟨[], hc.1.symm, by simp⟩, fun _ => hc.1⟩
  | cons tu units ih =>
    have hunits : strict → ∀ tu ∈ units, PlainUnit headers tu := fun hstrict =>
      (forall_mem_cons.mp (hplain hstrict)).2
    refine .read ?_
    rintro c ⟨hpending, hleft⟩
    refine .compute (fun obus hsplit => ?_) fun _ _ _ h =>
      h ▸ ⟨hleft, hpending ▸ suffix_refl _⟩
    have hbusy : Busy strict (tu :: units) c.obuPos (remaining (tu :: units) c.obuPos) k c := by
      refine ⟨hpending, rfl, fun hstrict => ?_⟩
      simpa [hpending] using hleft.2 hstrict
    have htu : strict → PlainUnit headers tu := fun hstrict =>
      (forall_mem_cons.mp (hplain hstrict)).1
    have hrest : (unitObus tu).drop c.obuPos = obus.drop c.obuPos := by rw [unitObus_eq hsplit]
    refine .seq ((takeObus_left htu _ hrest).weaken (fun _ h => h ▸ hbusy) (fun _ _ h => h)
      fun _ c hc => ⟨hc.2, hc.1 ▸ suffix_refl _⟩) fun out => ?_
    cases out with
    | none =>
      refine (ih hunits).weaken ?_ ?_ ?_
      · rintro c (⟨-, hpending, -, hleft⟩ | ⟨hne, -⟩)
        · exact ⟨hpending, hleft⟩
        · exact absurd rfl hne
      · exact fun out c hc => ⟨hc.1, hc.2.1.cons hsplit, hc.2.2⟩
      · exact fun _ c hc => ⟨hc.1, hc.2.trans (suffix_cons _ _)⟩
    | some out =>
      refine .of_pure ?_
      rintro c (⟨hnone, -⟩ | ⟨-, hpending, hleft⟩)
      · cases hnone
      · refine ⟨hleft, ⟨[], hpending.symm, by simp⟩, ?_⟩
        rintro ⟨⟩

end Av1Codec

namespace Av1Decoder

variable {P : List (List UInt8)} {k : ℕ} {strict : Prop} {s t : Av1Decoder ρ}

open Av1Codec

lemma Spec.of_onCodec {α : Type} {pre : Av1Decoder ρ → Prop} {ok : α → Av1Decoder ρ → Prop}
    {err : VideoError → Av1Decoder ρ → Prop} {p : Prog (Av1Codec ρ) Av1Error α}
    (h : ∀ s, pre s → Spec (s.c = ·) p (fun a c => ok a { s with c := c })
      fun e c => err e.toVideo { s with c := c }) : Spec pre (onCodec p) ok err := by
  intro s hs
  obtain ⟨hgood, hbad⟩ := h s hs s.c rfl
  rcases hrun : exec p s.c with ⟨r, c⟩
  have hexec : exec (onCodec p) s = (r.mapError Av1Error.toVideo, { s with c := c }) := by
    show ((exec p s.c).1.mapError _, _) = _
    rw [hrun]
  rw [hexec]
  cases r with
  | ok a =>
    constructor
    · rintro _ _ ⟨⟩
      exact hgood a c hrun
    · rintro _ _ ⟨⟩
  | error e =>
    constructor
    · rintro _ _ ⟨⟩
    · rintro _ _ ⟨⟩
      exact hbad e c hrun

/-- A job is a decode job if a frame was taken from the queue for it. -/
lemma nextJob_left (hplain : strict → ∀ tu ∈ P, PlainUnit headers tu) :
    Spec (fun s => s.c.pending = P ∧ Left strict 0 k s.c) (nextJob headers)
      (fun job t => Left strict ((issued (.ok job)).countP Job.isDecode) k t.c ∧ Popped P t.c ∧
        (job = none → t.c.pending = []))
      fun _ t => Left strict 0 k t.c ∧ t.c.pending <:+ P := by
  have hout : Spec (fun s => s.c.pending = P ∧ Left strict 0 k s.c) (onCodec (nextOut headers))
      (fun out t => Left strict (decodes out) k t.c ∧ Popped P t.c ∧ (out = none → t.c.pending = []))
      fun _ t => Left strict 0 k t.c ∧ t.c.pending <:+ P := by
    refine Spec.of_onCodec ?_
    rintro s ⟨rfl, hleft⟩
    refine Spec.look ?_
    exact (nextOutFrom_left hplain).enter ⟨rfl, hleft⟩
  refine Spec.seq hout fun out => ?_
  cases out with
  | none => exact .of_pure fun _ hs => ⟨hs.1, hs.2.1, fun _ => hs.2.2 rfl⟩
  | some out =>
    refine .read ?_
    rintro s ⟨hleft, hpopped, -⟩
    have hfailed : Left strict 0 k s.c ∧ s.c.pending <:+ P := by
      obtain ⟨popped, hP, -⟩ := hpopped
      exact ⟨hleft.mono (by omega), hP ▸ suffix_append _ _⟩
    refine .given hfailed fun seq _ => ?_
    cases out with
    | showExisting slot h =>
      refine .look ?_
      refine .given hfailed fun surface _ => ?_
      refine .of_pure fun _ h => ?_
      subst h
      exact ⟨hleft, hpopped, by simp⟩
    | decode j =>
      refine .look ?_
      refine .given hfailed fun _ _ => ?_
      refine .write (fun t => t.c = s.c) (fun _ h => h ▸ rfl) (.of_pure fun t ht => ?_)
      rw [ht]
      exact ⟨hleft, hpopped, by simp⟩

lemma build_codec {job : DecodeJob} {ctx : BuildContext} {r : VResult (List SurfaceRef)}
    (h : exec ((codec headers).build job ctx) s = (r, t)) : t.c = s.c := by
  have hspec : Spec (s = ·) (build ctx) (fun _ t => t.c = s.c) fun _ t => t.c = s.c := by
    refine .look ?_
    refine .write (fun t => t.c = s.c) (fun _ h => h ▸ rfl) ?_
    cases s.current with
    | none => exact .raise
    | some j =>
      refine .either Spec.raise ?_
      refine .write (fun t => t.c = s.c) (fun _ h => h) (.read fun t ht => ?_)
      exact .unchanged ht
  have ht : (exec (build ctx) s).2 = t := congrArg Prod.snd h
  exact ht ▸ Spec.state hspec

lemma finish_codec {job : DecodeJob} {current : ℕ} {readback : Option (List UInt8)}
    {r : VResult Unit} (h : exec ((codec headers).finish job current readback) s = (r, t)) :
    t.c = s.c := by
  cases h
  rfl

/-- The queue of a decoder is empty only between two units. -/
def Settled (s : Av1Decoder ρ) : Prop := s.c.pending = [] → s.c.cur = none ∧ s.c.obuPos = 0

lemma Settled.congr (hs : Settled s) (hc : t.c = s.c) : Settled t := by
  unfold Settled
  rw [hc]
  exact hs

lemma nextJob_settled (hs : Settled s) : Settled (exec (nextJob headers) s).2 := by
  have hplain : False → ∀ tu ∈ s.c.pending, PlainUnit headers tu := False.elim
  refine Spec.state (((nextJob_left (k := 0) hplain).enter ⟨rfl, hs, False.elim⟩).post ?_ ?_)
  all_goals exact fun _ t ht => ht.1.1

lemma perform_settled (hs : Settled s) (call : CodecCall (List UInt8)) :
    Settled ((codec headers).perform s call) := by
  cases call with
  | pushUnit data => exact fun h => absurd h (by simp [codec, Codec.perform])
  | nextJob => exact nextJob_settled hs
  | build job ctx => exact hs.congr (build_codec (Prod.mk.eta.symm))
  | finish job current readback => exact hs
  | flush => exact fun _ => ⟨rfl, rfl⟩

variable {jobs : List Job}

/-- Only the unit is queued, and each decode job took one of its counted frames. -/
lemma working_unit {obus : List Obu} (hcur : s.c.cur = none) (hsplit : splitObus data = .ok obus)
    (hseq : Plain s.c.seq) (hdata : PlainUnit headers data)
    (h : Working (codec headers) { s with c := { s.c with pending := [data] } } jobs t) :
    jobs.countP Job.isDecode ≤ obus.countP isCounted := by
  suffices hinv : ∃ k, k + jobs.countP Job.isDecode ≤ obus.countP isCounted ∧ Left True 0 k t.c ∧
      t.c.pending <:+ [data] by
    omega
  refine @Working.invariant _ _ _ _ _ _ (fun jobs t => ∃ k,
    k + jobs.countP Job.isDecode ≤ obus.countP isCounted ∧ Left True 0 k t.c ∧ t.c.pending <:+ [data])
    h ?_ ?_ ?_ ?_
  · refine ⟨obus.countP isCounted, by simp, ⟨by simp, fun _ => ⟨hseq, ?_⟩⟩, suffix_refl _⟩
    have hle : ((unitObus data).drop s.c.obuPos).countP isCounted ≤ obus.countP isCounted := by
      rw [unitObus_eq hsplit]
      exact (drop_sublist _ _).countP_le
    simpa [inProgress, hcur, remaining] using hle
  · rintro jobs t r u ⟨k, hk, hleft, hsuffix⟩ hrun
    have hplain : True → ∀ tu ∈ t.c.pending, PlainUnit headers tu := fun _ tu htu => by
      rw [mem_singleton.mp (hsuffix.subset htu)]
      exact hdata
    obtain ⟨hok, herr⟩ := nextJob_left hplain t ⟨rfl, hleft⟩
    cases r with
    | ok job =>
      obtain ⟨⟨hidle, hcount⟩, ⟨popped, hpopped, -⟩, -⟩ := hok job u hrun
      obtain ⟨hplain, hle⟩ := hcount trivial
      refine ⟨k - (issued (.ok job)).countP Job.isDecode, ?_, ⟨hidle, fun _ => ⟨hplain, by omega⟩⟩, ?_⟩
      · rw [countP_append]
        omega
      · exact (hpopped ▸ suffix_append _ _).trans hsuffix
    | error e =>
      obtain ⟨hleft', hsuffix'⟩ := herr e u hrun
      exact ⟨k, by simpa [issued] using hk, hleft', hsuffix'.trans hsuffix⟩
  · rintro jobs job ctx t r u hinv hrun
    rw [build_codec hrun]
    exact hinv
  · rintro jobs job current readback t r u hinv hrun
    rw [finish_codec hrun]
    exact hinv

lemma working_pending (hs : Settled s) (h : Working (codec headers) s jobs t) :
    t.c.pending <:+ s.c.pending := by
  refine (@Working.invariant _ _ _ _ _ _ (fun _ t => Settled t ∧ t.c.pending <:+ s.c.pending)
    h ⟨hs, suffix_refl _⟩ ?_ ?_ ?_).2
  · rintro jobs t r u ⟨ht, hsuffix⟩ hrun
    have hplain : False → ∀ tu ∈ t.c.pending, PlainUnit headers tu := False.elim
    obtain ⟨hok, herr⟩ := nextJob_left (k := 0) hplain t ⟨rfl, ht, False.elim⟩
    cases r with
    | ok job =>
      obtain ⟨hleft, ⟨popped, hpopped, -⟩, -⟩ := hok job u hrun
      exact ⟨hleft.1, (hpopped ▸ suffix_append _ _).trans hsuffix⟩
    | error e =>
      obtain ⟨hleft, hsuffix'⟩ := herr e u hrun
      exact ⟨hleft.1, hsuffix'.trans hsuffix⟩
  · rintro jobs job ctx t r u hinv hrun
    have hc := build_codec hrun
    exact ⟨hinv.1.congr hc, hc ▸ hinv.2⟩
  · rintro jobs job current readback t r u hinv hrun
    have hc := finish_codec hrun
    exact ⟨hinv.1.congr hc, hc ▸ hinv.2⟩

/-- A unit that was processed to its end could be split. -/
lemma processed_splits (hs : Settled s) (h : Processed (codec headers) s jobs t) :
    ∀ tu ∈ s.c.pending, ∃ obus, splitObus tu = .ok obus := by
  have hplain : ∀ s : Av1Decoder ρ, False → ∀ tu ∈ s.c.pending, PlainUnit headers tu :=
    fun _ => False.elim
  have hjob : ∀ {s t : Av1Decoder ρ} {job : Option Job}, Settled s →
      exec (codec headers).nextJob s = (.ok job, t) → Settled t ∧
      ((∀ tu ∈ t.c.pending, ∃ obus, splitObus tu = .ok obus) →
        ∀ tu ∈ s.c.pending, ∃ obus, splitObus tu = .ok obus) ∧ (job = none → t.c.pending = []) := by
    intro s t job hs hrun
    obtain ⟨hleft, ⟨popped, hpopped, hsplit⟩, hnone⟩ :=
      (nextJob_left (k := 0) (hplain s) s ⟨rfl, hs, False.elim⟩).1 job t hrun
    refine ⟨hleft.1, fun hrest => ?_, hnone⟩
    rw [hpopped, forall_mem_append]
    exact ⟨hsplit, hrest⟩
  induction h with
  | done hnext =>
    obtain ⟨-, hall, hnone⟩ := hjob hs hnext
    exact hall (by simp [hnone rfl])
  | showExisting hnext _ ih =>
    obtain ⟨ht, hall, -⟩ := hjob hs hnext
    exact hall (ih ht)
  | decode hnext hbuild hfinish _ ih =>
    obtain ⟨ht, hall, -⟩ := hjob hs hnext
    have hc := (finish_codec hfinish).trans (build_codec hbuild)
    exact hall (hc ▸ ih (ht.congr hc))

end Av1Decoder

end NvidiaProlapse.Av1
