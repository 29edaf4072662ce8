import NvidiaProlapse.Av1Contexts
import Mathlib.Data.List.ReduceOption

/-!
# Surfaces of the AV1 slots

The reference map names slots, and the slots name surfaces. The map advances when a frame is
parsed, the surface of its slot when the picture is built. A frame that is refused in
between stays in the map with the surface of an earlier frame, or with none.
-/
namespace NvidiaProlapse.Av1

open Programs Video Runs List Function Av1Decoder

variable {ρ : Type}

/-- How far a job gets: the session may fail before it builds the picture, or before it finishes
it. -/
inductive JobEnd where
  | abandoned
  | built (len current : ℕ) (finished : Bool)

inductive SlotEvent where
  | pushUnit (data : List UInt8)
  | job (jobEnd : JobEnd)
  | flush

/-- The decoder, and as history where the frame recorded in each slot was decoded, if it was. -/
structure Placement (ρ : Type) where
  dec : Av1Decoder ρ
  placed : ℕ → Option Surf := fun _ => none

namespace Placement

variable {headers : Headers ρ} {m : Placement ρ} {j : PictureJob} {e : SlotEvent} {jobEnd : JobEnd}

/-- The slot of a frame that the parser puts out is recorded anew. -/
def record (placed : ℕ → Option Surf) : AResult (Option Av1Out) → ℕ → Option Surf
  | .ok (some (.decode j)) => Function.update placed j.slot none
  | _ => placed

/-- The picture is built, and its slot is where it was decoded. -/
def build (headers : Headers ρ) (job : DecodeJob) (len current : ℕ) (finished : Bool)
    (m : Placement ρ) : Placement ρ :=
  match m.dec.current, exec ((codec headers).build job ⟨len, 0, current⟩) m.dec with
  | some j, (.ok _, dec) =>
    { dec := if finished then (codec headers).perform dec (.finish job current none) else dec
      placed := Function.update m.placed j.slot (some (Av1Decoder.surfOf j current)) }
  | _, (_, dec) => { m with dec := dec }

def step (headers : Headers ρ) (m : Placement ρ) : SlotEvent → Placement ρ
  | .pushUnit data => { m with dec := (codec headers).perform m.dec (.pushUnit data) }
  | .flush => { dec := (codec headers).perform m.dec .flush }
  | .job jobEnd =>
    let placed := record m.placed (exec (Av1Codec.nextOut headers) m.dec.c).1
    match exec (codec headers).nextJob m.dec, jobEnd with
    | (.ok (some (.decode job)), dec), .built len current finished =>
      build headers job len current finished ⟨dec, placed⟩
    | (_, dec), _ => ⟨dec, placed⟩

/-- Every referenced slot points at the surface its own frame was decoded into. -/
def Own (m : Placement ρ) : Prop :=
  ∀ slot, some slot ∈ m.dec.c.refMap →
    ∃ surf, m.placed slot = some surf ∧ m.dec.surfaceAt slot = some surf

/-- The job is accepted and built. -/
def GoesThrough (headers : Headers ρ) (m : Placement ρ) (jobEnd : JobEnd) : Prop :=
  ∃ job len current finished, (exec (codec headers).nextJob m.dec).1 = .ok (some (.decode job)) ∧
    jobEnd = .built len current finished ∧ len = job.bitstream.length

/-- A frame enters the reference map and is then refused or not built. -/
def Loses (headers : Headers ρ) (m : Placement ρ) (e : SlotEvent) : Prop :=
  ∃ jobEnd j c, e = .job jobEnd ∧ exec (Av1Codec.nextOut headers) m.dec.c = (.ok (some (.decode j)), c) ∧
    some j.slot ∈ c.refMap ∧ ¬GoesThrough headers m jobEnd

/-- Whatever happens, a frame that was built keeps its surface until its slot is recorded anew. -/
structure Recorded (m : Placement ρ) : Prop where
  slots : m.dec.c.slots.length = dpbSlots
  surfaces : m.dec.slotSurface.length = dpbSlots
  placed : ∀ slot surf, m.placed slot = some surf → m.dec.surfaceAt slot = some surf
  grain : ∀ slot display, m.dec.surfaceAt slot = some (.grain display) → m.dec.grainCapable = true

lemma Recorded.own_iff (hm : Recorded m) :
    Own m ↔ ∀ slot, some slot ∈ m.dec.c.refMap → (m.placed slot).isSome := by
  constructor
  · intro hown slot hslot
    obtain ⟨surf, hplaced, -⟩ := hown slot hslot
    rw [hplaced]
    rfl
  · intro hall slot hslot
    obtain ⟨surf, hsurf⟩ := Option.isSome_iff_exists.mp (hall slot hslot)
    exact ⟨surf, hsurf, hm.placed slot surf hsurf⟩

/-! ## Steps -/

/-- A job leaves the slots alone, or a frame takes one and is lost or placed. -/
inductive Stepped (headers : Headers ρ) (m : Placement ρ) (jobEnd : JobEnd) : Placement ρ → Prop
  | kept {c : Av1Codec ρ} (hslots : c.slots.length = m.dec.c.slots.length)
      (hmap : ∀ slot, some slot ∈ c.refMap → some slot ∈ m.dec.c.refMap)
      (hout : ∀ j c', exec (Av1Codec.nextOut headers) m.dec.c ≠ (.ok (some (.decode j)), c')) :
      Stepped headers m jobEnd { m with dec := { m.dec with c := c } }
  | lost {j : PictureJob} {c : Av1Codec ρ} {dec : Av1Decoder ρ}
      (hout : exec (Av1Codec.nextOut headers) m.dec.c = (.ok (some (.decode j)), c))
      (hj : Av1Codec.Finished m.dec.c j c) (hc : dec.c = c)
      (hsurface : dec.slotSurface = m.dec.slotSurface ∨
        dec.slotSurface = m.dec.slotSurface.set j.slot none)
      (hgrain : dec.grainCapable = m.dec.grainCapable) (hfail : ¬GoesThrough headers m jobEnd) :
      Stepped headers m jobEnd ⟨dec, Function.update m.placed j.slot none⟩
  | placed {j : PictureJob} {c : Av1Codec ρ} {dec : Av1Decoder ρ} {current : ℕ}
      (hout : exec (Av1Codec.nextOut headers) m.dec.c = (.ok (some (.decode j)), c))
      (hj : Av1Codec.Finished m.dec.c j c) (hcheck : m.dec.checkJob j = .ok ()) (hc : dec.c = c)
      (hsurface : dec.slotSurface =
        m.dec.slotSurface.set j.slot (some (Av1Decoder.surfOf j current)))
      (hgrain : dec.grainCapable = m.dec.grainCapable) (hthrough : GoesThrough headers m jobEnd) :
      Stepped headers m jobEnd
        ⟨dec, Function.update m.placed j.slot (some (Av1Decoder.surfOf j current))⟩

lemma not_goesThrough_of_error {error : VideoError} {dec : Av1Decoder ρ}
    (h : exec (codec headers).nextJob m.dec = (.error error, dec)) : ¬GoesThrough headers m jobEnd := by
  rintro ⟨job, _, _, _, hjob, -⟩
  rw [h] at hjob
  cases hjob

lemma build_stepped {job : DecodeJob} {c : Av1Codec ρ} {len current : ℕ} {finished : Bool}
    (hrun : exec (codec headers).nextJob m.dec =
      (.ok (some (.decode job)), Av1Decoder.takeJob j { m.dec with c := c }))
    (hout : exec (Av1Codec.nextOut headers) m.dec.c = (.ok (some (.decode j)), c))
    (hj : Av1Codec.Finished m.dec.c j c) (hcheck : m.dec.checkJob j = .ok ())
    (hjob : job.bitstream = j.tiles.bitstream) :
    Stepped headers m (.built len current finished) (build headers job len current finished
      ⟨Av1Decoder.takeJob j { m.dec with c := c }, Function.update m.placed j.slot none⟩) := by
  unfold build
  rcases hbuild : exec ((codec headers).build job ⟨len, 0, current⟩)
    (takeJob j { m.dec with c := c }) with ⟨r, dec⟩
  cases r with
  | error error =>
    obtain ⟨rfl, hlen⟩ := (build_built _ _ _ rfl).2 error dec hbuild
    refine .lost hout hj rfl (.inr rfl) rfl ?_
    rintro ⟨job', len', current', finished', hjob', ⟨⟩, hlen'⟩
    rw [hrun] at hjob'
    cases hjob'
    exact hlen j rfl (hlen'.trans (congrArg length hjob))
  | ok planes =>
    obtain ⟨j', hj', hlen, rfl, -⟩ := (build_built _ _ _ rfl).1 planes dec hbuild
    cases hj'
    have hthrough : GoesThrough headers m (.built len current finished) :=
      ⟨job, len, current, finished, by rw [hrun], rfl, hlen.trans (congrArg length hjob.symm)⟩
    have hset : (m.dec.slotSurface.set j.slot none).set j.slot (some (surfOf j current)) =
        m.dec.slotSurface.set j.slot (some (surfOf j current)) := set_set ..
    show Stepped headers m (.built len current finished) ⟨if finished then _ else _,
      update (update m.placed j.slot none) j.slot (some (surfOf j current))⟩
    rw [update_idem]
    cases finished with
    | true | false => exact .placed hout hj hcheck rfl hset rfl hthrough

lemma job_stepped (m : Placement ρ) (jobEnd : JobEnd) :
    Stepped headers m jobEnd (step headers m (.job jobEnd)) := by
  unfold step
  rcases hrun : exec (codec headers).nextJob m.dec with ⟨r, dec⟩
  cases nextJob_cases hrun with
  | nothing hout hc =>
    rw [hout]
    refine .kept (by rw [hc.1]) (fun slot hslot => hc.2 ▸ hslot) ?_
    rintro j c' heq
    cases hout.symm.trans heq
  | shown hout hc hsurface =>
    rw [hout]
    refine .kept ?_ (fun slot hslot => hc.shown_subset hslot) ?_
    · cases hc with
      | shown hslot hslots hmap => rw [hslots]
    · rintro j c' heq
      cases hout.symm.trans heq
  | failed hout hc =>
    rw [hout]
    refine .kept hc.2 (fun slot hslot => hc.1 ▸ hslot) ?_
    rintro j c' heq
    cases hout.symm.trans heq
  | @refused c out error hout hc =>
    rw [hout]
    cases out with
    | showExisting slot h =>
      refine .kept ?_ (fun slot hslot => hc.shown_subset hslot) ?_
      · cases hc with
        | shown hslot hslots hmap => rw [hslots]
      · rintro j c' heq
        cases hout.symm.trans heq
    | decode j =>
      cases hc with
      | decoded hj => exact .lost hout hj rfl (.inl rfl) rfl (not_goesThrough_of_error hrun)
  | @offered c j job hout hc hcheck hjob =>
    rw [hout]
    cases jobEnd with
    | abandoned =>
      refine .lost hout hc rfl (.inr rfl) rfl ?_
      rintro ⟨_, _, _, _, -, ⟨⟩, -⟩
    | built len current finished => exact build_stepped hrun hout hc hcheck hjob

lemma length_takeSlot {k c : Av1Codec ρ} (hj : Av1Codec.Finished k j c) :
    c.slots.length = k.slots.length := by
  rw [hj.books.1]
  exact length_set.trans (Av1Codec.length_releaseSlots _)

variable {slot : ℕ} {s : Av1Decoder ρ}

/-- The surfaces of the other slots are as before. -/
lemma surfaceAt_of_ne {dec : Av1Decoder ρ} {other : ℕ} {surf : Option Surf} (hne : other ≠ slot)
    (h : dec.slotSurface = m.dec.slotSurface ∨ dec.slotSurface = m.dec.slotSurface.set slot surf) :
    dec.surfaceAt other = m.dec.surfaceAt other := by
  unfold surfaceAt
  rcases h with h | h
  · rw [h]
  · rw [h, getD_eq_getElem?_getD, getElem?_set_ne hne.symm, ← getD_eq_getElem?_getD]

lemma surfaceAt_self {dec : Av1Decoder ρ} {surf : Option Surf}
    (hlt : slot < m.dec.slotSurface.length) (h : dec.slotSurface = m.dec.slotSurface.set slot surf) :
    dec.surfaceAt slot = surf := by
  unfold surfaceAt
  rw [h, getD_eq_getElem?_getD, getElem?_set_self hlt, Option.getD_some]

/-- Film grain is accepted only with private surfaces. -/
lemma grainCapable_of_check {current : ℕ} {display : Option ℕ} (hcheck : s.checkJob j = .ok ())
    (hsurf : Av1Decoder.surfOf j current = .grain display) : s.grainCapable = true := by
  have hgrain : j.hdr.applyGrain = true := by
    by_contra hplain
    rw [surfOf, if_neg hplain] at hsurf
    cases hsurf
  unfold checkJob at hcheck
  dsimp only at hcheck
  split_ifs at hcheck with _ _ hrefused
  rw [hgrain] at hrefused
  simpa using hrefused

/-- One slot is recorded anew, with or without a surface. -/
lemma Recorded.update (hm : Recorded m) {dec : Av1Decoder ρ} {v w : Option Surf}
    (hslots : dec.c.slots.length = m.dec.c.slots.length)
    (hsurface : dec.slotSurface = m.dec.slotSurface ∨ dec.slotSurface = m.dec.slotSurface.set slot w)
    (hcapable : dec.grainCapable = m.dec.grainCapable)
    (hv : ∀ surf, v = some surf → dec.surfaceAt slot = some surf)
    (hw : ∀ display, dec.surfaceAt slot = some (.grain display) → m.dec.grainCapable = true) :
    Recorded ⟨dec, Function.update m.placed slot v⟩ := by
  refine ⟨hslots.trans hm.slots, ?_, fun other surf hplaced => ?_, fun other display hgrain => ?_⟩
  · rcases hsurface with h | h
    · exact h ▸ hm.surfaces
    · rw [h, length_set, hm.surfaces]
  · have hplaced' : Function.update m.placed slot v other = some surf := hplaced
    by_cases hown : other = slot
    · subst hown
      rw [Function.update_self] at hplaced'
      exact hv surf hplaced'
    · rw [update_of_ne hown] at hplaced'
      rw [surfaceAt_of_ne hown hsurface]
      exact hm.placed other surf hplaced'
  · have hat : dec.surfaceAt other = some (.grain display) := hgrain
    rw [hcapable]
    by_cases hown : other = slot
    · subst hown
      exact hw display hat
    · rw [surfaceAt_of_ne hown hsurface] at hat
      exact hm.grain other display hat

lemma Recorded.stepped {n : Placement ρ} (hm : Recorded m) (h : Stepped headers m jobEnd n) :
    Recorded n := by
  have hbound : ∀ {j c}, Av1Codec.Finished m.dec.c j c → j.slot < m.dec.slotSurface.length := by
    intro j c hj
    rw [hm.surfaces, ← hm.slots]
    exact hj.bound
  cases h with
  | kept hslots hmap hout => exact { hm with slots := hslots.trans hm.slots }
  | @lost j c dec hout hj hc hsurface hgrain hfail =>
    subst hc
    refine hm.update (length_takeSlot hj) hsurface hgrain ?_ fun display hat => ?_
    · rintro surf ⟨⟩
    rcases hsurface with h | h
    · unfold surfaceAt at hat
      rw [h] at hat
      exact hm.grain _ display hat
    · cases (surfaceAt_self (hbound hj) h).symm.trans hat
  | @placed j c dec current hout hj hcheck hc hsurface hgrain hthrough =>
    subst hc
    have hself := surfaceAt_self (hbound hj) hsurface
    refine hm.update (length_takeSlot hj) (.inr hsurface) hgrain (fun surf h => hself.trans h) ?_
    intro display hat
    exact grainCapable_of_check hcheck (Option.some.inj (hself.symm.trans hat))

lemma getD_replicate_none (slot : ℕ) :
    (List.replicate dpbSlots (none : Option Surf)).getD slot none = none := by
  rw [getD_eq_getElem?_getD, getElem?_replicate]
  split_ifs
  · rfl
  · rfl

lemma step_recorded (hm : Recorded m) (e : SlotEvent) : Recorded (step headers m e) := by
  cases e with
  | pushUnit data => exact { hm with }
  | job jobEnd => exact hm.stepped (job_stepped m jobEnd)
  | flush =>
    refine ⟨rfl, rfl, ?_, fun slot display hgrain => ?_⟩
    · rintro slot surf ⟨⟩
    · cases (getD_replicate_none slot).symm.trans hgrain

lemma stepped_own_iff {n : Placement ρ} (hm : Recorded m) (hown : Own m)
    (h : Stepped headers m jobEnd n) : Own n ↔ ¬Loses headers m (.job jobEnd) := by
  have hplaced := hm.own_iff.mp hown
  rw [(hm.stepped h).own_iff]
  cases h with
  | kept hslots hmap hout =>
    refine iff_of_true (fun slot hslot => hplaced slot (hmap slot hslot)) ?_
    rintro ⟨_, j, c, -, heq, -⟩
    exact hout j c heq
  | @lost j c dec hout hj hc hsurface hgrain hfail =>
    subst hc
    constructor
    · rintro hall ⟨_, j', c', ⟨⟩, heq, hmem, -⟩
      cases hout.symm.trans heq
      have hsome : (update m.placed j.slot none j.slot).isSome := hall j.slot hmem
      rw [update_self] at hsome
      cases hsome
    · intro hkeeps slot hslot
      show (update m.placed j.slot none slot).isSome
      have hne : slot ≠ j.slot := by
        rintro rfl
        exact hkeeps ⟨jobEnd, j, _, rfl, hout, hslot, hfail⟩
      rw [update_of_ne hne]
      have hmem : some slot ∈ dec.c.refMap := hslot
      rw [hj.books.2] at hmem
      exact hplaced slot ((Engine.mem_refMap_takeSlot hmem).resolve_left hne)
  | @placed j c dec current hout hj hcheck hc hsurface hgrain hthrough =>
    subst hc
    refine iff_of_true (fun slot hslot => ?_) ?_
    · show (update m.placed j.slot (some (surfOf j current)) slot).isSome
      by_cases hown : slot = j.slot
      · subst hown
        rw [update_self]
        rfl
      rw [update_of_ne hown]
      have hmem : some slot ∈ dec.c.refMap := hslot
      rw [hj.books.2] at hmem
      exact hplaced slot ((Engine.mem_refMap_takeSlot hmem).resolve_left hown)
    · rintro ⟨_, _, _, ⟨⟩, -, -, hfail⟩
      exact hfail hthrough

/-- A step keeps the surfaces right unless it loses a frame. -/
lemma step_own_iff (hm : Recorded m) (hown : Own m) (e : SlotEvent) :
    Own (step headers m e) ↔ ¬Loses headers m e := by
  cases e with
  | pushUnit data =>
    refine iff_of_true hown ?_
    rintro ⟨_, _, _, ⟨⟩, -⟩
  | job jobEnd => exact stepped_own_iff hm hown (job_stepped m jobEnd)
  | flush =>
    refine iff_of_true (fun slot hslot => ?_) ?_
    · cases eq_of_mem_replicate hslot
    · rintro ⟨_, _, _, ⟨⟩, -⟩

/-! ## Uses -/

/-- The plane of a reference: its session surface, or with film grain the private one of the slot. -/
def planeOf (slot : ℕ) : Surf → SurfaceRef
  | .session x => .session x
  | .grain _ => .side slot

/-- What the decoder shows, keeps from reuse and programs as references is where the frames of the
slots were decoded; private surfaces are programmed only if there are any. -/
structure UsesOwn (headers : Headers ρ) (m : Placement ρ) : Prop where
  shown : ∀ surface info dec,
    exec (codec headers).nextJob m.dec = (.ok (some (.showExisting surface info)), dec) →
      ∃ slot h c surf, exec (Av1Codec.nextOut headers) m.dec.c = (.ok (some (.showExisting slot h)), c) ∧
        m.placed slot = some surf ∧ Av1Decoder.shownSurface surf = some surface
  referenced : ∀ x, x ∈ (codec headers).referenced m.dec ↔
    (∃ slot surf, some slot ∈ m.dec.c.refMap ∧ m.placed slot = some surf ∧
      Av1Decoder.shownSurface surf = some x) ∨ x ∈ m.dec.pendingRefs
  references : ∀ job dec ctx planes dec',
    exec (codec headers).nextJob m.dec = (.ok (some (.decode job)), dec) →
    exec ((codec headers).build job ctx) dec = (.ok planes, dec') →
      ∃ j, dec.current = some j ∧
        (∀ i slot : ℕ, j.refSlots[i]? = some (some slot) →
          ∃ surf, m.placed slot = some surf ∧ planes[i]? = some (planeOf slot surf)) ∧
        ∀ slot, SurfaceRef.side slot ∈ planes → m.dec.grainCapable = true

lemma shownSurface_of_shown {surface : ℕ} {grain : Bool} {surf : Surf}
    (hsurf : s.surfaceAt slot = some surf) (h : s.shownSlot slot grain = .ok surface) :
    Av1Decoder.shownSurface surf = some surface := by
  unfold shownSlot at h
  rw [hsurf] at h
  cases surf with
  | session x =>
    cases grain with
    | false =>
      cases h
      rfl
    | true => cases h
  | grain display =>
    cases display with
    | none => cases h
    | some x =>
      cases grain with
      | false => cases h
      | true =>
        cases h
        rfl

lemma slotRef_eq {surf : Surf} (hsurf : s.surfaceAt slot = some surf) :
    s.slotRef slot = planeOf slot surf := by
  unfold slotRef
  rw [hsurf]
  cases surf with
  | session x => rfl
  | grain display => rfl

lemma mem_referenced {x : ℕ} : x ∈ s.referenced ↔
    (∃ slot surf, some slot ∈ s.c.refMap ∧ s.surfaceAt slot = some surf ∧
      Av1Decoder.shownSurface surf = some x) ∨ x ∈ s.pendingRefs := by
  unfold referenced Av1Codec.referencedSlots
  rw [mem_dedup, mem_append, mem_filterMap]
  refine or_congr ?_ Iff.rfl
  constructor
  · rintro ⟨slot, hslot, hx⟩
    obtain ⟨surf, hsurf, hshown⟩ := Option.bind_eq_some_iff.mp hx
    exact ⟨slot, surf, reduceOption_mem_iff.mp (mem_dedup.mp hslot), hsurf, hshown⟩
  rintro ⟨slot, surf, hslot, hsurf, hshown⟩
  refine ⟨slot, mem_dedup.mpr (reduceOption_mem_iff.mpr hslot), ?_⟩
  rw [hsurf]
  exact hshown

lemma surfaceAt_built {c : Av1Codec ρ} {current : ℕ} (hne : slot ≠ j.slot) :
    ((Av1Decoder.takeJob j { m.dec with c := c }).built j current).surfaceAt slot =
      m.dec.surfaceAt slot := by
  have hset : ((takeJob j { m.dec with c := c }).built j current).slotSurface =
      m.dec.slotSurface.set j.slot (some (surfOf j current)) := set_set ..
  exact surfaceAt_of_ne hne (.inr hset)

lemma Own.references (hm : Recorded m) (hown : Own m) {job : DecodeJob} {dec dec' : Av1Decoder ρ}
    {ctx : BuildContext} {planes : List SurfaceRef}
    (hnext : exec (codec headers).nextJob m.dec = (.ok (some (.decode job)), dec))
    (hbuild : exec ((codec headers).build job ctx) dec = (.ok planes, dec')) :
    ∃ j, dec.current = some j ∧ (∀ i slot : ℕ, j.refSlots[i]? = some (some slot) →
        ∃ surf, m.placed slot = some surf ∧ planes[i]? = some (planeOf slot surf)) ∧
      ∀ slot, SurfaceRef.side slot ∈ planes → m.dec.grainCapable = true := by
  cases nextJob_cases hnext with
  | @offered c j job hout hj hcheck hjob =>
    obtain ⟨j', hj', -, rfl, rfl⟩ := (build_built _ _ _ rfl).1 planes dec' hbuild
    cases hj'
    have href : ∀ i slot : ℕ, j.refSlots[i]? = some (some slot) → ∃ surf, m.placed slot = some surf ∧
        m.dec.surfaceAt slot = some surf ∧
        ((takeJob j { m.dec with c := c }).built j ctx.current).slotRef slot =
          planeOf slot surf := by
      intro i slot hi
      have hmem : some slot ∈ m.dec.c.refMap := by
        have hget : (m.dec.c.refSlotsOf j.hdr).getD i none = some slot := by
          rw [← hj.refs, getD_eq_getElem?_getD, hi, Option.getD_some]
        exact Engine.mem_refMap_of_refSlots hget
      obtain ⟨surf, hplaced, hsurf⟩ := hown slot hmem
      have hne : slot ≠ j.slot := by
        rintro rfl
        exact hj.free hmem
      exact ⟨surf, hplaced, hsurf, slotRef_eq ((surfaceAt_built hne).trans hsurf)⟩
    have htarget : ((takeJob j { m.dec with c := c }).built j ctx.current).slotRef j.slot =
        planeOf j.slot (Av1Decoder.surfOf j ctx.current) := by
      refine slotRef_eq (surfaceAt_self (m := m) ?_ (set_set ..))
      rw [hm.surfaces, ← hm.slots]
      exact hj.bound
    have hside : ∀ slot, SurfaceRef.side slot = planeOf j.slot (surfOf j ctx.current) →
        m.dec.grainCapable = true := by
      intro slot heq
      cases hsurf : surfOf j ctx.current with
      | session x =>
        rw [hsurf] at heq
        cases heq
      | grain display => exact grainCapable_of_check hcheck hsurf
    refine ⟨j, rfl, fun i slot hi => ?_, fun slot hslot => ?_⟩
    · obtain ⟨surf, hplaced, -, hplane⟩ := href i slot hi
      have hlt : i < j.refSlots.length := (List.getElem?_eq_some_iff.mp hi).1
      refine ⟨surf, hplaced, ?_⟩
      unfold planes
      rw [append_assoc, getElem?_append_left (by simpa using hlt), getElem?_map, hi]
      exact congrArg some hplane
    · unfold planes at hslot
      rw [mem_append, mem_append, mem_map, mem_singleton, htarget] at hslot
      rcases hslot with (⟨r, hr, heq⟩ | heq) | hgrain
      · cases r with
        | none => exact hside slot heq.symm
        | some sl =>
          obtain ⟨i, hi⟩ := mem_iff_getElem?.mp hr
          obtain ⟨surf, -, hsurf, hplane⟩ := href i sl hi
          have heq' : planeOf sl surf = SurfaceRef.side slot := hplane.symm.trans heq
          cases surf with
          | session x => cases heq'
          | grain display => exact hm.grain sl display hsurf
      · exact hside slot heq
      · split_ifs at hgrain
        · cases mem_singleton.mp hgrain
        · cases hgrain

lemma Own.usesOwn (hm : Recorded m) (hown : Own m) : UsesOwn headers m := by
  refine ⟨fun surface info dec hnext => ?_, fun x => ?_, fun job dec ctx planes dec' hnext hbuild =>
    hown.references hm hnext hbuild⟩
  · cases nextJob_cases hnext with
    | shown hout hc hsurface =>
      cases hc with
      | shown hslot hslots hmap =>
        obtain ⟨surf, hplaced, hsurf⟩ := hown _ (Av1Codec.mem_of_getD hslot)
        exact ⟨_, _, _, surf, hout, hplaced, shownSurface_of_shown hsurf hsurface⟩
  · refine mem_referenced.trans (or_congr ?_ Iff.rfl)
    constructor
    · rintro ⟨slot, surf, hslot, hsurf, hx⟩
      obtain ⟨surf', hplaced, hsurf'⟩ := hown slot hslot
      cases hsurf.symm.trans hsurf'
      exact ⟨slot, surf, hslot, hplaced, hx⟩
    · rintro ⟨slot, surf, hslot, hplaced, hx⟩
      exact ⟨slot, surf, hslot, hm.placed slot surf hplaced, hx⟩

/-! ## Runs -/

/-- Along a run every referenced slot points at its own picture exactly as long as no frame that
entered the reference map is refused or left unbuilt; and as long as it does, what the decoder shows,
reports and programs is right. -/
theorem slots_point_at_own_picture_iff (headers : Headers ρ) (seq : Option SequenceHeader)
    (max : ℕ × ℕ) (bitDepth : ℕ) (events : List SlotEvent) :
    ((∀ before after, events = before ++ after →
      Own (before.foldl (step headers) ⟨fresh headers seq max bitDepth, fun _ => none⟩)) ↔
      Along (fun m e => some (step headers m e)) (fun m e => ¬Loses headers m e)
        ⟨fresh headers seq max bitDepth, fun _ => none⟩ events) ∧
    (Own (events.foldl (step headers) ⟨fresh headers seq max bitDepth, fun _ => none⟩) →
      UsesOwn headers (events.foldl (step headers) ⟨fresh headers seq max bitDepth, fun _ => none⟩)) := by
  have hstart : Recorded (⟨fresh headers seq max bitDepth, fun _ => none⟩ : Placement ρ) := by
    refine ⟨rfl, rfl, ?_, fun slot display hgrain => ?_⟩
    · rintro slot surf ⟨⟩
    · cases (getD_replicate_none slot).symm.trans hgrain
  have hown : Own (⟨fresh headers seq max bitDepth, fun _ => none⟩ : Placement ρ) := by
    intro slot hslot
    cases eq_of_mem_replicate hslot
  constructor
  · rw [← @always_iff_along _ _ _ _ Recorded Own ?_ ?_ _ hstart hown]
    · simp
    · rintro m e _ hm ⟨⟩
      exact step_recorded hm e
    · intro m e hm hown
      rw [← step_own_iff hm hown]
      simp
  · intro hlast
    refine hlast.usesOwn ?_
    exact run_invariant (fun m e _ hm h => by cases h; exact step_recorded hm e) hstart
      (run_total (step headers) _ events)

/-- Frames of 64x64 in one tile. After the first byte a header says which references the frame
refreshes, all of them for a key frame, and whether film grain is applied. -/
def grainHeaders : Headers Unit where
  start := ()
  sequence := fun _ => .ok {}
  existing := fun _ _ _ => .error (.truncated "f(n)")
  coded := fun _ _ o =>
    let refresh := (o.payload.getD 1 0).toNat
    (.ok {
      frameType := if refresh = 0xff then 0 else 1
      frameIsIntra := refresh = 0xff
      showFrame := true
      refreshFrameFlags := refresh
      frameHeight := 64
      upscaledWidth := 64
      applyGrain := o.payload.getD 2 0 = 1
      headerBytes := 3 }, ())
  updateRefs := fun _ refs => refs
  tileGroup := fun _ payload _ => .ok (true, ⟨payload, [(0, payload.length)]⟩)

def grainFrame (refresh grain : UInt8) : List UInt8 := [0x32, 4, 0, refresh, grain, 0]

/-- A key frame in surface 0, the frames in between, and a frame that refers to reference 0. -/
def afterFrames (between : List SlotEvent) : Placement Unit :=
  let events : List SlotEvent :=
    [.pushUnit ([0x0a, 0] ++ grainFrame 0xff 0), .job (.built 1 0 true)] ++ between ++
      [.pushUnit (grainFrame 0 0)]
  events.foldl (step grainHeaders) ⟨fresh grainHeaders none (64, 64) 8, fun _ => none⟩

/-- Reference 0 is taken by a frame with film grain, which is refused. The next frame is decoded from
the surface of an earlier one that used the slot, or from a private surface that does not exist. -/
theorem refused_frame_reference :
    (let m := afterFrames [.pushUnit (grainFrame 0 0), .job (.built 1 1 true),
      .pushUnit (grainFrame 1 1), .job .abandoned]
    m.dec.c.refMap.head? = some (some 1) ∧ m.placed 1 = none ∧
      (exec (Av1Decoder.build ⟨1, 0, 2⟩) (exec (codec grainHeaders).nextJob m.dec).2).1.toOption.map
        List.head? = some (some (.session 1))) ∧
    let m := afterFrames [.pushUnit (grainFrame 1 1), .job .abandoned]
    m.dec.c.refMap.head? = some (some 1) ∧ m.dec.grainCapable = false ∧
      (exec (Av1Decoder.build ⟨1, 0, 1⟩) (exec (codec grainHeaders).nextJob m.dec).2).1.toOption.map
        List.head? = some (some (.side 1)) := by
  decide +kernel

end Placement

end NvidiaProlapse.Av1
