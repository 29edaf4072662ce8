import NvidiaProlapse.H264Slots

/-!
# H.264 on the session

The plug-in queues access units, hands out one decode job per picture and completes the
picture when the session has picked its surface.
-/
namespace NvidiaProlapse.H264

open Programs Video

abbrev AccessUnit := List Nal

structure H264Decoder where
  dec : Decoder
  units : List AccessUnit := []
  pending : Option Begun := none
  max : ℕ × ℕ
  /-- Pictures that display may hold back. -/
  reorder : ℕ := 16

namespace H264Decoder

variable {α : Type}

def onDec (p : Prog Decoder VideoError α) : Prog H264Decoder VideoError α :=
  focus H264Decoder.dec (fun dec s => { s with dec := dec }) p

def sessionInfo (i : Info) : PictureInfo :=
  let (left, right, top, bottom) := i.crop
  let (primaries, transfer, matrix, fullRange) := i.colour
  { width := i.width
    height := i.height
    crop := (left, top, sub32 (sub32 i.width left) right, sub32 (sub32 i.height top) bottom)
    bitDepth := 8
    colorPrimaries := primaries
    transfer := transfer
    matrix := matrix
    fullRange := fullRange
    keyframe := i.keyframe }

def jobOf (b : Begun) : DecodeJob where
  info := sessionInfo b.info
  shown := true
  displayKey := some b.displayKey
  bitstream := b.pic.bitstream
  readback := none

/-- The picture becomes the pending one, unless it is too large for the session. -/
def offer (b : Begun) : Prog H264Decoder VideoError (Option Job) := do
  let s ← get
  if b.info.width > nextMultipleOf 16 s.max.1 ∨ b.info.height > nextMultipleOf 16 s.max.2 then
    throw (tooLarge "H.264" b.info.width b.info.height s.max b.info.keyframe)
  else do
    modify fun s => { s with pending := some b }
    pure (some (.decode (jobOf b)))

/-- Access units without a picture are skipped. -/
def nextJobFrom : List AccessUnit → Prog H264Decoder VideoError (Option Job)
  | [] => pure none
  | au :: units => do
    modify fun s => { s with units := units }
    match ← onDec (Decoder.begin au) with
    | none => nextJobFrom units
    | some b => offer b

def nextJob : Prog H264Decoder VideoError (Option Job) := do
  let s ← get
  nextJobFrom s.units

/-- The pending picture is taken, even if it cannot be completed. -/
def build (ctx : BuildContext) : Prog H264Decoder VideoError (List SurfaceRef) := do
  let s ← get
  modify fun s => { s with pending := none }
  match s.pending with
  | none => throw (.invalid "H.264 build without a parsed picture")
  | some b => do
    let job ← onDec (Decoder.complete b ctx.current)
    modify fun s => { s with reorder := job.maxNumReorder }
    pure (job.slotSurfaces.map fun surface => .session (surface.getD ctx.current))

def flush (s : H264Decoder) : H264Decoder :=
  { s with dec := s.dec.flush, units := [], pending := none }

/-! ## Specifications -/

section

variable {s : H264Decoder} {inv : H264Decoder → Prop}

lemma nextJob_spec (begun : Begun → H264Decoder → Prop) (hpop : ∀ s units, inv s → inv { s with units := units })
    (hbegin : ∀ au, Spec inv (onDec (Decoder.begin au)) (fun b s => inv s ∧ ∀ b' ∈ b, begun b' s)
      fun _ => inv)
    (hoffer : ∀ s b, inv s → begun b s → inv { s with pending := some b }) : Keeps inv nextJob := by
  have hfrom : ∀ units, Keeps inv (nextJobFrom units) := by
    intro units
    induction units with
    | nil => exact .ret
    | cons au units ih =>
      refine .write inv (fun s hs => hpop s units hs) (.seq (hbegin au) fun b => ?_)
      cases b with
      | none => exact ih.before fun _ h => h.1
      | some b =>
        refine .read fun s hs => .guarded hs.1 fun _ => ?_
        exact .last (hoffer s b hs.1 (hs.2 b rfl))
  exact Spec.read fun s hs => (hfrom s.units).enter hs

lemma build_spec {ctx : BuildContext} {ok : List SurfaceRef → H264Decoder → Prop}
    {err : VideoError → H264Decoder → Prop} (hnone : s.pending = none → ∀ e, err e { s with pending := none })
    (hsome : ∀ b, s.pending = some b → Spec (s.dec = ·) (Decoder.complete b ctx.current)
      (fun job d => ok (job.slotSurfaces.map fun surface => .session (surface.getD ctx.current))
        { s with dec := d, pending := none, reorder := job.maxNumReorder })
      fun e d => err e { s with dec := d, pending := none }) : Spec (s = ·) (build ctx) ok err := by
  refine .look ?_
  refine .write (fun t => t = { s with pending := none }) (fun _ h => h ▸ rfl) ?_
  cases hpending : s.pending with
  | none => exact .of_throw fun _ h => h ▸ hnone hpending _
  | some b =>
    have hcomplete : Spec (fun t => t = { s with pending := none }) (onDec (Decoder.complete b ctx.current))
        (fun job t => ok (job.slotSurfaces.map fun surface => .session (surface.getD ctx.current))
          { t with reorder := job.maxNumReorder }) err := by
      refine .of_focus ?_
      rintro _ rfl
      exact hsome b hpending
    exact .seq hcomplete fun job => .finish fun _ h => h

end

end H264Decoder

def codec : Codec AccessUnit H264Decoder where
  dpbSize := 16
  surfacesNeeded := fun _ data => .ok (if data.any Nal.isSlice then 1 else 0)
  pushUnit := fun data => modify fun s => { s with units := s.units ++ [data] }
  nextJob := H264Decoder.nextJob
  build := fun _ ctx => H264Decoder.build ctx
  finish := fun _ _ _ => pure ()
  referenced := fun s => s.dec.referencedSurfaces
  bumpReady := fun s pending => s.reorder < pending
  flush := H264Decoder.flush
  backlog := fun s => s.units.length

/-- A decoder as the session creates it. -/
def fresh (newH264 : Bool) (max : ℕ × ℕ) : H264Decoder where
  dec := { newH264 := newH264 }
  max := max

end NvidiaProlapse.H264
