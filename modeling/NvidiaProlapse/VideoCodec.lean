import NvidiaProlapse.Programs

/-!
# Codecs of a decode session

What a codec plug-in offers to the session: it takes units of the bitstream, hands out
jobs in decode order, and keeps the references. The state of the codec is `σ`, a unit of
its bitstream is a `υ`. Each job is first built for the surface the session picked and
then finished.
-/
namespace NvidiaProlapse.Video

open Programs

inductive VideoError where
  | invalid (message : String)
  | unsupported (message : String)
  | bitstream (message : String)
  | noMemory (message : String)
  | deviceLost (message : String)
  | again (message : String)
  | resize (width height : ℕ) (reason : String)
  deriving DecidableEq, Repr

abbrev VResult (α : Type) := Except VideoError α

def VideoError.isAgain : VideoError → Bool
  | .again _ => true
  | _ => false

/-- A picture larger than the session: only at a random access point can a larger session
take over. -/
def tooLarge (codec : String) (width height : ℕ) (max : ℕ × ℕ) (randomAccess : Bool) :
    VideoError :=
  let (maxWidth, maxHeight) := max
  let what := s!"{codec} picture {width}x{height} larger than the session max {maxWidth}x{maxHeight}"
  if randomAccess then
    .resize width height (what ++ ": re-create the session at the new size")
  else
    .unsupported (what ++ " on a picture that is not a random access point " ++
      "(references stay in this session)")

def nextMultipleOf (step n : ℕ) : ℕ := (n + step - 1) / step * step

/-- Subtraction of 32-bit unsigned integers. -/
def sub32 (a b : ℕ) : ℕ := (a + (2 ^ 32 - b)) % 2 ^ 32

structure PictureInfo where
  width : ℕ
  height : ℕ
  crop : ℕ × ℕ × ℕ × ℕ
  bitDepth : ℕ
  colorPrimaries : ℕ
  transfer : ℕ
  matrix : ℕ
  fullRange : Bool
  keyframe : Bool
  deriving DecidableEq, Repr, Inhabited

structure DecodeJob where
  info : PictureInfo
  /-- It goes to the display queue once it is decoded. -/
  shown : Bool
  /-- Its place in display order; without one it is output in decode order. -/
  displayKey : Option ℤ
  bitstream : List UInt8
  /-- The bytes of the descriptor that the codec wants back. -/
  readback : Option (ℕ × ℕ)
  deriving DecidableEq, Repr

inductive Job where
  | decode (job : DecodeJob)
  | showExisting (surface : ℕ) (info : PictureInfo)
  deriving DecidableEq, Repr

def Job.isDecode : Job → Bool
  | .decode _ => true
  | .showExisting _ _ => false

/-- The planes of one picture for the engine: a surface of the session, or one that the
codec allocated for itself. -/
inductive SurfaceRef where
  | session (surface : ℕ)
  | side (slot : ℕ)
  deriving DecidableEq, Repr

structure BuildContext where
  bitstreamLen : ℕ
  pictureIndex : ℕ
  current : ℕ

structure MasteringDisplay where
  primariesX : ℕ × ℕ × ℕ
  primariesY : ℕ × ℕ × ℕ
  whiteX : ℕ
  whiteY : ℕ
  maxLuminance : ℕ
  minLuminance : ℕ
  deriving DecidableEq, Repr

structure HdrStaticMetadata where
  mastering : Option MasteringDisplay := none
  contentLight : Option (ℕ × ℕ) := none
  deriving DecidableEq, Repr, Inhabited

/-- A new declaration replaces its own group only. -/
def HdrStaticMetadata.merge (hdr other : HdrStaticMetadata) : HdrStaticMetadata where
  mastering := other.mastering.or hdr.mastering
  contentLight := other.contentLight.or hdr.contentLight

/-- The codec plug-in. `build` returns the planes it programs, in the order of the offset
methods. `backlog` counts the input that is still queued. -/
structure Codec (υ σ : Type) where
  dpbSize : ℕ
  surfacesNeeded : σ → υ → VResult ℕ
  pushUnit : υ → Prog σ VideoError Unit
  nextJob : Prog σ VideoError (Option Job)
  build : DecodeJob → BuildContext → Prog σ VideoError (List SurfaceRef)
  finish : DecodeJob → ℕ → Option (List UInt8) → Prog σ VideoError Unit
  referenced : σ → List ℕ
  bumpReady : σ → ℕ → Bool := fun _ _ => true
  flush : σ → σ
  maxReferenced : σ → Option ℕ := fun _ => none
  statusOffset : Option ℕ := none
  backlog : σ → ℕ

/-- The calls on a codec. -/
inductive CodecCall (υ : Type) where
  | pushUnit (data : υ)
  | nextJob
  | build (job : DecodeJob) (ctx : BuildContext)
  | finish (job : DecodeJob) (current : ℕ) (readback : Option (List UInt8))
  | flush

/-- The state after a call, successful or not. -/
def Codec.perform {υ σ : Type} (codec : Codec υ σ) (s : σ) : CodecCall υ → σ
  | .pushUnit data => (exec (codec.pushUnit data) s).2
  | .nextJob => (exec codec.nextJob s).2
  | .build job ctx => (exec (codec.build job ctx) s).2
  | .finish job current readback => (exec (codec.finish job current readback) s).2
  | .flush => codec.flush s

end NvidiaProlapse.Video
