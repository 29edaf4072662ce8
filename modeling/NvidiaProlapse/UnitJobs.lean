import NvidiaProlapse.SessionSteps

/-!
# The jobs of a unit

After a unit was handed to the codec, the session asks for jobs one by one, builds and
finishes each decode job, and stops when the codec has none left or something fails.
-/
namespace NvidiaProlapse.Video

open Programs

variable {υ σ : Type}

/-- The job a call of `nextJob` handed out, if any. -/
def issued : VResult (Option Job) → List Job
  | .ok (some job) => [job]
  | _ => []

/-- The codec while the session works on a unit, and the jobs handed out so far. -/
inductive Working (codec : Codec υ σ) (s : σ) : List Job → σ → Prop
  | pushed : Working codec s [] s
  | next {jobs : List Job} {t u : σ} {r : VResult (Option Job)} (h : Working codec s jobs t)
      (hnext : exec codec.nextJob t = (r, u)) : Working codec s (jobs ++ issued r) u
  | decoding {jobs : List Job} {t u : σ} {job : DecodeJob} {current : ℕ} (h : Working codec s jobs t)
      (hprogress : Progress codec job current t u) : Working codec s jobs u

/-- A unit processed to its end without an error. -/
inductive Processed (codec : Codec υ σ) : σ → List Job → σ → Prop
  | done {s t : σ} (hnext : exec codec.nextJob s = (.ok none, t)) : Processed codec s [] t
  | showExisting {s t u : σ} {surface : ℕ} {info : PictureInfo} {jobs : List Job}
      (hnext : exec codec.nextJob s = (.ok (some (.showExisting surface info)), t))
      (rest : Processed codec t jobs u) : Processed codec s (.showExisting surface info :: jobs) u
  | decode {s t c c' u : σ} {job : DecodeJob} {jobs : List Job} {len index current : ℕ}
      {planes : List SurfaceRef} {readback : Option (List UInt8)}
      (hnext : exec codec.nextJob s = (.ok (some (.decode job)), t))
      (hbuild : exec (codec.build job ⟨len, index, current⟩) t = (.ok planes, c))
      (hfinish : exec (codec.finish job current readback) c = (.ok (), c'))
      (rest : Processed codec c' jobs u) : Processed codec s (.decode job :: jobs) u

variable {codec : Codec υ σ} {s t : σ} {jobs : List Job}

/-- What asking for a job, building and finishing keep, a whole unit keeps. -/
lemma Working.invariant {inv : List Job → σ → Prop} (h : Working codec s jobs t) (hs : inv [] s)
    (hnext : ∀ jobs t r u, inv jobs t → exec codec.nextJob t = (r, u) → inv (jobs ++ issued r) u)
    (hbuild : ∀ jobs job ctx t r u, inv jobs t → exec (codec.build job ctx) t = (r, u) → inv jobs u)
    (hfinish : ∀ jobs job current readback t r u, inv jobs t →
      exec (codec.finish job current readback) t = (r, u) → inv jobs u) : inv jobs t := by
  induction h with
  | pushed => exact hs
  | next _ hrun ih => exact hnext _ _ _ _ ih hrun
  | decoding _ hprogress ih =>
    cases hprogress with
    | started => exact ih
    | built hrun => exact hbuild _ _ _ _ _ _ ih hrun
    | finished hrun hrun' => exact hfinish _ _ _ _ _ _ _ (hbuild _ _ _ _ _ _ ih hrun) hrun'

end NvidiaProlapse.Video
