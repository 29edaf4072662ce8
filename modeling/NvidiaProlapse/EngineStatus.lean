import NvidiaProlapse.VideoSession
import NvidiaProlapse.Runs

/-!
# Engine status of decoded pictures

The engine completes submissions in order and leaves a status word for each. A ring slot
remembers whether the status of the submission that last used it was read. An error is
kept until the next flush. A copy waits for the submission that is noted in its picture
and then reads what is unread. The codec, the order of display and what else can fail are
inputs.
-/
namespace NvidiaProlapse.Video.EngineStatus

open Runs List Function Session

/-- A picture with its surface and the submission it waits for. `since` is the last
submission before the flush that preceded the picture. -/
structure Picture where
  id : ℕ
  surface : ℕ
  decodedAt : ℕ
  since : ℕ
  deriving DecidableEq, Repr

/-- A status word that was read: of which submission, and whether it had completed. -/
structure Read where
  submission : ℕ
  completed : Bool
  word : ℕ × ℕ
  deriving DecidableEq, Repr

/-- `words` are the blocks in error and the error of each submission, and `stale` is what
is read before it has completed. -/
structure Engine where
  surfaces : ℕ
  words : ℕ → ℕ × ℕ
  stale : ℕ → ℕ × ℕ

/-- `queued` are the pictures that wait for display. `done` is the last submission that
completed, and `writers` the last one that decoded into each surface. With `reads` and
`flushedAt` these are histories. -/
structure Session where
  ring : ℕ → RingSlot := fun _ => {}
  nextRing : ℕ := 0
  pictures : List Picture := []
  queued : List ℕ := []
  nextId : ℕ := 1
  failed : Option String := none
  submitted : ℕ := 1
  pictureIndex : ℕ := 0
  done : ℕ := 1
  writers : ℕ → ℕ := fun _ => 0
  flushedAt : ℕ := 1
  reads : List Read := []

/-- A decode job: the surfaces that the codec refers to, the submission that has completed
when its slot is claimed, and the errors of the wait, before and after its submission. -/
structure DecodeJob where
  shown : Bool
  referenced : List ℕ := []
  completed : VResult ℕ := .ok 0
  wait : VResult Unit := .ok ()
  build : VResult Unit := .ok ()
  finish : VResult Unit := .ok ()

inductive Job
  | decode (job : DecodeJob)
  | showExisting (surface : ℕ)
  | error (e : VideoError)

abbrev Outcome := VResult Unit × Session

namespace Session

/-- Submissions up to `n` complete. -/
def progress (n : ℕ) (s : Session) : Session := { s with done := max s.done (min n s.submitted) }

variable (engine : Engine)

/-- The status word in the descriptor of a slot. -/
def readWord (s : Session) (slot : RingSlot) : Read :=
  ⟨slot.busyUntil, slot.busyUntil ≤ s.done,
    if slot.busyUntil ≤ s.done then engine.words slot.busyUntil else engine.stale slot.busyUntil⟩

def checkStatus (k : ℕ) (s : Session) : Outcome :=
  if (s.ring k).unchecked then
    let read := s.readWord engine (s.ring k)
    let t := { s with
      ring := Function.update s.ring k { s.ring k with unchecked := false }
      reads := read :: s.reads }
    match engineStatusError read.word.1 read.word.2 (s.ring k).picture with
    | some message => (.error (.bitstream message), { t with failed := some message })
    | none => (.ok (), t)
  else (.ok (), s)

def checkCompleted : List ℕ → Session → Outcome
  | [], s => (.ok (), s)
  | k :: ks, s =>
    if (s.ring k).unchecked ∧ (s.ring k).busyUntil ≤ s.done then
      match checkStatus engine k s with
      | (.ok (), s) => checkCompleted ks s
      | failure => failure
    else checkCompleted ks s

def pollStatus (completed : VResult ℕ) (s : Session) : Outcome :=
  match s.failed, completed with
  | some message, _ => (.error (.bitstream message), s)
  | none, .error e => (.error e, s)
  | none, .ok n => checkCompleted engine (List.range ringSlots) (s.progress n)

def emit (surface decodedAt : ℕ) (s : Session) : Session := { s with
  nextId := s.nextId + 1
  pictures := ⟨s.nextId, surface, decodedAt, s.flushedAt⟩ :: s.pictures
  queued := s.queued ++ [s.nextId] }

def submit (k surface : ℕ) (s : Session) : Session := { s with
  submitted := s.submitted + 1
  ring := Function.update s.ring k { s.ring k with
    busyUntil := s.submitted + 1
    unchecked := true
    picture := s.pictureIndex }
  pictureIndex := (s.pictureIndex + 1) % 2 ^ 32
  writers := Function.update s.writers surface (s.submitted + 1) }

/-- From the claimed slot on. -/
def decodeInto (job : DecodeJob) (k surface : ℕ) (s : Session) : Outcome :=
  match job.build, job.finish with
  | .error e, _ => (.error e, s)
  | .ok (), .error e => (.error e, s.submit k surface)
  | .ok (), .ok () =>
    let s := s.submit k surface
    (.ok (), if job.shown then s.emit surface s.submitted else s)

/-- A slot is used again once the submission in it is done and its status was read. -/
def claimSlot (job : DecodeJob) (s : Session) : Outcome :=
  let k := s.nextRing
  let s := { s with nextRing := (k + 1) % ringSlots }
  match job.completed, job.wait with
  | .error e, _ => (.error e, s)
  | .ok n, waited =>
    let s := s.progress n
    if s.done < (s.ring k).busyUntil then
      match waited with
      | .error e => (.error e, s)
      | .ok () => checkStatus engine k (s.progress (s.ring k).busyUntil)
    else checkStatus engine k s

def decodeJob (job : DecodeJob) (s : Session) : Outcome :=
  match (List.range engine.surfaces).find? fun i => i ∉ job.referenced ∧ ∀ p ∈ s.pictures, p.surface ≠ i with
  | none => (.error (.invalid "no free DPB surface inside an admitted unit"), s)
  | some surface =>
    match s.claimSlot engine job with
    | (.ok (), t) => t.decodeInto job s.nextRing surface
    | failure => failure

def showExisting (surface : ℕ) (s : Session) : Session :=
  s.emit surface (((s.pictures.filter (·.surface = surface)).map Picture.decodedAt).max?.getD s.submitted)

def runJobs : List Job → Session → Outcome
  | [], s => (.ok (), s)
  | .error e :: _, s => (.error e, s)
  | .showExisting surface :: jobs, s =>
    -- A codec refers to nothing that was decoded before its flush.
    if s.flushedAt < s.writers surface then runJobs jobs (s.showExisting surface)
    else (.error (.bitstream "show_existing_frame of an empty slot"), s)
  | .decode job :: jobs, s =>
    match s.decodeJob engine job with
    | (.ok (), s) => runJobs jobs s
    | failure => failure

def decode (completed : VResult ℕ) (jobs : List Job) (s : Session) : Outcome :=
  match s.pollStatus engine completed with
  | (.ok (), s) => s.runJobs engine jobs
  | failure => failure

def release (id : ℕ) (s : Session) : Session :=
  { s with queued := s.queued.filter (· ≠ id), pictures := s.pictures.filter (·.id ≠ id) }

def flush (s : Session) : Session := { s with
  failed := none
  pictures := s.pictures.filter (·.id ∉ s.queued)
  queued := []
  flushedAt := s.submitted }

/-- The status check of `copy_out`. -/
def copyOut (id : ℕ) (waited : VResult Unit) (completed : VResult ℕ) (s : Session) : Outcome :=
  match s.pictures.find? (·.id = id) with
  | none => (.error (Video.Session.unknownPicture id), s)
  | some p =>
    if ∃ k ∈ List.range ringSlots, (s.ring k).unchecked ∧ (s.ring k).busyUntil = p.decodedAt then
      match waited with
      | .error e => (.error e, s)
      | .ok () => (s.progress p.decodedAt).pollStatus engine completed
    else s.pollStatus engine completed

end Session

/-! ## Runs -/

/-- `nextPicture` takes a picture that waits for display. -/
inductive Call
  | decode (completed : VResult ℕ) (jobs : List Job)
  | nextPicture (id : ℕ)
  | copyOut (id : ℕ) (waited : VResult Unit) (completed : VResult ℕ)
  | release (id : ℕ)
  | flush

namespace Session

def step (engine : Engine) (s : Session) : Call → Option Session
  | .decode completed jobs => some (s.decode engine completed jobs).2
  | .nextPicture id => if id ∈ s.queued then some { s with queued := s.queued.filter (· ≠ id) } else none
  | .copyOut id waited completed => some (s.copyOut engine id waited completed).2
  | .release id => some (s.release id)
  | .flush => some s.flush

/-- A flush finds no error, or no picture that the caller took and has not released. -/
def Meets (s : Session) : Call → Prop
  | .flush => s.failed = none ∨ ∀ p ∈ s.pictures, p.id ∈ s.queued
  | _ => True

/-- Each submission is in a slot that is still to be read, or was read when it had completed. An
error that was read is kept, for the pictures after the flush before it. -/
structure Inv (s : Session) : Prop where
  next_lt : s.nextRing < ringSlots
  done_le : s.done ≤ s.submitted
  flushed : 1 ≤ s.flushedAt ∧ s.flushedAt ≤ s.submitted
  writers_le : ∀ surface, s.writers surface ≤ s.submitted
  slots : ∀ k, (s.ring k).unchecked = true → (s.ring k).busyUntil ≤ s.submitted
  tracked : ∀ v, 1 < v → v ≤ s.submitted →
    (∃ k < ringSlots, (s.ring k).unchecked = true ∧ (s.ring k).busyUntil = v) ∨
      ∃ r ∈ s.reads, r.submission = v
  reads : ∀ r ∈ s.reads, r.completed = true ∧ r.submission ≤ s.done
  sticky : ∀ r ∈ s.reads, r.word.2 ≠ 0 → s.flushedAt < r.submission → s.failed ≠ none
  waits : ∀ p ∈ s.pictures, 1 ≤ p.since ∧ p.since < s.writers p.surface ∧
    s.writers p.surface ≤ p.decodedAt ∧ p.decodedAt ≤ s.submitted
  kept : ∀ p ∈ s.pictures, ∀ r ∈ s.reads, r.word.2 ≠ 0 → p.since < r.submission → s.failed ≠ none

variable {engine : Engine} {s t : Session} {k surface : ℕ} {r : VResult Unit} {completed : VResult ℕ}

lemma start_inv : Inv {} := by
  constructor <;> grind [ringSlots]

lemma Inv.progress (h : s.Inv) (n : ℕ) : (s.progress n).Inv :=
  { h with
    done_le := max_le h.done_le (min_le_right _ _)
    reads := fun r hr => ⟨(h.reads r hr).1, (h.reads r hr).2.trans (le_max_left _ _)⟩ }

/-- The status of a completed submission is read, and an error is kept. -/
lemma Inv.read {word : ℕ × ℕ} {failed : Option String} (h : s.Inv)
    (hdone : (s.ring k).busyUntil ≤ s.done) (herror : word.2 ≠ 0 → failed ≠ none)
    (hkeep : s.failed ≠ none → failed ≠ none) : Inv { s with
      ring := Function.update s.ring k { s.ring k with unchecked := false }
      reads := ⟨(s.ring k).busyUntil, true, word⟩ :: s.reads
      failed := failed } := by
  refine { h with slots := ?_, tracked := ?_, reads := ?_, sticky := ?_, kept := ?_ }
  · intro j
    have hslots := h.slots j
    grind [update]
  · intro v hv hle
    obtain ⟨j, hj, hunchecked, rfl⟩ | ⟨r, hr, rfl⟩ := h.tracked v hv hle
    · by_cases hjk : j = k
      · exact .inr ⟨_, mem_cons_self, by simp [hjk]⟩
      · exact .inl ⟨j, hj, by simp [update_of_ne hjk, hunchecked]⟩
    · exact .inr ⟨r, mem_cons_of_mem _ hr, rfl⟩
  · simpa using ⟨hdone, h.reads⟩
  · grind [h.sticky]
  · grind [h.kept]

/-- Nothing but statuses were read. -/
structure Polled (s t : Session) : Prop where
  same : ∃ ring reads, t = { s with ring := ring, reads := reads }
  ring : ∀ k, t.ring k = s.ring k ∨ (t.ring k).unchecked = false

lemma Polled.refl (s : Session) : Polled s s := ⟨⟨_, _, rfl⟩, fun _ => .inl rfl⟩

lemma Polled.trans {u : Session} (h : Polled s t) (h' : Polled t u) : Polled s u := by
  obtain ⟨⟨_, _, rfl⟩, hring⟩ := h
  obtain ⟨⟨_, _, rfl⟩, hring'⟩ := h'
  exact ⟨⟨_, _, rfl⟩, fun k => by grind⟩

section

variable (h : s.Inv)

include h

lemma checkStatus_spec (hrun : s.checkStatus engine k = (r, t))
    (hdone : (s.ring k).unchecked = true → (s.ring k).busyUntil ≤ s.done) :
    t.Inv ∧ (r = .ok () → Polled s t ∧ (t.ring k).unchecked = false) := by
  unfold checkStatus at hrun
  split_ifs at hrun with hslot
  · have hle := hdone hslot
    simp only [readWord, hle, decide_true, if_true] at hrun
    split at hrun
    · cases hrun
      exact ⟨h.read hle (fun _ => Option.some_ne_none _) fun _ => Option.some_ne_none _, by simp⟩
    next hmessage =>
      cases hrun
      have hzero : (engine.words (s.ring k).busyUntil).2 = 0 := by
        by_contra hne
        simp [engineStatusError, hne] at hmessage
      refine ⟨h.read hle (fun hne => absurd hzero hne) id, fun _ => ⟨⟨⟨_, _, rfl⟩, fun j => ?_⟩, by simp⟩⟩
      by_cases hj : j = k <;> simp [hj]
  · cases hrun
    exact ⟨h, fun _ => ⟨.refl _, by simpa using hslot⟩⟩

lemma checkCompleted_spec {ks : List ℕ} (hrun : s.checkCompleted engine ks = (r, t)) :
    t.Inv ∧ (r = .ok () → Polled s t ∧
      ∀ k ∈ ks, (t.ring k).unchecked = true → t.done < (t.ring k).busyUntil) := by
  induction ks generalizing s with
  | nil =>
    cases hrun
    exact ⟨h, fun _ => ⟨.refl _, by simp⟩⟩
  | cons k ks ih =>
    unfold checkCompleted at hrun
    split_ifs at hrun with hslot
    · rcases hcheck : s.checkStatus engine k with ⟨e | _, u⟩
      all_goals
        rw [hcheck] at hrun
        obtain ⟨hu, hpolled⟩ := checkStatus_spec h hcheck fun _ => hslot.2
      · cases hrun
        exact ⟨hu, by simp⟩
      obtain ⟨ht, hrest⟩ := ih hu hrun
      refine ⟨ht, fun hr => ⟨(hpolled rfl).1.trans (hrest hr).1, ?_⟩⟩
      have hk := (hrest hr).1.ring k
      grind
    · obtain ⟨ht, hrest⟩ := ih h hrun
      refine ⟨ht, fun hr => ⟨(hrest hr).1, ?_⟩⟩
      obtain ⟨⟨⟨_, _, rfl⟩, hring⟩, hks⟩ := hrest hr
      grind

/-- When the check passes, there was no error, and every completed submission has been read. -/
lemma pollStatus_spec (hrun : s.pollStatus engine completed = (r, t)) :
    t.Inv ∧ (r = .ok () → t.failed = none ∧ s.done ≤ t.done ∧ t.pictures = s.pictures ∧
      ∀ k < ringSlots, (t.ring k).unchecked = true → t.done < (t.ring k).busyUntil) := by
  unfold pollStatus at hrun
  split at hrun
  · cases hrun
    exact ⟨h, by simp⟩
  · cases hrun
    exact ⟨h, by simp⟩
  next n hfailed =>
    obtain ⟨ht, hok⟩ := checkCompleted_spec (h.progress n) hrun
    refine ⟨ht, fun hr => ?_⟩
    obtain ⟨⟨⟨_, _, rfl⟩, -⟩, hks⟩ := hok hr
    exact ⟨hfailed, le_max_left _ _, rfl, fun k hk => hks k (mem_range.mpr hk)⟩

/-! ## Decoding -/

lemma Inv.emit {decodedAt : ℕ} (hsince : s.flushedAt < s.writers surface)
    (hwriter : s.writers surface ≤ decodedAt) (hle : decodedAt ≤ s.submitted) :
    (s.emit surface decodedAt).Inv := by
  refine { h with waits := ?_, kept := ?_ }
  · simpa [Session.emit] using ⟨⟨h.flushed.1, hsince, hwriter, hle⟩, h.waits⟩
  · simpa [Session.emit] using ⟨h.sticky, h.kept⟩

/-- A picture of a surface waits for the submission that decoded into it. -/
lemma Inv.showExisting (hsince : s.flushedAt < s.writers surface) :
    (s.showExisting surface).Inv := by
  suffices hboth : _ ∧ _ from h.emit hsince hboth.1 hboth.2
  cases hmax : ((s.pictures.filter (·.surface = surface)).map Picture.decodedAt).max? with
  | none => simp [h.writers_le]
  | some n =>
    have hmem := max?_mem hmax
    simp only [mem_map, mem_filter, decide_eq_true_eq] at hmem
    obtain ⟨p, ⟨hp, rfl⟩, rfl⟩ := hmem
    exact (h.waits p hp).2.2

/-- No picture has the surface, and the slot has been read. -/
lemma Inv.submit (hk : k < ringSlots) (hslot : (s.ring k).unchecked = false)
    (hfree : ∀ p ∈ s.pictures, p.surface ≠ surface) : (s.submit k surface).Inv := by
  refine { h with
    done_le := h.done_le.trans (Nat.le_succ _)
    flushed := ⟨h.flushed.1, h.flushed.2.trans (Nat.le_succ _)⟩
    writers_le := ?_, slots := ?_, tracked := ?_, waits := ?_ }
  · intro other
    have hle := h.writers_le other
    simp only [Session.submit, update_apply]
    split_ifs <;> omega
  · intro j
    have hslots := h.slots j
    simp only [Session.submit, update_apply]
    split_ifs <;> grind
  · intro v hv hle
    by_cases hnew : v = s.submitted + 1
    · exact .inl ⟨k, hk, by simp [Session.submit, hnew]⟩
    refine (h.tracked v hv (by grind [submit])).imp_left ?_
    rintro ⟨j, hj, hunchecked, rfl⟩
    have hjk : j ≠ k := by grind
    exact ⟨j, hj, by simp [Session.submit, update_of_ne hjk, hunchecked]⟩
  · intro p hp
    have hwaits := h.waits p hp
    simp only [Session.submit, update_of_ne (hfree p hp)]
    omega

lemma Inv.decodeInto {job : DecodeJob} (hk : k < ringSlots) (hslot : (s.ring k).unchecked = false)
    (hfree : ∀ p ∈ s.pictures, p.surface ≠ surface) : (s.decodeInto job k surface).2.Inv := by
  have hsubmit := h.submit hk hslot hfree
  unfold Session.decodeInto
  split
  · exact h
  · exact hsubmit
  split_ifs
  · have hwriter : (s.submit k surface).writers surface = s.submitted + 1 := update_self ..
    refine hsubmit.emit ?_ (hsubmit.writers_le surface) le_rfl
    rw [hwriter]
    exact Nat.lt_succ_of_le h.flushed.2
  · exact hsubmit

lemma claimSlot_spec {job : DecodeJob} (hrun : s.claimSlot engine job = (r, t)) :
    t.Inv ∧ (r = .ok () → (t.ring s.nextRing).unchecked = false ∧ t.pictures = s.pictures) := by
  have hnext : Inv { s with nextRing := (s.nextRing + 1) % ringSlots } :=
    { h with next_lt := Nat.mod_lt _ (by decide) }
  have hchecked : ∀ {u v : Session}, u.Inv → u.pictures = s.pictures →
      ((u.ring s.nextRing).unchecked = true → (u.ring s.nextRing).busyUntil ≤ u.done) →
      u.checkStatus engine s.nextRing = (r, v) →
      v.Inv ∧ (r = .ok () → (v.ring s.nextRing).unchecked = false ∧ v.pictures = s.pictures) := by
    intro u v hu hsame hdone hcheck
    obtain ⟨hv, hok⟩ := checkStatus_spec hu hcheck hdone
    refine ⟨hv, fun hr => ?_⟩
    obtain ⟨⟨⟨_, _, rfl⟩, -⟩, hslot⟩ := hok hr
    exact ⟨hslot, hsame⟩
  unfold claimSlot at hrun
  dsimp only at hrun
  split at hrun
  · cases hrun
    exact ⟨hnext, by simp⟩
  have hprogress := hnext.progress
  split_ifs at hrun with hbusy
  · split at hrun
    · cases hrun
      exact ⟨hprogress _, by simp⟩
    · refine hchecked ((hprogress _).progress _) rfl (fun hslot => ?_) hrun
      exact le_max_of_le_right (le_min le_rfl ((hprogress _).slots s.nextRing hslot))
  · exact hchecked (hprogress _) rfl (fun _ => Nat.le_of_not_lt hbusy) hrun

lemma Inv.decodeJob (job : DecodeJob) : (s.decodeJob engine job).2.Inv := by
  unfold Session.decodeJob
  split
  · exact h
  next surface hfree =>
    rcases hclaim : s.claimSlot engine job with ⟨e | _, t⟩
    all_goals obtain ⟨ht, hok⟩ := claimSlot_spec h hclaim
    · exact ht
    obtain ⟨hslot, hpictures⟩ := hok rfl
    refine ht.decodeInto h.next_lt hslot ?_
    have hsome := find?_some hfree
    simp only [decide_eq_true_eq] at hsome
    rw [hpictures]
    exact hsome.2

lemma Inv.runJobs {jobs : List Job} : (s.runJobs engine jobs).2.Inv := by
  induction jobs generalizing s with
  | nil => exact h
  | cons job jobs ih =>
    cases job with
    | error e => exact h
    | showExisting surface =>
      unfold runJobs
      split_ifs with hsince
      · exact ih (h.showExisting hsince)
      · exact h
    | decode job =>
      have hjob := @Inv.decodeJob engine s h job
      unfold runJobs
      generalize s.decodeJob engine job = out at hjob ⊢
      obtain ⟨e | _, t⟩ := out
      · exact hjob
      · exact ih hjob

/-! ## Copies -/

/-- The submission that a picture waits for has completed once the copy has waited for it, or
its status was read. -/
lemma copyOut_spec {id : ℕ} {waited : VResult Unit}
    (hrun : s.copyOut engine id waited completed = (r, t)) :
    t.Inv ∧ (r = .ok () → ∃ p ∈ s.pictures, p.id = id ∧ p ∈ t.pictures ∧ t.failed = none ∧
      p.decodedAt ≤ t.done ∧
      ∀ k < ringSlots, (t.ring k).unchecked = true → t.done < (t.ring k).busyUntil) := by
  unfold copyOut at hrun
  split at hrun
  · cases hrun
    exact ⟨h, by simp⟩
  next p hfind =>
    have hp := mem_of_find?_eq_some hfind
    have hid : p.id = id := by simpa using List.find?_some hfind
    obtain ⟨hone, hsince, hwriter, hle⟩ := h.waits p hp
    split_ifs at hrun with hslot
    · split at hrun
      · cases hrun
        exact ⟨h, by simp⟩
      obtain ⟨ht, hok⟩ := pollStatus_spec (h.progress _) hrun
      refine ⟨ht, fun hr => ?_⟩
      obtain ⟨hfailed, hdone, hsame, hslots⟩ := hok hr
      have hwaited : p.decodedAt ≤ (s.progress p.decodedAt).done := le_max_of_le_right (le_min le_rfl hle)
      exact ⟨p, hp, hid, hsame ▸ hp, hfailed, hwaited.trans hdone, hslots⟩
    · obtain ⟨ht, hok⟩ := pollStatus_spec h hrun
      refine ⟨ht, fun hr => ?_⟩
      obtain ⟨hfailed, hdone, hsame, hslots⟩ := hok hr
      refine ⟨p, hp, hid, hsame ▸ hp, hfailed, ?_, hslots⟩
      obtain ⟨k, hk, hunread⟩ | ⟨r, hr, hr'⟩ := h.tracked p.decodedAt (by omega) hle
      · exact absurd ⟨k, mem_range.mpr hk, hunread⟩ hslot
      · exact hr' ▸ ((h.reads r hr).2.trans hdone)

lemma step_inv {call : Call} (hmeets : s.Meets call) (hstep : s.step engine call = some t) :
    t.Inv := by
  cases call with
  | decode completed jobs =>
    cases hstep
    unfold decode
    rcases hpoll : s.pollStatus engine completed with ⟨e | _, u⟩
    all_goals obtain ⟨hu, -⟩ := pollStatus_spec h hpoll
    · exact hu
    · exact hu.runJobs
  | nextPicture id =>
    simp only [step] at hstep
    split_ifs at hstep
    cases hstep
    exact { h with }
  | copyOut id waited completed =>
    cases hstep
    exact (copyOut_spec h rfl).1
  | release id =>
    cases hstep
    exact { h with
      waits := fun p hp => h.waits p (mem_of_mem_filter hp)
      kept := fun p hp => h.kept p (mem_of_mem_filter hp) }
  | flush =>
    cases hstep
    refine { h with
      flushed := ⟨h.flushed.1.trans h.flushed.2, le_rfl⟩, sticky := ?_
      waits := fun p hp => h.waits p (mem_of_mem_filter hp), kept := ?_ }
    · intro r hr _ hlt
      exact absurd ((h.reads r hr).2.trans h.done_le) (Nat.not_le_of_lt hlt)
    intro p hp r hr hword hlt
    obtain ⟨hp, hqueued⟩ := mem_filter.mp hp
    rcases hmeets with hfailed | hall
    · exact absurd hfailed (h.kept p hp r hr hword hlt)
    · simp [hall p hp] at hqueued

end

/-- The submission has completed, and its status was read then and tells of no error. -/
def Sound (s : Session) (v : ℕ) : Prop :=
  v ≤ s.done ∧ ∃ r ∈ s.reads, r.submission = v ∧ r.completed = true ∧ r.word.2 = 0

/-- In runs that flush after an error only when the caller holds no picture: when the check of a
copy passes, the submission that decoded the picture has completed without an error, and so have
those before it since the flush that preceded the picture. -/
theorem no_broken_picture_copied (engine : Engine) (calls : List Call) (s t : Session) (id : ℕ)
    (waited : VResult Unit) (completed : VResult ℕ)
    (hmeets : Along (step engine) Meets {} calls) (hrun : run (step engine) {} calls = some s)
    (hcopy : s.copyOut engine id waited completed = (.ok (), t)) :
    ∃ p ∈ s.pictures, p.id = id ∧ p.since < s.writers p.surface ∧
      ∀ v, p.since < v → v ≤ s.writers p.surface → t.Sound v := by
  have hinv : s.Inv := run_invariant_along (fun _ _ _ h hm hstep => step_inv h hm hstep) start_inv hmeets hrun
  obtain ⟨ht, hok⟩ := copyOut_spec hinv hcopy
  obtain ⟨p, hp, hid, hpt, hfailed, hdone, hslots⟩ := hok rfl
  obtain ⟨hone, hsince, hwriter, -⟩ := hinv.waits p hp
  refine ⟨p, hp, hid, hsince, fun v hv hvle => ?_⟩
  have hle : v ≤ t.done := (hvle.trans hwriter).trans hdone
  obtain ⟨k, hk, hunchecked, rfl⟩ | ⟨r, hr, rfl⟩ := ht.tracked v (by omega) (hle.trans ht.done_le)
  · exact absurd hle (Nat.not_le_of_lt (hslots k hk hunchecked))
  · refine ⟨hle, r, hr, rfl, (ht.reads r hr).1, ?_⟩
    by_contra hword
    exact ht.kept p hpt r hr hword hv hfailed

/-- An engine that reports errors for the submissions from `first` on. -/
def faultyFrom (first : ℕ) : Engine where
  surfaces := 4
  words := fun v => if first ≤ v then (1, 5) else (0, 0)
  stale := fun _ => (0, 0)

/-- A shown picture, which the caller takes, and a hidden one. -/
def twoPictures : List Call :=
  [.decode (.ok 1) [.decode { shown := true }], .nextPicture 1, .decode (.ok 1) [.decode { shown := false }]]

theorem no_broken_picture_copied_in_turn :
    ∃ s t, run (step (faultyFrom 3)) {} twoPictures = some s ∧
      s.copyOut (faultyFrom 3) 1 (.ok ()) (.ok 2) = (.ok (), t) ∧ ∃ p ∈ s.pictures, p.id = 1 ∧
        p.since < s.writers p.surface ∧ ∀ v, p.since < v → v ≤ s.writers p.surface → t.Sound v := by
  refine ⟨_, _, rfl, rfl, no_broken_picture_copied (faultyFrom 3) twoPictures _ _ 1 (.ok ()) (.ok 2) ?_ rfl rfl⟩
  simp [Along, twoPictures, Meets]

/-- The caller took a picture that is broken. The error is read and reported, the flush forgets
it, and the picture is copied. -/
theorem broken_picture_copied_after_flush :
    ∃ s t, run (step (faultyFrom 2)) {} [.decode (.ok 1) [.decode { shown := true }], .nextPicture 1,
        .decode (.ok 2) [], .flush] = some s ∧
      s.copyOut (faultyFrom 2) 1 (.ok ()) (.ok 2) = (.ok (), t) ∧
      ∃ p ∈ s.pictures, p.id = 1 ∧ ¬ t.Sound (s.writers p.surface) := by
  refine ⟨_, _, rfl, rfl, ⟨1, 0, 2, 1⟩, by decide, rfl, ?_⟩
  rintro ⟨-, r, hr, -, -, hword⟩
  revert r
  decide

end Session

end NvidiaProlapse.Video.EngineStatus
