import NvidiaProlapse.Runs
import NvidiaProlapse.VideoSession

/-!
# What a call does to a session

Requests to the engine leave the codec, the pictures and the display untouched. A decode
call is a sequence of steps: a unit is handed to the codec, jobs are taken from it, each
decode job goes into the first free surface as far as the codec and the engine let it,
and shown pictures are emitted. Every invariant of a session is derived from the steps.
-/
namespace NvidiaProlapse.Video

open Programs

variable {υ σ α : Type}

/-- Only the engine's side of the session changed. -/
structure Quiet (s t : Session σ) : Prop where
  codec : t.codec = s.codec
  surfaces : t.surfaces = s.surfaces
  pictures : t.pictures = s.pictures
  display : t.display = s.display
  reorder : t.reorder = s.reorder
  nextId : t.nextId = s.nextId
  attempts : t.attempts = s.attempts

variable {s t u : Session σ} {codec : Codec υ σ} {device : Device υ}

lemma Quiet.refl (s : Session σ) : Quiet s s := ⟨rfl, rfl, rfl, rfl, rfl, rfl, rfl⟩

lemma Quiet.trans (h : Quiet s t) (h' : Quiet t u) : Quiet s u :=
  ⟨h'.codec.trans h.codec, h'.surfaces.trans h.surfaces, h'.pictures.trans h.pictures,
    h'.display.trans h.display, h'.reorder.trans h.reorder, h'.nextId.trans h.nextId,
    h'.attempts.trans h.attempts⟩

lemma Quiet.setSlot (h : Quiet s t) (k : ℕ) (change : RingSlot → RingSlot) :
    Quiet s (t.setSlot k change) :=
  h.trans ⟨rfl, rfl, rfl, rfl, rfl, rfl, rfl⟩

lemma Quiet.withCodec (h : Quiet s t) (c : σ) : Quiet { s with codec := c } { t with codec := c } :=
  { h with codec := rfl }

lemma Quiet.emit (h : Quiet s t) (p : Picture) (key : Option ℤ) :
    Quiet (s.emit codec p key) (t.emit codec p key) := by
  cases key with
  | none =>
    refine ⟨h.codec, h.surfaces, ?_, ?_, h.reorder, ?_, h.attempts⟩
    · show t.pictures.insert t.nextId p = s.pictures.insert s.nextId p
      rw [h.pictures, h.nextId]
    · show t.display ++ [t.nextId] = s.display ++ [s.nextId]
      rw [h.display, h.nextId]
    · show t.nextId + 1 = s.nextId + 1
      rw [h.nextId]
  | some key =>
    have hbump : Session.bump (codec.bumpReady t.codec)
          ((t.reorder ++ [(key, t.nextId)]).insertionSort Session.KeyLe) =
        Session.bump (codec.bumpReady s.codec)
          ((s.reorder ++ [(key, s.nextId)]).insertionSort Session.KeyLe) := by
      rw [h.codec, h.reorder, h.nextId]
    refine ⟨h.codec, h.surfaces, ?_, ?_, congrArg Prod.snd hbump, ?_, h.attempts⟩
    · show t.pictures.insert t.nextId p = s.pictures.insert s.nextId p
      rw [h.pictures, h.nextId]
    · show t.display ++ _ = s.display ++ _
      rw [h.display]
      exact congrArg (fun b => s.display ++ Prod.fst b) hbump
    · show t.nextId + 1 = s.nextId + 1
      rw [h.nextId]

/-! ## Requests -/

lemma ask_quiet (answer : ℕ → VResult α) : Keeps (Quiet s) (ask answer) := by
  refine .read fun t ht => ?_
  refine .write (Quiet s) ?_ (.of_outcome (fun _ _ h _ => h) fun _ _ h _ => h)
  rintro _ rfl
  exact ht.trans ⟨rfl, rfl, rfl, rfl, rfl, rfl, rfl⟩

lemma checkStatus_quiet (k : ℕ) : Keeps (Quiet s) (checkStatus codec device k) := by
  refine .read fun t ht => ?_
  refine .either (.unchanged ht) ?_
  refine .write (Quiet s) (fun _ h => h ▸ ht.setSlot k _) ?_
  refine .seq (ask_quiet device.status) fun answer => ?_
  dsimp only
  split
  · exact .ret
  · refine .write (Quiet s) (fun u hu => ?_) Spec.raise
    exact hu.trans ⟨rfl, rfl, rfl, rfl, rfl, rfl, rfl⟩

lemma pollStatus_quiet : Keeps (Quiet s) (pollStatus codec device) := by
  refine .read fun t ht => ?_
  cases t.failed with
  | some message => exact .refused ht
  | none =>
    refine .either (.unchanged ht) ?_
    refine .seq ((ask_quiet device.completed).enter ht) fun done => ?_
    refine Keeps.of_each (fun k => ?_) _
    exact Spec.read fun u hu => (Keeps.onlyIf (checkStatus_quiet k)).enter hu

lemma claimSlot_quiet : Keeps (Quiet s) (claimSlot codec device) := by
  refine Spec.read fun t ht => ?_
  refine .write (Quiet s) ?_ ?_
  · rintro _ rfl
    exact ht.trans ⟨rfl, rfl, rfl, rfl, rfl, rfl, rfl⟩
  refine Spec.seq (ask_quiet device.completed) fun done => ?_
  refine Spec.next (Keeps.onlyIf (ask_quiet device.waited)) ?_
  exact .next (checkStatus_quiet _) Spec.ret

lemma stageBits_quiet (k len : ℕ) : Keeps (Quiet s) (stageBits device k len) := by
  refine .read fun t ht => ?_
  refine .either ?_ (.unchanged ht)
  refine .write (Quiet s) (fun _ h => h ▸ ht.setSlot k _) ?_
  refine .next (ask_quiet device.vram) ?_
  exact .of_modify fun u hu => hu.setSlot k _

lemma submitPicture_quiet (k : ℕ) (planes : List SurfaceRef) :
    Keeps (Quiet s) (submitPicture codec device k planes) := by
  refine .next (ask_quiet device.written) ?_
  refine .next (ask_quiet _) ?_
  refine .read fun t ht => ?_
  refine .last ?_
  exact ht.trans ⟨rfl, rfl, rfl, rfl, rfl, rfl, rfl⟩

lemma readBack_quiet (range : Option (ℕ × ℕ)) : Keeps (Quiet s) (readBack device range) := by
  cases range with
  | none => exact .ret
  | some range =>
    refine .next (ask_quiet device.waited) ?_
    exact .seq (ask_quiet _) fun _ => .ret

/-! ## Decode jobs -/

/-- The codec after a decode into the surface, as far as it got. -/
inductive Progress (codec : Codec υ σ) (job : DecodeJob) (current : ℕ) (c : σ) : σ → Prop
  | started : Progress codec job current c c
  | built {len index : ℕ} {result : VResult (List SurfaceRef)} {c' : σ}
      (hbuild : exec (codec.build job ⟨len, index, current⟩) c = (result, c')) :
      Progress codec job current c c'
  | finished {len index : ℕ} {planes : List SurfaceRef} {readback : Option (List UInt8)}
      {result : VResult Unit} {c' c'' : σ}
      (hbuild : exec (codec.build job ⟨len, index, current⟩) c = (.ok planes, c'))
      (hfinish : exec (codec.finish job current readback) c' = (result, c'')) :
      Progress codec job current c c''

/-- The session while a decode job has the surface `current` and the codec is at `c`. -/
def Session.trying (s : Session σ) (current : ℕ) (c : σ) : Session σ :=
  { s with codec := c, attempts := s.attempts ++ [⟨current, s.codec, s.pictures⟩] }

/-- A decode job with the surface `current`: it stops somewhere or finishes hidden, or it
finishes and is shown. -/
inductive Decoding (codec : Codec υ σ) (job : DecodeJob) (current : ℕ) (s : Session σ) :
    Session σ → Prop
  | stopped {c : σ} (h : Progress codec job current s.codec c) :
      Decoding codec job current s (s.trying current c)
  | shown {c : σ} (h : Progress codec job current s.codec c) (p : Picture)
      (hp : p.surface = current) (hshown : job.shown) :
      Decoding codec job current s ((s.trying current c).emit codec p job.displayKey)

/-- The state up to the engine's side. -/
def Upto (good : Session σ → Prop) (t : Session σ) : Prop := ∃ u, good u ∧ Quiet u t

lemma decodeInto_decodes (current : ℕ) (job : DecodeJob) (timestamp : ℕ) (hdr : HdrStaticMetadata) :
    Ends s (decodeInto codec device current job timestamp hdr) (Upto (Decoding codec job current s)) := by
  have hstop : ∀ {c t}, Progress codec job current s.codec c → Quiet (s.trying current c) t →
      Upto (Decoding codec job current s) t := fun hc ht => ⟨_, .stopped hc, ht⟩
  refine .write (Quiet (s.trying current s.codec)) ?_ ?_
  · rintro _ rfl
    exact .refl _
  refine .keeping (ask_quiet device.copied) (fun _ _ h => hstop .started h) fun _ => ?_
  refine .keeping claimSlot_quiet (fun _ _ h => hstop .started h) fun k => ?_
  refine .keeping (stageBits_quiet k _) (fun _ _ h => hstop .started h) fun _ => ?_
  refine .read fun t ht => ?_
  have hbuild : Spec (t = ·)
      (onCodec (codec.build job ⟨job.bitstream.length, t.pictureIndex, current⟩))
      (fun planes u => ∃ c, exec (codec.build job ⟨job.bitstream.length, t.pictureIndex, current⟩)
        s.codec = (.ok planes, c) ∧ Quiet (s.trying current c) u)
      fun _ => Upto (Decoding codec job current s) := by
    refine .of_focus ?_
    rintro _ rfl _ rfl
    have hcodec : t.codec = s.codec := ht.codec
    rw [hcodec]
    refine ⟨fun planes c hrun => ⟨c, hrun, ht.withCodec c⟩, fun e c hrun => ?_⟩
    exact hstop (.built hrun) (ht.withCodec c)
  refine .seq hbuild fun planes => .of_states ?_
  rintro v ⟨c, hc, hv⟩
  refine .seq (((submitPicture_quiet k planes).enter hv).fallback fun _ _ h => hstop
    (.built hc) h) fun value => ?_
  refine .keeping (readBack_quiet job.readback) (fun _ _ h => hstop (.built hc) h) fun readback => ?_
  have hfinish : Spec (Quiet (s.trying current c)) (onCodec (codec.finish job current readback))
      (fun _ u => ∃ c', Progress codec job current s.codec c' ∧ Quiet (s.trying current c') u)
      fun _ => Upto (Decoding codec job current s) := by
    refine .of_focus ?_
    rintro u hu _ rfl
    have hcodec : u.codec = c := hu.codec
    rw [hcodec]
    refine ⟨fun _ c' hrun => ⟨c', .finished hc hrun, hu.withCodec c'⟩, fun e c' hrun => ?_⟩
    exact hstop (.finished hc hrun) (hu.withCodec c')
  refine .next hfinish (.of_states ?_)
  rintro u ⟨c', hc', hu⟩
  refine .write (Quiet (s.trying current c')) ?_ ?_
  · rintro _ rfl
    exact hu.trans ⟨rfl, rfl, rfl, rfl, rfl, rfl, rfl⟩
  refine .branch (fun hshown => ?_) fun _ => .of_pure fun _ h => hstop hc' h
  refine .of_modify fun w hw => ⟨_, .shown hc' ⟨current, job.info, timestamp, value, hdr⟩ rfl hshown, ?_⟩
  exact hw.emit _ _

/-! ## Steps -/

/-- The steps of a decode call. -/
inductive Step (codec : Codec υ σ) : Session σ → Session σ → Prop
  | quiet {s t : Session σ} (h : Quiet s t) : Step codec s t
  | push (s : Session σ) (data : υ) :
      Step codec s { s with codec := (exec (codec.pushUnit data) s.codec).2 }
  /-- No job, or none that could start. -/
  | advance (s : Session σ) : Step codec s { s with codec := (exec codec.nextJob s.codec).2 }
  | showExisting {s : Session σ} {surface : ℕ} {info : PictureInfo} {c : σ}
      (hjob : exec codec.nextJob s.codec = (.ok (some (.showExisting surface info)), c))
      (p : Picture) (hp : p.surface = surface) :
      Step codec s (Session.emit codec p none { s with codec := c })
  | decode {s t : Session σ} {job : DecodeJob} {c : σ} {current : ℕ}
      (hjob : exec codec.nextJob s.codec = (.ok (some (.decode job)), c))
      (hfree : (Session.freeSurfaces codec { s with codec := c }).head? = some current)
      (h : Decoding codec job current { s with codec := c } t) : Step codec s t
  | drain (s : Session σ) : Step codec s s.drain

abbrev Steps (codec : Codec υ σ) : Session σ → Session σ → Prop := Relation.ReflTransGen (Step codec)

lemma Steps.of_quiet (h : Steps codec s t) (h' : Quiet t u) : Steps codec s u := h.tail (.quiet h')

/-- What only talks to the engine is a step. -/
lemma keeps_steps {p : Prog (Session σ) VideoError α} (h : ∀ s, Keeps (Quiet s) p) :
    Keeps (Steps codec s) p := by
  refine .of_states fun t ht => ?_
  exact ((h t).enter (.refl t)).post (fun _ _ h => ht.of_quiet h) fun _ _ h => ht.of_quiet h

lemma runJob_steps (timestamp : ℕ) (hdr : HdrStaticMetadata) :
    Keeps (Steps codec s) (runJob codec device timestamp hdr) := by
  refine .of_states fun t ht => ?_
  have hadvance : Steps codec s { t with codec := (exec codec.nextJob t.codec).2 } :=
    ht.tail (.advance t)
  have hnext : Spec (t = ·) (onCodec codec.nextJob)
      (fun job u => ∃ c, exec codec.nextJob t.codec = (.ok job, c) ∧ u = { t with codec := c })
      fun _ => Steps codec s := by
    refine .of_focus ?_
    rintro _ rfl _ rfl
    refine ⟨fun job c hrun => ⟨c, hrun, rfl⟩, fun e c hrun => ?_⟩
    rwa [hrun] at hadvance
  refine .seq hnext fun job => .of_states ?_
  rintro _ ⟨c, hc, rfl⟩
  rw [hc] at hadvance
  cases job with
  | none => exact .unchanged hadvance
  | some job =>
    cases job with
    | showExisting surface info =>
      refine .last ?_
      exact ht.tail (.showExisting hc _ rfl)
    | decode job =>
      refine .next ?_ Spec.ret
      refine .look ?_
      cases hfree : (Session.freeSurfaces codec { t with codec := c }).head? with
      | none => exact .refused hadvance
      | some current =>
        have hdone : ∀ u, Upto (Decoding codec job current { t with codec := c }) u →
            Steps codec s u := by
          rintro u ⟨v, hv, hu⟩
          exact .of_quiet (ht.tail (.decode hc hfree hv)) hu
        exact (decodeInto_decodes current job timestamp hdr).post (fun _ u h => hdone u h)
          fun _ u h => hdone u h

lemma runJobs_steps (timestamp : ℕ) (hdr : HdrStaticMetadata) (rounds : ℕ) :
    Keeps (Steps codec s) (runJobs codec device timestamp hdr rounds) := by
  induction rounds with
  | zero => exact .ret
  | succ rounds ih =>
    refine .seq (runJob_steps timestamp hdr) fun more => ?_
    exact .either ih Spec.ret

lemma checkAdmission_quiet (data : υ) : Keeps (Quiet s) (checkAdmission codec data) := by
  refine .read fun t ht => ?_
  refine .given ht fun need _ => ?_
  exact .either (.unchanged ht) (.refused ht)

lemma decodeData_steps (data : υ) (timestamp : ℕ) :
    Keeps (Steps codec s) (decodeData codec device data timestamp) := by
  refine .compute (fun declared _ => ?_) fun _ _ _ h => h
  refine .write (Steps codec s) (fun t ht => ht.of_quiet ⟨rfl, rfl, rfl, rfl, rfl, rfl, rfl⟩) ?_
  refine .next (keeps_steps fun _ => checkAdmission_quiet data) ?_
  have hpush : Keeps (Steps codec s) (onCodec (codec.pushUnit data)) := by
    refine .of_focus ?_
    rintro t ht _ rfl
    have hpushed := ht.tail (.push t data)
    exact ⟨fun _ c hrun => by rwa [hrun] at hpushed, fun _ c hrun => by rwa [hrun] at hpushed⟩
  refine .next hpush ?_
  exact .read fun t ht => (runJobs_steps timestamp _ _).enter ht

lemma decodeInput_steps (timestamp : ℕ) (data : Option υ) :
    Keeps (Steps codec s) (decodeInput codec device timestamp data) := by
  cases data with
  | none => exact .ret
  | some data => exact decodeData_steps data timestamp

lemma decodeUnit_steps (data : Option υ) (timestamp flags : ℕ) :
    Keeps (Steps codec s) (decodeUnit codec device data timestamp flags) := by
  refine Spec.next (keeps_steps fun _ => pollStatus_quiet) ?_
  refine .read fun before hbefore => ?_
  refine Spec.next ((decodeInput_steps timestamp data).enter hbefore) ?_
  refine Spec.next (Keeps.onlyIf (Spec.of_modify fun t ht => ht.tail (.drain t))) ?_
  refine .read fun after hafter => ?_
  exact .branch (fun _ => .unchanged hafter) fun _ => .refused hafter

lemma noteResize_quiet (e : VideoError) (s : Session σ) : Quiet s (noteResize e s) := by
  cases e with
  | resize width height reason => exact ⟨rfl, rfl, rfl, rfl, rfl, rfl, rfl⟩
  | _ => exact .refl s

lemma decode_steps (data : Option υ) (timestamp flags : ℕ) :
    Keeps (Steps codec s) (decode codec device data timestamp flags) := by
  refine .read fun t ht => ?_
  split
  · exact .refused ht
  · refine .observe ((decodeUnit_steps _ timestamp flags).enter ht) ?_ ?_
    · exact fun n => .ret
    · intro e
      refine .write (Steps codec s) (fun u hu => ?_) Spec.raise
      exact hu.of_quiet (noteResize_quiet e u)

/-- What each step of a decode call keeps, the whole call keeps. -/
lemma decode_invariant {inv : Session σ → Prop} (hstep : ∀ s t, Step codec s t → inv s → inv t)
    (hs : inv s) (data : Option υ) (timestamp flags : ℕ) :
    inv (exec (decode codec device data timestamp flags) s).2 := by
  have hsteps : Steps codec s (exec (decode codec device data timestamp flags) s).2 :=
    Spec.state ((decode_steps data timestamp flags).enter Relation.ReflTransGen.refl)
  generalize (exec (decode codec device data timestamp flags) s).2 = t at hsteps ⊢
  induction hsteps with
  | refl => exact hs
  | tail _ hlast ih => exact hstep _ _ hlast ih

end NvidiaProlapse.Video
