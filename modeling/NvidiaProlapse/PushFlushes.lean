import NvidiaProlapse.PushChunks

/-!
# What every push and every flush keeps

A property of a context that time on the channel, the exchange of chunks, recording and
the end of a batch keep is kept by each command, with whatever flushes its pushes make.
The shadows that are copied out are the first such property: with it, the flush of
the model is the flush of the source, which calls itself.
-/
namespace NvidiaProlapse.PushChunks.Context
open Programs

/-! ## Time -/

/-- What may have happened on the channel. -/
lemma poll_eq (s : Context) :
    ∃ pace issued done, s.poll = { s with pace := pace, issued := issued, done := done } ∧
      s.issued ≤ issued ∧ s.done ≤ done ∧ (s.done ≤ s.issued → done ≤ issued) := by
  rcases hpace : s.pace with _ | ⟨tick, pace⟩
  · have hsame : s.poll = s := by rw [poll, hpace]
    exact ⟨s.pace, s.issued, s.done, hsame, le_rfl, le_rfl, fun h => h⟩
  refine ⟨pace, s.issued + tick.others,
    max s.done (min (s.issued + tick.others) (s.done + tick.completed)), ?_, by omega, by omega,
    by omega⟩
  rw [poll, hpace]

lemma waitToken_eq (s : Context) (token : ℕ) :
    ∃ pace issued done,
      s.waitToken token = { s with pace := pace, issued := issued, done := done } ∧
      s.issued ≤ issued ∧ s.done ≤ done ∧ token ≤ done ∧
      (s.done ≤ s.issued → token ≤ s.issued → done ≤ issued) := by
  obtain ⟨pace, issued, done, heq, hi, hd, hle⟩ := poll_eq s
  refine ⟨pace, issued, max done token, ?_, hi, by omega, by omega, by omega⟩
  rw [waitToken, heq]

/-! ## Properties that are kept -/

/-- The property survives the search for a chunk. -/
structure FetchStable (inv : Context → Prop) : Prop where
  time : ∀ (s : Context) pace issued done, s.issued ≤ issued → s.done ≤ done → inv s →
    inv { s with pace := pace, issued := issued, done := done }
  lists : ∀ (s : Context) free count, inv s →
    inv { s with pushFreeChunks := free, pushChunkCount := count }

/-- The property survives the change to another chunk. -/
structure ChunkStable (inv : Context → Prop) : Prop extends FetchStable inv where
  closed : ∀ (s : Context) i, inv s → inv (s.closeSegment i)
  filed : ∀ s : Context, inv s → inv s.fileChunk
  used : ∀ (s : Context) chunk, s.pushCur = s.pushStart → inv s → inv (s.pushUseChunk chunk)

/-- The property survives everything a push or a flush does to the context. -/
structure Stable (inv : Context → Prop) : Prop extends ChunkStable inv where
  wrote : ∀ (s : Context) words, inv s → inv (s.write words)
  added : ∀ (s : Context) addr range, inv s → inv (s.addIndirect addr range)
  paused : ∀ s : Context, inv s → inv { s with soActive := false }
  copied : ∀ s : Context, inv s → inv { s with shadowWritten := false }
  submitted : ∀ s : Context, inv s → inv s.submitAsync.nextSlot.endFlush
  flushed : ∀ s : Context, ¬ s.hasPending → inv s → inv s.endFlush

variable {inv : Context → Prop} {inner : Prog Context Abort Unit} {sizes : Sizes} {s : Context}

/-- Nothing is recorded after the last entry. -/
def Closed (s : Context) : Prop := s.pushCur = s.pushStart

lemma closeSegment_closed (i : Bool) : (s.closeSegment i).Closed := by
  unfold closeSegment Closed
  split_ifs with h
  · exact h
  · rfl

namespace FetchStable

section

variable (h : FetchStable inv)

include h

lemma poll (hs : inv s) : inv s.poll := by
  obtain ⟨pace, issued, done, heq, hi, hd, -⟩ := poll_eq s
  rw [heq]
  exact h.time s pace issued done hi hd hs

lemma waitToken (hs : inv s) (token : ℕ) : inv (s.waitToken token) := by
  obtain ⟨pace, issued, done, heq, hi, hd, -⟩ := waitToken_eq s token
  rw [heq]
  exact h.time s pace issued done hi hd hs

lemma allocChunk : Keeps inv allocChunk := by
  refine .read fun s hs => .guarded hs fun _ => ?_
  refine .last ?_
  exact h.lists s _ _ hs

lemma recycleChunk (oldest : Chunk) (rest : List Chunk) : Keeps inv (recycleChunk oldest rest) :=
  Spec.write inv (fun _ hs => h.lists _ _ _ (h.waitToken hs oldest.token)) Spec.ret

lemma pushGetChunk : Keeps inv pushGetChunk := by
  refine .read fun s hs => ?_
  rcases s.pushFreeChunks with _ | ⟨oldest, rest⟩
  · exact h.allocChunk.enter hs
  · refine .either ((h.recycleChunk oldest rest).enter hs) ?_
    exact .write inv (fun t ht => h.poll (ht ▸ hs)) (.read fun t ht => .branch
      (fun _ => (h.recycleChunk oldest rest).enter ht) fun _ => h.allocChunk.enter ht)

end

end FetchStable

lemma closed_stable : FetchStable Closed where
  time _ _ _ _ _ _ hs := hs
  lists _ _ _ hs := hs

lemma ChunkStable.pushNextChunk (h : ChunkStable inv) :
    Yields inv pushNextChunk fun _ => inv := by
  refine .write (fun s => inv s ∧ s.Closed)
    (fun s hs => ⟨h.filed _ (h.closed s false hs), closeSegment_closed false⟩) ?_
  have hget := h.toFetchStable.pushGetChunk.pair closed_stable.pushGetChunk
  refine .seq (hget.fallback fun _ _ _ => trivial) ?_
  exact fun chunk => .of_modify fun t ht => h.used t chunk ht.2 ht.1

/-- What holds after a program that did not stop the process. -/
def Leaves (inv : Context → Prop) (p : Prog Context Abort Unit) : Prop :=
  Spec inv p (fun _ => inv) fun _ _ => True

namespace Stable

lemma and {inv' : Context → Prop} (h : Stable inv) (h' : Stable inv') :
    Stable fun s => inv s ∧ inv' s where
  time s pace issued done hi hd hs := ⟨h.time s pace issued done hi hd hs.1, h'.time s pace issued done hi hd hs.2⟩
  closed s i hs := ⟨h.closed s i hs.1, h'.closed s i hs.2⟩
  filed s hs := ⟨h.filed s hs.1, h'.filed s hs.2⟩
  lists s free count hs := ⟨h.lists s free count hs.1, h'.lists s free count hs.2⟩
  used s chunk hc hs := ⟨h.used s chunk hc hs.1, h'.used s chunk hc hs.2⟩
  wrote s words hs := ⟨h.wrote s words hs.1, h'.wrote s words hs.2⟩
  added s addr range hs := ⟨h.added s addr range hs.1, h'.added s addr range hs.2⟩
  paused s hs := ⟨h.paused s hs.1, h'.paused s hs.2⟩
  copied s hs := ⟨h.copied s hs.1, h'.copied s hs.2⟩
  submitted s hs := ⟨h.submitted s hs.1, h'.submitted s hs.2⟩
  flushed s hp hs := ⟨h.flushed s hp hs.1, h'.flushed s hp hs.2⟩

lemma onlyIf {c : Prop} [Decidable c] {p : Prog Context Abort Unit} (hp : Leaves inv p) :
    Leaves inv (Programs.onlyIf c p) :=
  Spec.either hp Spec.ret

section

variable (h : Stable inv)

include h

lemma pushReserve (hinner : Leaves inv inner) (dw : ℕ) : Leaves inv (pushReserve inner dw) :=
  Spec.read fun _ hs => .seq ((onlyIf hinner).enter hs) fun _ =>
    Spec.read fun _ ht => (onlyIf h.toChunkStable.pushNextChunk).enter ht

lemma pushBegin (hinner : Leaves inv inner) (dw : ℕ) : Leaves inv (pushBegin inner dw) :=
  Spec.either Spec.thrown (h.pushReserve hinner dw)

lemma emit (part : Part) : Leaves inv (emit part) := by
  cases part with
  | words n => exact .of_modify fun s hs => h.wrote s n hs
  | indirect addr range =>
    refine .read fun s hs => .branch (fun _ => .thrown) fun _ =>
      Spec.either Spec.thrown (.of_modify ?_)
    rintro _ rfl
    exact h.added _ addr range (h.closed s true hs)

lemma push (hinner : Leaves inv inner) (command : Command) : Leaves inv (push inner command) :=
  Spec.seq (h.pushBegin hinner command.dw) fun _ =>
    Spec.of_each (fun _ => inv) (fun part _ => h.emit part) command.body

lemma submitBatch : Yields inv submitBatch fun _ t => inv t.endFlush := by
  refine .write inv (fun t ht => h.closed t false ht) (.read fun t ht =>
    Spec.either Spec.thrown (.of_modify ?_))
  rintro _ rfl
  exact h.submitted _ (h.toFetchStable.poll ht)

lemma flushBatch (fence : Bool) : Leaves inv (flushBatch fence) := by
  refine .read fun s hs => .seq (.branch (fun _ => h.submitBatch.enter hs) fun hidle => ?_)
    fun _ => .of_modify fun _ ht => ht
  refine .unchanged ?_
  rw [Bool.or_eq_true, not_or] at hidle
  exact h.flushed s hidle.1 hs

lemma soPause (hinner : Leaves inv inner) : Leaves inv (soPause sizes inner) :=
  Spec.read fun _ hs => .enter
    (onlyIf (.write inv (fun t ht => h.paused t ht) (h.push hinner _))) hs

lemma fbShadowCopy (hinner : Leaves inv inner) : Leaves inv (fbShadowCopy sizes inner) :=
  Spec.seq (h.push hinner _) fun _ => .read fun _ hs =>
    (Spec.of_each (fun _ => inv) (fun command _ => h.push hinner command) _).enter hs

lemma fbShadowEnd (hinner : Leaves inv inner) : Leaves inv (fbShadowEnd sizes inner) :=
  Spec.read fun _ hs => .enter
    (onlyIf (.write inv (fun t ht => h.copied t ht) (h.fbShadowCopy hinner))) hs

lemma flushCopied (fence : Bool) : Leaves inv (flushCopied sizes fence) :=
  Spec.next (h.soPause (h.flushBatch false)) (h.flushBatch fence)

lemma flush (fence : Bool) : Leaves inv (flush sizes fence) :=
  Spec.next (h.fbShadowEnd (h.flushCopied false)) (h.flushCopied fence)

end

end Stable

/-! ## Nested flushes

A flush inside of the copies finds no shadow written, and one inside of the pause finds
stream output inactive as well. So the flush of the source, which calls itself in the
pushes of both, is the one above. -/

/-- The shadows are copied out. -/
def Copied (s : Context) : Prop := s.shadowWritten = false

lemma copied_stable : Stable Copied where
  time _ _ _ _ _ _ hs := hs
  closed s i hs := by
    unfold Context.closeSegment
    split_ifs <;> exact hs
  filed _ hs := hs
  lists _ _ _ hs := hs
  used _ _ _ hs := hs
  wrote _ _ hs := hs
  added _ _ _ hs := hs
  paused _ hs := hs
  copied _ _ := rfl
  submitted s hs := by
    show s.submitAsync.poll.shadowWritten = false
    unfold Context.poll
    split <;> exact hs
  flushed _ _ hs := hs

lemma exec_onlyIf_neg {c : Prop} [Decidable c] (hc : ¬ c) (p : Prog Context Abort Unit) (s : Context) :
    exec (onlyIf c p) s = (.ok (), s) := by
  unfold onlyIf
  rw [if_neg hc]
  rfl

/-- A push calls the flush in the state it finds. -/
lemma exec_push_congr {p q : Prog Context Abort Unit} (h : exec p s = exec q s) (command : Command) :
    exec (push p command) s = exec (push q command) s := by
  have honly : exec (onlyIf s.full p) s = exec (onlyIf s.full q) s := by
    unfold onlyIf
    split_ifs
    · exact h
    · rfl
  have hbegin : exec (pushBegin p command.dw) s = exec (pushBegin q command.dw) s := by
    unfold pushBegin pushReserve
    split_ifs
    · rfl
    · simp only [exec_bind, exec_get, honly]
  unfold push
  rw [exec_bind, exec_bind, hbegin]

lemma exec_each_push_congr {p q : Prog Context Abort Unit} (hp : Leaves Copied p)
    (h : ∀ s : Context, s.Copied → exec p s = exec q s) (commands : List Command) (hs : s.Copied) :
    exec (each (push p) commands) s = exec (each (push q) commands) s := by
  induction commands generalizing s with
  | nil => rfl
  | cons command commands ih =>
    simp only [each, exec_bind]
    rw [← exec_push_congr (h s hs) command]
    rcases hrun : exec (push p command) s with ⟨r, t⟩
    cases r with
    | error e => rfl
    | ok a => exact ih ((copied_stable.push hp command s hs).1 a t hrun)

lemma exec_flush_of_copied (fence : Bool) (hs : s.Copied) :
    exec (Context.flush sizes fence) s = exec (flushCopied sizes fence) s := by
  have hend : exec (fbShadowEnd sizes (flushCopied sizes false)) s = (.ok (), s) := by
    exact exec_onlyIf_neg (by rw [hs]; exact Bool.false_ne_true) _ s
  rw [Context.flush, exec_bind, hend]

lemma exec_flushCopied_of_inactive (fence : Bool) (hs : s.soActive = false) :
    exec (flushCopied sizes fence) s = exec (flushBatch fence) s := by
  have hpause : exec (soPause sizes (flushBatch false)) s = (.ok (), s) := by
    exact exec_onlyIf_neg (by rw [hs]; exact Bool.false_ne_true) _ s
  rw [flushCopied, exec_bind, hpause]

lemma exec_fbShadowCopy_congr {p q : Prog Context Abort Unit} (hp : Leaves Copied p)
    (h : ∀ s : Context, s.Copied → exec p s = exec q s) (hs : s.Copied) :
    exec (fbShadowCopy sizes p) s = exec (fbShadowCopy sizes q) s := by
  simp only [fbShadowCopy, exec_bind]
  rw [← exec_push_congr (h s hs)]
  rcases hrun : exec (push p (.plain 2 sizes.renderWfi)) s with ⟨r, t⟩
  cases r with
  | error e => rfl
  | ok a => exact exec_each_push_congr hp h _ ((copied_stable.push hp _ s hs).1 a t hrun)

lemma fbShadowEnd_copied (hinner : Leaves Copied inner) :
    Yields (fun _ => True) (fbShadowEnd sizes inner) fun _ => Copied := by
  refine .read fun s _ => .branch (fun _ => ?_) fun hs => .of_pure ?_
  · exact .write Copied (fun _ _ => rfl) (copied_stable.fbShadowCopy hinner)
  · rintro _ rfl
    exact Bool.eq_false_iff.mpr hs

/-- The flush of the source. -/
theorem exec_flush (fence : Bool) (s : Context) :
    exec (Context.flush sizes fence) s = exec (do
      fbShadowEnd sizes (Context.flush sizes false)
      soPause sizes (Context.flush sizes false)
      flushBatch fence) s := by
  have hkeeps : Leaves Copied (flushCopied sizes false) := copied_stable.flushCopied false
  have hcopied : ∀ s : Context, s.Copied →
      exec (flushCopied sizes false) s = exec (Context.flush sizes false) s :=
    fun s hs => (exec_flush_of_copied false hs).symm
  have hend : exec (fbShadowEnd sizes (flushCopied sizes false)) s =
      exec (fbShadowEnd sizes (Context.flush sizes false)) s := by
    simp only [fbShadowEnd, exec_bind, exec_get, onlyIf]
    split_ifs
    · simp only [exec_bind, exec_modify]
      exact exec_fbShadowCopy_congr hkeeps hcopied rfl
    · rfl
  rw [Context.flush, exec_bind, exec_bind, ← hend]
  rcases hrun : exec (fbShadowEnd sizes (flushCopied sizes false)) s with ⟨r, t⟩
  cases r with
  | error e => rfl
  | ok a =>
    have ht : t.Copied := (fbShadowEnd_copied hkeeps s trivial).1 a t hrun
    have hpause : exec (soPause sizes (flushBatch false)) t =
        exec (soPause sizes (Context.flush sizes false)) t := by
      simp only [soPause, exec_bind, exec_get, onlyIf]
      split_ifs
      · simp only [exec_bind, exec_modify]
        refine exec_push_congr (Eq.symm ?_) _
        have hinactive : Copied { t with soActive := false } := ht
        exact (exec_flush_of_copied false hinactive).trans (exec_flushCopied_of_inactive false rfl)
      · rfl
    show exec (flushCopied sizes fence) t = exec (do
      soPause sizes (Context.flush sizes false)
      flushBatch fence) t
    rw [flushCopied, exec_bind, exec_bind, hpause]

end NvidiaProlapse.PushChunks.Context
