import NvidiaProlapse.PushFlushes

/-!
# Push memory is a bounded ring of chunks

Each chunk is the current one, filled in the open batch, or free. The words of a
submission that has not completed lie before the first unsubmitted word of the current
chunk, in the open batch, or in a free chunk whose token is not older. Only the words
after `pushCur` of the current chunk are written.
-/
namespace NvidiaProlapse.PushChunks
open Programs Runs List Entry

namespace Entry

/-- The channel reads something. -/
def Proper : Entry → Prop
  | segment _ first last _ => first < last
  | indirect _ _ => True

lemma Proper.items_ne_nil {e : Entry} (h : e.Proper) : e.items ≠ [] := by
  cases e with
  | segment chunk first last incomplete =>
    have hlt : first < last := h
    simp only [items, ne_eq, map_eq_nil_iff, range'_eq_nil_iff]
    omega
  | indirect addr range => exact cons_ne_nil _ _

/-- Adjacent words of one chunk. -/
lemma items_segment_append {chunk a b c : ℕ} (hab : a ≤ b) (hbc : b ≤ c) (i j k : Bool) :
    items (.segment chunk a b i) ++ items (.segment chunk b c j) = items (.segment chunk a c k) := by
  have hsplit : List.range' a (b - a) ++ List.range' b (c - b) = List.range' a (c - a) := by
    have hb : b = a + 1 * (b - a) := by omega
    have hc : c - a = b - a + (c - b) := by omega
    rw [hc, ← range'_append]
    nth_rewrite 2 [hb]
    rfl
  simp [items, ← map_append, hsplit]

@[simp] lemma items_segment_self (chunk a : ℕ) (i : Bool) : items (.segment chunk a a i) = [] := by
  simp [items]

end Entry

namespace Context

/-! ## The invariant -/

/-- Where the words of an entry of the open batch lie. `own` tells of the current chunk. -/
def Within (own : ℕ → ℕ → Prop) (s : Context) : Entry → Prop
  | .segment chunk _ last _ => own chunk last ∨ chunk ∈ s.pushBatchChunks.map Chunk.id
  | .indirect _ _ => True

/-- Where the words of an entry that was submitted with a token are safe. -/
def Guarded (own : ℕ → ℕ → Prop) (s : Context) (token : ℕ) : Entry → Prop
  | .segment chunk _ last _ => own chunk last ∨ chunk ∈ s.pushBatchChunks.map Chunk.id ∨
      ∃ c ∈ s.pushFreeChunks, c.id = chunk ∧ token ≤ c.token
  | .indirect _ _ => True

/-- The accounts of a context that holds the chunks `held` besides those of its lists. If
`few`, then no command makes more indirect pushes than there is room for. -/
structure Sound (few : Prop) (held : List ℕ) (own : ℕ → ℕ → Prop) (s : Context) : Prop where
  chunks : (held ++ (s.pushBatchChunks ++ s.pushFreeChunks).map Chunk.id).Perm
    (List.range s.pushChunkCount)
  count_le : s.pushChunkCount ≤ maxChunks
  proper : ∀ e ∈ s.execs, e.Proper
  within : ∀ e ∈ s.execs, s.Within own e
  guarded : ∀ sub ∈ s.submitted, sub.token ≤ s.done ∨ ∀ e ∈ sub.entries, s.Guarded own sub.token e
  free_issued : ∀ c ∈ s.pushFreeChunks, c.token ≤ s.issued
  ring_issued : ∀ r, s.ring r ≤ s.issued
  sent_issued : ∀ sub ∈ s.submitted, sub.token ≤ s.issued
  done_le : s.done ≤ s.issued
  exact : ∀ sub ∈ s.submitted, sub.entries.flatMap Entry.items = sub.recorded.flatMap Entry.items
  sent_proper : ∀ sub ∈ s.submitted, ∀ e ∈ sub.entries, e.Proper
  sent_le : few → ∀ sub ∈ s.submitted, sub.entries.length ≤ maxExecs
  intact : s.overwritten = false

/-- The current chunk is read up to the first unsubmitted word. -/
def Current (s : Context) (chunk last : ℕ) : Prop := chunk = s.pushChunk.id ∧ last ≤ s.pushStart

/-- A context between two pushes, with at most `limit` entries in its batch. A chunk was
filled with each entry, but perhaps for the first: the words before it were submitted. -/
structure Recording (few : Prop) (limit : ℕ) (s : Context) : Prop where
  sound : s.Sound few [s.pushChunk.id] s.Current
  batch_le : s.pushBatchChunks.length ≤ pushBatchMaxChunks
  start_le : s.pushStart ≤ s.pushCur
  cur_le : s.pushCur ≤ pushSize
  content : (s.execs ++ [Entry.segment s.pushChunk.id s.pushStart s.pushCur false]).flatMap Entry.items =
    s.recorded.flatMap Entry.items
  filled : s.pushBatchChunks.length ≤ s.execs.length ∨
    s.pushBatchChunks.length = s.execs.length + 1 ∧ s.pushStart = 0
  execs_le : few → s.execs.length ≤ limit

/-- The batch does not end inside of a method. -/
def Complete (s : Context) : Prop := s.execs.getLast?.any Entry.isIncomplete = false

def Good (few : Prop) (limit : ℕ) (s : Context) : Prop := s.Recording few limit ∧ s.Complete

/-- Nothing of the open batch is left. -/
structure Emptied (s : Context) : Prop where
  execs : s.execs = []
  batch_le : s.pushBatchChunks.length ≤ 1
  closed : s.pushCur = s.pushStart

/-- The aborts that commands bring about by themselves. -/
def Allowed (few : Prop) (e : Abort) : Prop :=
  e ≠ .budget ∧ e ≠ .incompleteBatch ∧ (few → e ≠ .indirectEntries)

variable {few : Prop} {held : List ℕ} {own own' : ℕ → ℕ → Prop} {limit : ℕ} {s : Context}

lemma start_good (pace : List Tick) : (start pace).Good few 999 := by
  refine ⟨⟨⟨?_, ?_, ?_, ?_, ?_, ?_, ?_, ?_, ?_, ?_, ?_, ?_, rfl⟩, ?_, ?_, ?_, ?_, ?_, ?_⟩, rfl⟩ <;>
    simp [start]

/-- The accounts are about the chunks, the entries and the tokens only. -/
lemma Good.relabel (h : s.Good few limit) (shadows texPoolNext flushSeq : ℕ)
    (dirtyBatch shadowWritten soActive : Bool) :
    Good few limit { s with
      shadows := shadows, texPoolNext := texPoolNext, flushSeq := flushSeq, dirtyBatch := dirtyBatch,
      shadowWritten := shadowWritten, soActive := soActive } := by
  obtain ⟨hrec, hcomplete⟩ := h
  exact ⟨{ hrec with sound := { hrec.sound with } }, hcomplete⟩

lemma Good.weaken (h : s.Good few limit) {limit' : ℕ} (hle : few → limit ≤ limit') :
    s.Good few limit' :=
  ⟨{ h.1 with execs_le := fun hfew => (h.1.execs_le hfew).trans (hle hfew) }, h.2⟩

section

variable {t : Context} {e : Entry} {token : ℕ}

lemma Within.imp (h : s.Within own e) (himp : ∀ c last, own c last ∨ c ∈ s.pushBatchChunks.map Chunk.id →
    t.Within own' (.segment c 0 last false)) : t.Within own' e := by
  cases e with
  | segment c a b i => exact himp c b h
  | indirect addr range => trivial

lemma Guarded.imp (h : s.Guarded own token e) (himp : ∀ c last, s.Guarded own token (.segment c 0 last false) →
    t.Guarded own' token (.segment c 0 last false)) : t.Guarded own' token e := by
  cases e with
  | segment c a b i => exact himp c b h
  | indirect addr range => trivial

end

lemma Sound.mono (h : s.Sound few held own) (himp : ∀ c last, own c last → own' c last) :
    s.Sound few held own' := by
  refine { h with within := ?_, guarded := ?_ }
  · exact fun e he => (h.within e he).imp fun c last => Or.imp_left (himp c last)
  · intro sub hsub
    refine (h.guarded sub hsub).imp_right fun hent e he => ?_
    exact (hent e he).imp fun c last => Or.imp_left (himp c last)

/-! ## Time -/

variable {done issued dw : ℕ} {c oldest : Chunk} {rest : List Chunk}

lemma Sound.later (h : s.Sound few held own) (pace : List Tick) (hissued : s.issued ≤ issued)
    (hdone : s.done ≤ done) (hle : done ≤ issued) :
    Sound few held own { s with pace := pace, issued := issued, done := done } := by
  refine { h with guarded := ?_, free_issued := ?_, ring_issued := ?_, sent_issued := ?_, done_le := hle }
  · intro sub hsub
    exact (h.guarded sub hsub).imp_left fun hd => hd.trans hdone
  · intro c hc
    exact (h.free_issued c hc).trans hissued
  · intro r
    exact (h.ring_issued r).trans hissued
  · intro sub hsub
    exact (h.sent_issued sub hsub).trans hissued

/-! ## Words and entries of the open batch -/

lemma closeSegment_of_eq (i : Bool) (h : s.pushCur = s.pushStart) : s.closeSegment i = s := if_pos h

lemma closeSegment_of_ne (i : Bool) (h : s.pushCur ≠ s.pushStart) :
    s.closeSegment i = { s with
      execs := s.execs ++ [.segment s.pushChunk.id s.pushStart s.pushCur i]
      pushStart := s.pushCur } := if_neg h

@[simp] lemma closeSegment_pushCur (i : Bool) : (s.closeSegment i).pushCur = s.pushCur := by
  unfold closeSegment
  split_ifs <;> rfl

@[simp] lemma closeSegment_pushBatchChunks (i : Bool) :
    (s.closeSegment i).pushBatchChunks = s.pushBatchChunks := by
  unfold closeSegment
  split_ifs <;> rfl

lemma closeSegment_pushStart (i : Bool) : (s.closeSegment i).pushStart = s.pushCur := by
  unfold closeSegment
  split_ifs with h
  · exact h.symm
  · rfl

/-- A closed segment is one more entry, and the words are the same. -/
lemma Recording.closeSegment (h : s.Recording few limit) (i : Bool) :
    (s.closeSegment i).Recording few (limit + 1) := by
  by_cases heq : s.pushCur = s.pushStart
  · rw [closeSegment_of_eq i heq]
    exact { h with execs_le := fun hfew => (h.execs_le hfew).trans (Nat.le_succ _) }
  rw [closeSegment_of_ne i heq]
  have hlt : s.pushStart < s.pushCur := lt_of_le_of_ne h.start_le (Ne.symm heq)
  have hmono : s.Sound few [s.pushChunk.id] fun c last => c = s.pushChunk.id ∧ last ≤ s.pushCur :=
    h.sound.mono fun c last hown => ⟨hown.1, hown.2.trans h.start_le⟩
  refine ⟨{ hmono with proper := ?_, within := ?_ }, h.batch_le, le_rfl, h.cur_le, ?_, ?_, ?_⟩
  · exact forall_mem_append.mpr ⟨h.sound.proper, forall_mem_singleton.mpr hlt⟩
  · exact forall_mem_append.mpr ⟨hmono.within, forall_mem_singleton.mpr (.inl ⟨rfl, le_rfl⟩)⟩
  · have hcontent := h.content
    simp only [flatMap_append, flatMap_singleton, items_segment_self, append_nil] at hcontent ⊢
    exact hcontent
  · left
    have := h.filled
    simp only [length_append, length_singleton]
    omega
  · intro hfew
    have := h.execs_le hfew
    simp only [length_append, length_singleton]
    omega

lemma Good.closeSegment (h : s.Good few limit) : (s.closeSegment false).Good few (limit + 1) := by
  refine ⟨h.1.closeSegment false, ?_⟩
  by_cases heq : s.pushCur = s.pushStart
  · rw [closeSegment_of_eq false heq]
    exact h.2
  · rw [closeSegment_of_ne false heq]
    simp [Complete, isIncomplete]

/-- The current chunk is none of the others. -/
lemma Sound.ne_of_mem (h : s.Sound few [n] own) (hc : c ∈ s.pushBatchChunks ∨ c ∈ s.pushFreeChunks) :
    c.id ≠ n := by
  have hnodup : ([n] ++ (s.pushBatchChunks ++ s.pushFreeChunks).map Chunk.id).Nodup :=
    h.chunks.nodup_iff.mpr nodup_range
  rintro rfl
  exact (nodup_cons.mp hnodup).1 (mem_map_of_mem (mem_append.mpr hc))

/-- What an unfinished submission reads ends before the words to come. -/
lemma Sound.not_overlaps (h : s.Sound few [s.pushChunk.id] s.Current) {sub : Submission}
    (hsub : sub ∈ s.submitted) (hdone : s.done < sub.token) {e : Entry} (he : e ∈ sub.entries)
    {first last : ℕ} (hfirst : s.pushStart ≤ first) :
    e.overlaps s.pushChunk.id first last = false := by
  have hguard := (h.guarded sub hsub).resolve_left (by omega) e he
  cases e with
  | indirect addr range => rfl
  | segment c a b i =>
    rcases hguard with ⟨-, hb⟩ | hmem | ⟨free, hfree, rfl, -⟩
    · simp only [overlaps, Bool.and_eq_false_iff, decide_eq_false_iff_not]
      right
      omega
    · obtain ⟨chunk, hchunk, rfl⟩ := mem_map.mp hmem
      simp [overlaps, h.ne_of_mem (.inl hchunk)]
    · simp [overlaps, h.ne_of_mem (.inr hfree)]

lemma Good.write (h : s.Good few limit) {words : ℕ} (hfits : s.pushCur + words ≤ pushSize) :
    (s.write words).Good few limit := by
  obtain ⟨hrec, hcomplete⟩ := h
  have hstart := hrec.start_le
  refine ⟨⟨{ hrec.sound with intact := ?_ }, hrec.batch_le, Nat.le_add_right_of_le hstart, hfits, ?_,
    hrec.filled, hrec.execs_le⟩, hcomplete⟩
  · have hany : (s.submitted.any fun sub => s.done < sub.token &&
        sub.entries.any (Entry.overlaps s.pushChunk.id s.pushCur (s.pushCur + words))) = false := by
      simp only [any_eq_false, Bool.and_eq_true, decide_eq_true_eq, not_and,
        any_eq_true, not_exists]
      intro sub hsub hdone e he
      rw [hrec.sound.not_overlaps hsub hdone he hstart]
      exact Bool.false_ne_true
    show (s.overwritten || _) = false
    rw [hrec.sound.intact, hany]
    rfl
  · have hcontent := hrec.content
    simp only [Context.write, flatMap_append, flatMap_singleton, ← hcontent, append_assoc]
    rw [items_segment_append hstart (Nat.le_add_right _ _) false false false]

lemma Recording.content_closed (h : s.Recording few limit) (hclosed : s.pushCur = s.pushStart) :
    s.execs.flatMap items = s.recorded.flatMap items := by
  simpa only [hclosed, flatMap_append, flatMap_singleton, items_segment_self, append_nil] using h.content

lemma Recording.addIndirect (h : s.Recording few limit) (hclosed : s.pushCur = s.pushStart)
    (addr range : ℕ) : (s.addIndirect addr range).Good few (limit + 1) := by
  refine ⟨⟨{ h.sound with proper := ?_, within := ?_ }, h.batch_le, h.start_le, h.cur_le, ?_, ?_, ?_⟩, ?_⟩
  · exact forall_mem_append.mpr ⟨h.sound.proper, forall_mem_singleton.mpr trivial⟩
  · exact forall_mem_append.mpr ⟨h.sound.within, forall_mem_singleton.mpr trivial⟩
  · simp [Context.addIndirect, hclosed, items_segment_self, h.content_closed hclosed]
  · left
    have := h.filled
    simp only [Context.addIndirect, length_append, length_singleton]
    omega
  · intro hfew
    have := h.execs_le hfew
    simp only [Context.addIndirect, length_append, length_singleton]
    omega
  · simp [Complete, Context.addIndirect, isIncomplete]

/-! ## The next chunk -/

/-- The context between two chunks: the last one is filed with the batch. -/
structure Filed (few : Prop) (limit : ℕ) (held : List ℕ) (s : Context) : Prop where
  sound : s.Sound few held fun _ _ => False
  batch_le : s.pushBatchChunks.length ≤ pushBatchMaxChunks
  complete : s.Complete
  content : s.execs.flatMap Entry.items = s.recorded.flatMap Entry.items
  filled : s.pushBatchChunks.length ≤ s.execs.length + 1
  execs_le : few → s.execs.length ≤ limit

lemma Good.fileChunk (h : s.Good few limit) (hbatch : s.pushBatchChunks.length < pushBatchMaxChunks)
    (hclosed : s.pushCur = s.pushStart) (hcur : 0 < s.pushCur) : s.fileChunk.Filed few limit [] := by
  obtain ⟨hrec, hcomplete⟩ := h
  have hmem : ∀ {c : ℕ}, c = s.pushChunk.id ∨ c ∈ s.pushBatchChunks.map Chunk.id →
      c ∈ (s.pushBatchChunks ++ [s.pushChunk]).map Chunk.id := by
    intro c hc
    rw [map_append, mem_append]
    rcases hc with rfl | hc
    · exact .inr (mem_singleton.mpr rfl)
    · exact .inl hc
  refine ⟨{ hrec.sound with chunks := ?_, within := ?_, guarded := ?_ }, ?_, hcomplete, ?_, ?_,
    hrec.execs_le⟩
  · refine List.Perm.trans ?_ hrec.sound.chunks
    simp only [Context.fileChunk, nil_append, map_append, map_cons, append_assoc, singleton_append]
    exact perm_middle
  · exact fun e he => (hrec.sound.within e he).imp fun _ _ hin => .inr (hmem (hin.imp_left And.left))
  · intro sub hsub
    refine (hrec.sound.guarded sub hsub).imp_right fun hent e he => (hent e he).imp ?_
    rintro c last (hown | hbatch | hfree)
    · exact .inr (.inl (hmem (.inl hown.1)))
    · exact .inr (.inl (hmem (.inr hbatch)))
    · exact .inr (.inr hfree)
  · simpa [Context.fileChunk] using hbatch
  · exact hrec.content_closed hclosed
  · have := hrec.filled
    simp only [Context.fileChunk, length_append, length_singleton]
    omega

lemma Filed.pushUseChunk (h : s.Filed few limit [c.id]) : (s.pushUseChunk c).Good few limit := by
  refine ⟨⟨?_, h.batch_le, le_rfl, Nat.zero_le _, ?_, ?_, h.execs_le⟩, h.complete⟩
  · have hsound : s.Sound few [c.id] (s.pushUseChunk c).Current := h.sound.mono fun _ _ hf => hf.elim
    exact { hsound with }
  · simpa only [Context.pushUseChunk, flatMap_append, flatMap_singleton,
      items_segment_self, append_nil] using h.content
  · have := h.filled
    show s.pushBatchChunks.length ≤ s.execs.length ∨ s.pushBatchChunks.length = s.execs.length + 1 ∧ 0 = 0
    omega

lemma Filed.later (h : s.Filed few limit held) (pace : List Tick) (hissued : s.issued ≤ issued)
    (hdone : s.done ≤ done) (hle : done ≤ issued) :
    Filed few limit held { s with pace := pace, issued := issued, done := done } :=
  { h with sound := h.sound.later pace hissued hdone hle }

lemma Filed.poll (h : s.Filed few limit held) : s.poll.Filed few limit held := by
  obtain ⟨pace, issued, done, heq, hi, hd, hle⟩ := poll_eq s
  rw [heq]
  exact h.later pace hi hd (hle h.sound.done_le)

lemma atBudget_iff : s.atBudget = true ↔ maxChunks ≤ s.pushChunkCount := by
  unfold atBudget
  rw [decide_eq_true_iff, maxChunks_eq, pushSizeB, pushMemMaxB]
  omega

/-- A chunk that was never used. -/
lemma Filed.alloc (h : s.Filed few limit []) (hbudget : ¬ s.atBudget) :
    Filed few limit [s.pushChunkCount] { s with pushChunkCount := s.pushChunkCount + 1 } := by
  refine { h with sound := { h.sound with chunks := ?_, count_le := ?_ } }
  · rw [range_succ]
    exact (perm_append_comm.trans (List.Perm.append_right _ h.sound.chunks))
  · rw [atBudget_iff] at hbudget
    exact Nat.succ_le_of_lt (Nat.lt_of_not_le hbudget)

/-- A free chunk that no unfinished submission reads. -/
lemma Filed.recycle (h : s.Filed few limit []) (hfree : s.pushFreeChunks = oldest :: rest)
    (hdone : oldest.token ≤ s.done) :
    Filed few limit [oldest.id] { s with pushFreeChunks := rest } := by
  refine { h with sound := { h.sound with
    chunks := ?_, guarded := ?_, free_issued := ?_, within := h.sound.within } }
  · refine List.Perm.trans ?_ h.sound.chunks
    rw [hfree]
    simp only [nil_append, singleton_append, map_append, map_cons]
    exact perm_middle.symm
  · intro sub hsub
    rcases h.sound.guarded sub hsub with hd | hent
    · exact .inl hd
    by_cases hold : sub.token ≤ s.done
    · exact .inl hold
    refine .inr fun e he => (hent e he).imp ?_
    rintro c last (hown | hbatch | ⟨free, hmem, hid, htoken⟩)
    · exact hown.elim
    · exact .inr (.inl hbatch)
    rw [hfree] at hmem
    rcases mem_cons.mp hmem with rfl | hmem
    · omega
    · exact .inr (.inr ⟨free, hmem, hid, htoken⟩)
  · intro c hc
    exact h.sound.free_issued c (hfree ▸ mem_cons_of_mem _ hc)

/-- With all chunks allocated, half of them are free. -/
lemma Filed.free_ne_nil (h : s.Filed few limit []) (hbudget : s.atBudget) :
    s.pushFreeChunks ≠ [] := by
  intro hnil
  have hlen := h.sound.chunks.length_eq
  have hbatch := h.batch_le
  rw [atBudget_iff, maxChunks_eq] at hbudget
  simp only [hnil, nil_append, append_nil, length_map, length_range] at hlen
  simp only [pushBatchMaxChunks_eq] at hbatch
  omega

/-- A program that keeps the accounts and stops the process only for a command's fault. -/
def Keeping (few : Prop) (pre : Context → Prop) {α : Type} (p : Prog Context Abort α)
    (post : α → Context → Prop) : Prop := Spec pre p post fun e _ => Allowed few e

lemma allocChunk_spec : Keeping few (fun s => s.Filed few limit [] ∧ ¬ s.atBudget) allocChunk
    fun c s => s.Filed few limit [c.id] := by
  refine .read fun s hs => .branch (fun hbudget => absurd hbudget hs.2) fun _ => ?_
  refine .last ?_
  exact hs.1.alloc hs.2

lemma recycleChunk_spec :
    Keeping few (fun s => s.Filed few limit [] ∧ s.pushFreeChunks = oldest :: rest)
      (recycleChunk oldest rest) fun c s => s.Filed few limit [c.id] := by
  refine .write (Filed few limit [oldest.id]) ?_ (.of_pure fun _ h => h)
  rintro s ⟨hs, hfree⟩
  have htoken := hs.sound.free_issued oldest (hfree ▸ mem_cons_self)
  obtain ⟨pace, issued, done, heq, hi, hd, hdone, hle⟩ := waitToken_eq s oldest.token
  rw [heq]
  exact (hs.later pace hi hd (hle hs.sound.done_le htoken)).recycle hfree hdone

lemma poll_pushFreeChunks (s : Context) : s.poll.pushFreeChunks = s.pushFreeChunks := by
  unfold poll
  split <;> rfl

lemma poll_atBudget (s : Context) : s.poll.atBudget = s.atBudget := by
  unfold poll
  split <;> rfl

/-- There always is a chunk. -/
lemma pushGetChunk_spec :
    Keeping few (Filed few limit []) pushGetChunk fun c s => s.Filed few limit [c.id] := by
  refine .read fun s hs => ?_
  rcases hfree : s.pushFreeChunks with _ | ⟨oldest, rest⟩
  · exact allocChunk_spec.enter ⟨hs, fun hbudget => hs.free_ne_nil hbudget hfree⟩
  refine .branch (fun _ => recycleChunk_spec.enter ⟨hs, hfree⟩) fun hbudget => ?_
  refine .write (fun t => (t.Filed few limit [] ∧ t.pushFreeChunks = oldest :: rest) ∧
    ¬ t.atBudget) ?_ ?_
  · rintro _ rfl
    refine ⟨⟨hs.poll, ?_⟩, ?_⟩
    · rw [poll_pushFreeChunks, hfree]
    · rwa [poll_atBudget]
  · refine .read fun t ht => .either (recycleChunk_spec.enter ht.1) ?_
    exact allocChunk_spec.enter ⟨ht.1.1, ht.2⟩

lemma pushNextChunk_spec :
    Keeping few (fun s => s.Good few limit ∧ s.pushBatchChunks.length < pushBatchMaxChunks ∧
        0 < s.pushCur) pushNextChunk
      fun _ s => s.Good few (limit + 1) ∧ s.pushCur = 0 := by
  refine .write (Filed few (limit + 1) []) ?_ (.seq pushGetChunk_spec fun c => ?_)
  · rintro s ⟨hs, hbatch, hcur⟩
    refine hs.closeSegment.fileChunk ?_ ?_ ?_
    · rwa [closeSegment_pushBatchChunks]
    · rw [closeSegment_pushCur, closeSegment_pushStart]
    · rwa [closeSegment_pushCur]
  · exact .of_modify fun s hs => ⟨hs.pushUseChunk, rfl⟩

/-! ## Commands -/

/-- A flush leaves nothing of the batch. -/
def Flushes (few : Prop) (p : Prog Context Abort Unit) : Prop :=
  Keeping few (Good few 999) p fun _ s => s.Good few 999 ∧ s.Emptied

variable {flush : Prog Context Abort Unit}

lemma full_iff : s.full = true ↔ 937 ≤ s.execs.length ∨ 32 ≤ s.pushBatchChunks.length := by
  rw [full, Bool.or_eq_true, decide_eq_true_iff, decide_eq_true_iff, maxExecs, execHeadroom,
    pushBatchMaxChunks_eq]
  omega

lemma short_iff : s.short dw = true ↔ pushSize < s.pushCur + dw := decide_eq_true_iff

/-- After the check of the limits there is room for the entries of a command and for a chunk. -/
lemma checkLimits_spec (hflush : Flushes few flush) (hs : s.Good few 999) :
    Keeping few (s = ·) (onlyIf s.full flush)
      fun _ t => t.Good few 936 ∧ t.pushBatchChunks.length < pushBatchMaxChunks := by
  refine .branch (fun _ => ?_) fun hroom => ?_
  · refine (hflush.enter hs).after ?_
    rintro _ t ⟨ht, hempty⟩
    refine ⟨⟨{ ht.1 with execs_le := fun _ => ?_ }, ht.2⟩, ?_⟩
    · simp [hempty.execs]
    · have := hempty.batch_le
      rw [pushBatchMaxChunks_eq]
      omega
  · refine .unchanged ?_
    rw [full_iff] at hroom
    exact ⟨⟨{ hs.1 with execs_le := fun _ => by omega }, hs.2⟩, by rw [pushBatchMaxChunks_eq]; omega⟩

lemma pushReserve_spec (hflush : Flushes few flush) (hdw : dw ≤ pushSize) :
    Keeping few (Good few 999) (pushReserve flush dw)
      fun _ s => s.Good few 937 ∧ s.pushCur + dw ≤ pushSize := by
  refine .read fun s hs => .next (checkLimits_spec hflush hs) ?_
  refine .read fun t ht => .branch (fun hshort => ?_) fun hroom => ?_
  · rw [short_iff] at hshort
    refine (pushNextChunk_spec.enter ⟨ht.1, ht.2, by omega⟩).after ?_
    rintro _ u ⟨hu, hcur⟩
    exact ⟨hu, by omega⟩
  · refine .unchanged ?_
    rw [short_iff] at hroom
    exact ⟨ht.1.weaken fun _ => by omega, by omega⟩

lemma pushBegin_spec (hflush : Flushes few flush) (dw : ℕ) :
    Keeping few (Good few 999) (pushBegin flush dw)
      fun _ s => s.Good few 937 ∧ s.pushCur + dw ≤ pushSize := by
  refine .branch (fun _ => .of_throw fun _ _ => ?_) fun hdw => ?_
  · exact ⟨by decide, by decide, fun _ => by decide⟩
  · exact pushReserve_spec hflush (Nat.le_of_not_lt hdw)

/-- The words and indirect pushes still to come have room. -/
def Roomy (few : Prop) (parts : List Part) (s : Context) : Prop :=
  s.pushCur + (parts.map Part.count).sum ≤ pushSize ∧
    ∃ limit, s.Good few limit ∧ (few → limit + 2 * (parts.map Part.indirects).sum ≤ 999)

lemma emit_spec (part : Part) (parts : List Part) :
    Keeping few (Roomy few (part :: parts)) (emit part) fun _ => Roomy few parts := by
  cases part with
  | words n =>
    refine .of_modify ?_
    rintro s ⟨hcur, limit, hs, hlimit⟩
    simp only [map_cons, sum_cons, Part.count] at hcur
    simp only [map_cons, sum_cons, Part.indirects] at hlimit
    exact ⟨by show s.pushCur + n + _ ≤ _; omega, limit, hs.write (by omega),
      fun hfew => by have := hlimit hfew; omega⟩
  | indirect addr range =>
    refine .read ?_
    rintro s ⟨hcur, limit, hs, hlimit⟩
    simp only [map_cons, sum_cons, Part.count] at hcur
    simp only [map_cons, sum_cons, Part.indirects] at hlimit
    refine .branch (fun _ => .of_throw fun _ _ => ?_) fun _ =>
      Spec.branch (fun hfull => .of_throw fun _ _ => ?_) fun _ => .of_modify ?_
    · exact ⟨by decide, by decide, fun _ => by decide⟩
    · refine ⟨by decide, by decide, fun hfew => ?_⟩
      have := hlimit hfew
      have := hs.1.execs_le hfew
      rw [maxExecs] at hfull
      omega
    · rintro _ rfl
      have hclosed : (s.closeSegment true).pushCur = (s.closeSegment true).pushStart := by
        rw [closeSegment_pushCur, closeSegment_pushStart]
      refine ⟨?_, limit + 1 + 1, (hs.1.closeSegment true).addIndirect hclosed addr range, fun hfew => ?_⟩
      · show (s.closeSegment true).pushCur + _ ≤ _
        rw [closeSegment_pushCur]
        omega
      · have := hlimit hfew
        omega

/-- The parts of a command in a push that was opened for it. -/
lemma body_spec {body : List Part} (hfits : (body.map Part.count).sum ≤ dw)
    (hfew : few → (body.map Part.indirects).sum ≤ (execHeadroom - 2) / 2) :
    Keeping few (fun s => s.Good few 937 ∧ s.pushCur + dw ≤ pushSize) (each emit body)
      fun _ => Good few 999 := by
  refine (Spec.of_each (Roomy few) emit_spec body).weaken ?_ ?_ fun _ _ h => h
  · rintro s ⟨hs, hcur⟩
    refine ⟨by omega, 937, hs, fun h => ?_⟩
    have := hfew h
    rw [execHeadroom] at this
    omega
  · rintro _ s ⟨-, limit, hs, hlimit⟩
    exact hs.weaken fun h => by simpa using hlimit h

lemma push_spec (hflush : Flushes few flush) {command : Command}
    (hfew : few → command.indirects ≤ (execHeadroom - 2) / 2) :
    Keeping few (Good few 999) (push flush command) fun _ => Good few 999 :=
  Spec.next (pushBegin_spec hflush command.dw) (body_spec command.fits hfew)

/-! ## Flushes -/

lemma Good.submitAsync (h : s.Good few 1000) (hclosed : s.pushCur = s.pushStart) :
    s.submitAsync.Good few 0 ∧ s.submitAsync.Emptied := by
  obtain ⟨hrec, -⟩ := h
  have hstamped : ∀ {c : ℕ}, c ∈ s.pushBatchChunks.map Chunk.id →
      ∃ free ∈ s.submitAsync.pushFreeChunks, free.id = c ∧ s.issued + 1 ≤ free.token := by
    intro c hc
    obtain ⟨chunk, hchunk, rfl⟩ := mem_map.mp hc
    exact ⟨{ chunk with token := s.issued + 1 },
      mem_append_right _ (mem_map.mpr ⟨chunk, hchunk, rfl⟩), rfl, le_rfl⟩
  refine ⟨⟨⟨⟨?_, hrec.sound.count_le, ?_, ?_, ?_, ?_, ?_, ?_, ?_, ?_, ?_, ?_, hrec.sound.intact⟩, ?_,
    hrec.start_le, hrec.cur_le, ?_, .inl le_rfl, fun _ => le_rfl⟩, rfl⟩, rfl, Nat.zero_le _, hclosed⟩
  · refine List.Perm.trans ?_ hrec.sound.chunks
    refine List.Perm.append_left _ ?_
    simp only [Context.submitAsync, nil_append, map_append, map_map]
    exact perm_append_comm
  · intro e he
    cases he
  · intro e he
    cases he
  · intro sub hsub
    rcases mem_append.mp hsub with hsub | hsub
    · refine (hrec.sound.guarded sub hsub).imp_right fun hent e he => (hent e he).imp ?_
      rintro c last (hown | hbatch | ⟨free, hfree, hid, htoken⟩)
      · exact .inl hown
      · obtain ⟨free, hfree, hid, htoken⟩ := hstamped hbatch
        have := hrec.sound.sent_issued sub hsub
        exact .inr (.inr ⟨free, hfree, hid, by omega⟩)
      · exact .inr (.inr ⟨free, mem_append_left _ hfree, hid, htoken⟩)
    · rw [mem_singleton.mp hsub]
      refine .inr fun e he => ?_
      have hin := hrec.sound.within e he
      cases e with
      | indirect addr range => trivial
      | segment c a b i =>
        rcases hin with hown | hbatch
        · exact .inl hown
        · exact .inr (.inr (hstamped hbatch))
  · refine forall_mem_append.mpr ⟨fun c hc => (hrec.sound.free_issued c hc).trans (Nat.le_succ _), ?_⟩
    exact forall_mem_map.mpr fun _ _ => le_rfl
  · intro r
    show Function.update s.ring s.ringCur (s.issued + 1) r ≤ s.issued + 1
    by_cases hr : r = s.ringCur
    · rw [hr, Function.update_self]
    · rw [Function.update_of_ne hr]
      exact (hrec.sound.ring_issued r).trans (Nat.le_succ _)
  · refine forall_mem_append.mpr ⟨?_, forall_mem_singleton.mpr le_rfl⟩
    exact fun sub hsub => (hrec.sound.sent_issued sub hsub).trans (Nat.le_succ _)
  · exact hrec.sound.done_le.trans (Nat.le_succ _)
  · exact forall_mem_append.mpr ⟨hrec.sound.exact, forall_mem_singleton.mpr (hrec.content_closed hclosed)⟩
  · exact forall_mem_append.mpr ⟨hrec.sound.sent_proper, forall_mem_singleton.mpr hrec.sound.proper⟩
  · exact fun hfew => forall_mem_append.mpr
      ⟨hrec.sound.sent_le hfew, forall_mem_singleton.mpr (hrec.execs_le hfew)⟩
  · exact Nat.zero_le _
  · show ([] ++ [segment _ s.pushStart s.pushCur false]).flatMap items = []
    simp [hclosed]

lemma Good.later (h : s.Good few limit) (pace : List Tick) (hissued : s.issued ≤ issued)
    (hdone : s.done ≤ done) (hle : done ≤ issued) :
    Good few limit { s with pace := pace, issued := issued, done := done } :=
  ⟨{ h.1 with sound := h.1.sound.later pace hissued hdone hle }, h.2⟩

/-- The batch ring does not matter for the chunks. -/
lemma Good.nextSlot (h : s.Good few limit) (hempty : s.Emptied) :
    s.nextSlot.Good few limit ∧ s.nextSlot.Emptied := by
  obtain ⟨pace, issued, done, heq, hi, hd, -, hle⟩ := waitToken_eq s (s.ring (s.ringCur + 1))
  have hlater := h.later pace hi hd (hle h.1.sound.done_le (h.1.sound.ring_issued (s.ringCur + 1)))
  rw [Context.nextSlot, heq]
  exact ⟨⟨{ hlater.1 with sound := { hlater.1.sound with } }, hlater.2⟩, { hempty with }⟩

lemma Good.poll (h : s.Good few limit) : s.poll.Good few limit := by
  obtain ⟨pace, issued, done, heq, hi, hd, hle⟩ := poll_eq s
  rw [heq]
  exact h.later pace hi hd (hle h.1.sound.done_le)

lemma hasPending_iff : s.hasPending = true ↔ s.pushCur ≠ s.pushStart ∨ s.execs ≠ [] := by
  simp [hasPending]

/-- With nothing recorded, the batch has at most the chunk whose words were all submitted. -/
lemma Good.emptied (h : s.Good few limit) (hpending : ¬ s.hasPending) : s.Emptied := by
  rw [hasPending_iff, not_or, not_not, not_not] at hpending
  have hfilled := h.1.filled
  rw [hpending.2, length_nil] at hfilled
  exact ⟨hpending.2, by omega, hpending.1⟩

lemma submitBatch_spec :
    Keeping few (Good few 999) submitBatch fun _ s => s.Good few 999 ∧ s.Emptied := by
  refine .write (fun t => t.Good few 1000 ∧ t.Closed) ?_ ?_
  · intro s hs
    exact ⟨hs.closeSegment, closeSegment_closed false⟩
  refine .read fun t ht => .branch (fun hinc => ?_) fun _ => .of_modify ?_
  · rw [ht.1.2] at hinc
    cases hinc
  rintro _ rfl
  obtain ⟨hsent, hempty⟩ := ht.1.poll.submitAsync (closed_stable.poll ht.2)
  obtain ⟨hnext, hempty⟩ := hsent.nextSlot hempty
  exact ⟨hnext.weaken fun _ => Nat.zero_le _, hempty⟩

lemma flushBatch_flushes (fence : Bool) : Flushes few (flushBatch fence) := by
  refine .read fun s hs => ?_
  have hbatch : Keeping few (s = ·) (onlyIf (s.hasPending || fence) submitBatch)
      fun _ t => t.Good few 999 ∧ t.Emptied := by
    refine .branch (fun _ => submitBatch_spec.enter hs) fun hnothing => .of_pure ?_
    rintro _ rfl
    rw [Bool.or_eq_true, not_or] at hnothing
    exact ⟨hs, hs.emptied hnothing.1⟩
  refine .next hbatch (.of_modify fun t ht => ⟨?_, { ht.2 with }⟩)
  exact ht.1.relabel _ _ _ _ _ _

section Nested

variable {sizes : Sizes}

lemma soPause_spec (hflush : Flushes few flush) :
    Keeping few (Good few 999) (soPause sizes flush) fun _ => Good few 999 := by
  refine .read fun s hs => .either ?_ (.unchanged hs)
  refine .write (Good few 999) ?_ (push_spec hflush fun _ => Nat.zero_le _)
  rintro _ rfl
  exact hs.relabel _ _ _ _ _ _

lemma fbShadowCopy_spec (hflush : Flushes few flush) :
    Keeping few (Good few 999) (fbShadowCopy sizes flush) fun _ => Good few 999 := by
  refine .next (push_spec hflush fun _ => Nat.zero_le _) (.read fun s hs => ?_)
  suffices h : ∀ n, Keeping few (Good few 999)
      (each (push flush) (replicate n (.plain 40 sizes.imageCopy))) fun _ => Good few 999 from
    (h s.shadows).enter hs
  intro n
  induction n with
  | zero => exact .ret
  | succ n ih => exact .next (push_spec hflush fun _ => Nat.zero_le _) ih

lemma fbShadowEnd_spec (hflush : Flushes few flush) :
    Keeping few (Good few 999) (fbShadowEnd sizes flush) fun _ => Good few 999 := by
  refine .read fun s hs => .either ?_ (.unchanged hs)
  refine .write (Good few 999) ?_ (fbShadowCopy_spec hflush)
  rintro _ rfl
  exact hs.relabel _ _ _ _ _ _

lemma flushCopied_flushes (fence : Bool) : Flushes few (flushCopied sizes fence) :=
  Spec.next (soPause_spec (flushBatch_flushes false)) (flushBatch_flushes fence)

lemma flush_flushes (fence : Bool) : Flushes few (Context.flush sizes fence) :=
  Spec.next (fbShadowEnd_spec (flushCopied_flushes false)) (flushCopied_flushes fence)

end Nested

/-! ## Room made beforehand -/

/-- The change to a new chunk for so many words brings the batch to a limit. -/
def crosses (s : Context) (dw : ℕ) : Bool :=
  !s.full && s.short dw && (s.closeSegment false).fileChunk.full

lemma Emptied.not_full (h : s.Emptied) : ¬ s.full := by
  have := h.batch_le
  rw [full_iff, h.execs, length_nil]
  omega

lemma Emptied.not_crosses (h : s.Emptied) (dw : ℕ) : ¬ s.crosses dw := by
  have hbatch := h.batch_le
  have hfull : ¬ (s.closeSegment false).fileChunk.full := by
    rw [closeSegment_of_eq false h.closed, full_iff]
    simp only [Context.fileChunk, h.execs, length_nil, length_append, length_singleton]
    omega
  simp [crosses, hfull]

lemma pushNextChunk_full :
    Yields (s = ·) pushNextChunk fun _ t => t.full = (s.closeSegment false).fileChunk.full := by
  have hstable : FetchStable fun t : Context => t.full = (s.closeSegment false).fileChunk.full :=
    ⟨fun _ _ _ _ _ _ ht => ht, fun _ _ _ ht => ht⟩
  refine .write (fun t => t.full = (s.closeSegment false).fileChunk.full) ?_ ?_
  · rintro _ rfl
    rfl
  · refine .seq (hstable.pushGetChunk.fallback fun _ _ _ => trivial) ?_
    exact fun _ => .of_modify fun _ ht => ht

/-- The push that follows a reserve of its words flushes exactly if the reserve itself has
brought the batch to a limit. -/
lemma pushReserve_full (hflush : Flushes few flush) (hs : s.Good few 999) (dw : ℕ) :
    Yields (s = ·) (pushReserve flush dw) fun _ t => t.full = s.crosses dw := by
  refine .look ?_
  by_cases hfull : s.full = true
  · have hcrosses : s.crosses dw = false := by simp [crosses, hfull]
    have hcheck : Yields (s = ·) (onlyIf s.full flush) fun _ t => t.Emptied :=
      Spec.branch (fun _ => (hflush.enter hs).post (fun _ _ h => h.2) fun _ _ _ => trivial)
        fun hnot => absurd hfull hnot
    refine .next hcheck (.read fun t ht => .branch (fun hshort => ?_) fun _ => ?_)
    · refine pushNextChunk_full.after ?_
      intro _ u hu
      have hnot := ht.not_crosses dw
      rw [hu, hcrosses]
      simpa [crosses, Bool.eq_false_iff.mpr ht.not_full, hshort] using hnot
    · refine .unchanged ?_
      rw [hcrosses]
      exact Bool.eq_false_iff.mpr ht.not_full
  · have hnot : s.full = false := Bool.eq_false_iff.mpr hfull
    have hcheck : Yields (s = ·) (onlyIf s.full flush) fun _ t => s = t :=
      Spec.branch (fun h => absurd h hfull) fun _ => .ret
    refine .next hcheck (.read ?_)
    rintro _ rfl
    refine .branch (fun hshort => ?_) fun hroom => .of_pure ?_
    · refine pushNextChunk_full.after ?_
      intro _ u hu
      simp [crosses, hnot, hshort, hu]
    · rintro _ rfl
      simp [crosses, hnot, hroom]

/-! ## Runs -/

end Context

def Action.indirects : Action → ℕ
  | .command c => c.indirects
  | _ => 0

namespace Context

variable {sizes : Sizes}

variable {action : Action}

lemma act_spec (hfew : few → action.indirects ≤ (execHeadroom - 2) / 2) :
    Keeping few (Good few 999) (act sizes action) fun _ => Good few 999 := by
  have hflush : Flushes few (Context.flush sizes false) := flush_flushes false
  cases action with
  | command command => exact push_spec hflush hfew
  | reserve dw fits =>
    exact (pushReserve_spec hflush fits).after fun _ t h => h.1.weaken fun _ => by omega
  | framebuffer shadows =>
    refine .next (fbShadowEnd_spec hflush) (.of_modify fun t ht => ?_)
    exact ht.relabel _ _ _ _ _ _
  | shadowBegin => exact fbShadowCopy_spec hflush
  | rendered => exact .of_modify fun t ht => ht.relabel _ _ _ _ _ _
  | shadowEnd => exact fbShadowEnd_spec hflush
  | captured => exact .of_modify fun t ht => ht.relabel _ _ _ _ _ _
  | soPause => exact soPause_spec hflush
  | flush fence =>
    exact (flush_flushes fence).after fun _ _ h => h.1

lemma step_eq_some {t : Context} :
    step sizes s action = some t ↔ exec (act sizes action) s = (.ok (), t) := by
  unfold step
  rcases exec (act sizes action) s with ⟨r, u⟩
  cases r <;> simp

lemma run_good {pace : List Tick} {actions : List Action}
    (hfew : few → ∀ a ∈ actions, a.indirects ≤ (execHeadroom - 2) / 2)
    (hrun : run (step sizes) (start pace) actions = some s) : s.Good few 999 := by
  refine run_invariant_along (fun s a t hs hguard hstep => ?_) (start_good pace)
    (along_of_forall fun a ha hf => hfew hf a ha) hrun
  exact (act_spec hguard s hs).1 () t (step_eq_some.mp hstep)

/-- Every chunk is in one place, no word that an unfinished submission reads is written, the
budget suffices, and each submission is what was recorded for it. -/
theorem push_memory_ring (sizes : Sizes) (pace : List Tick) (actions : List Action) (s : Context)
    (hrun : run (step sizes) (start pace) actions = some s) :
    ((s.pushChunk :: (s.pushBatchChunks ++ s.pushFreeChunks)).map Chunk.id).Perm
        (List.range s.pushChunkCount) ∧
      s.overwritten = false ∧
      s.pushChunkCount ≤ pushMemMaxB / pushSizeB ∧
      (∀ action, (exec (act sizes action) s).1 ≠ .error .budget) ∧
      (∀ sub ∈ s.submitted, sub.entries.flatMap Entry.items = sub.recorded.flatMap Entry.items ∧
        ∀ e ∈ sub.entries, e.items ≠ []) ∧
      ((∀ a ∈ actions, a.indirects ≤ (execHeadroom - 2) / 2) →
        (∀ sub ∈ s.submitted, sub.entries.length ≤ maxExecs) ∧
        ∀ action, action.indirects ≤ (execHeadroom - 2) / 2 →
          (exec (act sizes action) s).1 ≠ .error .indirectEntries) := by
  have hgood : s.Good False 999 := run_good (fun h => h.elim) hrun
  refine ⟨hgood.1.sound.chunks, hgood.1.sound.intact, hgood.1.sound.count_le, ?_, ?_, ?_⟩
  · intro action herr
    exact ((act_spec (fun h => h.elim) s hgood).2 .budget _ (Prod.ext herr rfl)).1 rfl
  · intro sub hsub
    exact ⟨hgood.1.sound.exact sub hsub, fun e he => (hgood.1.sound.sent_proper sub hsub e he).items_ne_nil⟩
  intro hfew
  have hgood : s.Good True 999 := run_good (fun _ => hfew) hrun
  refine ⟨hgood.1.sound.sent_le trivial, ?_⟩
  intro action haction herr
  exact ((act_spec (fun _ => haction) s hgood).2 .indirectEntries _ (Prod.ext herr rfl)).2.2 trivial rfl

/-- A batch with an indirect range that the copies and the pause close. -/
def splitBatch : List Action :=
  [.framebuffer 1, .rendered, .captured,
    .command ⟨8, [.words 3, .indirect 16 8, .words 2], by decide⟩, .flush true]

theorem push_memory_ring_split :
    ∃ s, run (step ⟨1, 19, 20⟩) (start []) splitBatch = some s ∧
      s.submitted.map Submission.entries =
        [[.segment 0 0 3 true, .indirect 16 8, .segment 0 3 45 false]] ∧
      s.overwritten = false ∧ s.pushChunkCount ≤ pushMemMaxB / pushSizeB := by
  have hview : (run (step ⟨1, 19, 20⟩) (start []) splitBatch).map
      (fun s => s.submitted.map Submission.entries) =
        some [[.segment 0 0 3 true, .indirect 16 8, .segment 0 3 45 false]] := by decide +kernel
  obtain ⟨s, hrun, hentries⟩ := exists_run_of_view hview
  have h := push_memory_ring ⟨1, 19, 20⟩ [] splitBatch s hrun
  exact ⟨s, hrun, hentries, h.2.1, h.2.2.1⟩

end Context

end NvidiaProlapse.PushChunks
