import NvidiaProlapse.PushChunkRuns
import NvidiaProlapse.TexturePools

/-!
# Handles name their descriptors

A pool is written from its first slot on after the batch that used it has completed, and
each slot is written once for a batch. So a handle that was made for the open batch names
its descriptor until the batch retires. A launch makes its handles before it opens its
push: this must not flush.
-/
namespace NvidiaProlapse.TexturePools
open Programs Runs PushChunks List Function Context

namespace Textures

/-! ## The invariant -/

/-- The slot of the current pool was written for the open batch with this descriptor. -/
def Names (s : Textures) (handle : Handle) : Prop :=
  handle.slot < s.gl.texPoolNext ∧ s.pools s.gl.ringCur handle.slot = handle.words

/-- A handle of the open batch, or one of a submitted batch. The pool of a submitted batch is
the current one again only when the batch has completed. -/
def Holds (s : Textures) (u : Use) : Prop :=
  ∃ pool, u.pool = some pool ∧ u.handle.slot < texPoolSlots ∧
    (u.batch = s.batch ∧ pool = s.gl.ringCur ∧ s.Names u.handle ∨
      ∃ sub, s.gl.submitted[u.batch]? = some sub ∧ sub.token ≤ s.gl.ring pool ∧
        (pool = s.gl.ringCur → sub.token ≤ s.gl.done) ∧
        (sub.token ≤ s.gl.done ∨ s.pools pool u.handle.slot = u.handle.words))

structure Inv (s : Textures) : Prop where
  sent_issued : ∀ sub ∈ s.gl.submitted, sub.token ≤ s.gl.issued
  next_le : s.gl.texPoolNext ≤ texPoolSlots
  bound_le : s.bound.length ≤ gfxStages * (maxTexUnits + maxImages)
  gen_le : ∀ i, (s.texSlots i).gen.toNat ≤ s.texSlotGen.toNat
  entry : ∀ i, (s.texSlots i).gen = s.texSlotGen → 0 < s.gl.texPoolNext →
    s.Names ⟨(s.texSlots i).slot, (s.texSlots i).words⟩
  table : s.gl.dirtyBatch = false →
    s.gfxPools = some (s.batch, s.gl.ringCur) ∧ ∀ h ∈ s.table, s.Names h
  seq_le : s.csPoolsSeq ≤ s.gl.flushSeq + 1
  csPools : s.csPoolsSeq = s.gl.flushSeq + 1 → s.csPools = some (s.batch, s.gl.ringCur)
  uses : ∀ u ∈ s.uses, s.Holds u

/-- A pool with entries belongs to a batch with commands. -/
def Backed (c : Context) : Prop :=
  c.pushStart ≤ c.pushCur ∧ (c.texPoolNext = 0 ∨ c.hasPending)

/-- The pool has room for so many descriptors when the next draw makes its handles. -/
def Ready (dirty : Bool) (slots : ℕ) (c : Context) : Prop :=
  Backed c ∧ ((c.dirtyBatch || dirty) = true → c.texPoolNext + slots ≤ texPoolSlots)

variable {s t : Textures} {sizes : Sizes}

lemma start_inv (pace : List Tick) : (start pace).Inv := by
  refine ⟨?_, Nat.zero_le _, Nat.zero_le _, fun _ => Nat.zero_le _, ?_, ?_, Nat.zero_le _, ?_, ?_⟩
  · intro sub hsub
    cases hsub
  · intro i h
    cases h
  · intro h
    cases h
  · intro h
    cases h
  · intro u hu
    cases hu

/-! ## What pushes and flushes keep -/

lemma backed_stable : Context.Stable Backed where
  time _ _ _ _ _ _ hs := hs
  lists _ _ _ hs := hs
  closed c i hs := by
    by_cases h : c.pushCur = c.pushStart
    · rw [closeSegment_of_eq i h]
      exact hs
    · rw [closeSegment_of_ne i h]
      exact ⟨le_rfl, .inr (by simp [hasPending])⟩
  filed _ hs := hs
  used c chunk hclosed hs := by
    refine ⟨le_rfl, hs.2.imp_right fun hp => ?_⟩
    rw [hasPending_iff] at hp ⊢
    exact .inr (hp.resolve_left (not_not.mpr hclosed))
  wrote c words hs := by
    refine ⟨hs.1.trans (Nat.le_add_right _ _), hs.2.imp_right fun hp => ?_⟩
    rw [hasPending_iff] at hp ⊢
    refine hp.imp_left fun hne heq => hne ?_
    have hcur : c.pushCur + words = c.pushStart := heq
    have := hs.1
    omega
  added _ _ _ hs := ⟨hs.1, .inr (by simp [hasPending, addIndirect])⟩
  paused _ hs := hs
  copied _ hs := hs
  submitted c hs := by
    refine ⟨?_, .inl rfl⟩
    show c.submitAsync.poll.pushStart ≤ c.submitAsync.poll.pushCur
    unfold poll
    split <;> exact hs.1
  flushed _ _ hs := hs

lemma Backed.next_eq_zero {c : Context} (h : Backed c) (hidle : ¬ c.hasPending) :
    c.texPoolNext = 0 := h.2.resolve_right hidle

lemma ready_stable (dirty : Bool) {slots : ℕ} (hslots : slots ≤ texPoolSlots) :
    Context.Stable (Ready dirty slots) where
  time c pace issued done hi hd hs := ⟨backed_stable.time c pace issued done hi hd hs.1, hs.2⟩
  lists c free count hs := ⟨backed_stable.lists c free count hs.1, hs.2⟩
  closed c i hs := by
    refine ⟨backed_stable.closed c i hs.1, ?_⟩
    unfold closeSegment
    split_ifs <;> exact hs.2
  filed c hs := ⟨backed_stable.filed c hs.1, hs.2⟩
  used c chunk hc hs := ⟨backed_stable.used c chunk hc hs.1, hs.2⟩
  wrote c words hs := ⟨backed_stable.wrote c words hs.1, hs.2⟩
  added c addr range hs := ⟨backed_stable.added c addr range hs.1, hs.2⟩
  paused c hs := ⟨backed_stable.paused c hs.1, hs.2⟩
  copied c hs := ⟨backed_stable.copied c hs.1, hs.2⟩
  submitted c hs := by
    refine ⟨backed_stable.submitted c hs.1, fun _ => ?_⟩
    show 0 + slots ≤ texPoolSlots
    omega
  flushed c hidle hs := by
    refine ⟨backed_stable.flushed c hidle hs.1, fun _ => ?_⟩
    show c.texPoolNext + slots ≤ texPoolSlots
    rw [hs.1.next_eq_zero hidle]
    omega

/-- What moves on to the next slot of the batch ring. -/
lemma nextSlot_eq (c : Context) :
    ∃ pace issued done, c.nextSlot = { c with
        pace := pace, issued := issued, done := done, ringCur := c.ringCur + 1, texPoolNext := 0 } ∧
      c.issued ≤ issued ∧ c.done ≤ done ∧ c.ring (c.ringCur + 1) ≤ done := by
  obtain ⟨pace, issued, done, heq, hi, hd, htoken, -⟩ := c.waitToken_eq (c.ring (c.ringCur + 1))
  refine ⟨pace, issued, done, ?_, hi, hd, htoken⟩
  rw [nextSlot, heq]

lemma add_one_ne (r : Fin batchRing) : r + 1 ≠ r := by
  revert r
  decide

/-- A handle of the open batch becomes one of a submitted batch, and a batch that used the next
pool has completed. -/
lemma Holds.submitted {u : Use} (h : s.Holds u)
    (hissued : ∀ sub ∈ s.gl.submitted, sub.token ≤ s.gl.issued) :
    Holds { s with gl := s.gl.submitAsync.nextSlot.endFlush } u := by
  obtain ⟨pace, issued, done, heq, hi, hd, hring⟩ := nextSlot_eq s.gl.submitAsync
  obtain ⟨pool, hpool, hslot, hopen | ⟨sub, hsub, htoken, hcur, hwords⟩⟩ := h
  · obtain ⟨hbatch, rfl, hnames⟩ := hopen
    refine ⟨_, hpool, hslot, .inr ⟨⟨s.gl.issued + 1, s.gl.execs, s.gl.recorded⟩, ?_⟩⟩
    rw [heq]
    refine ⟨?_, ?_, fun h => absurd h.symm (add_one_ne _), .inr hnames.2⟩
    · show (s.gl.submitted ++ [_])[u.batch]? = _
      rw [hbatch, batch, getElem?_append_right le_rfl, Nat.sub_self]
      rfl
    · show s.gl.issued + 1 ≤ update s.gl.ring s.gl.ringCur (s.gl.issued + 1) s.gl.ringCur
      rw [update_self]
  · refine ⟨pool, hpool, hslot, .inr ⟨sub, ?_⟩⟩
    have hmem := hissued sub (mem_of_getElem? hsub)
    have hlt : u.batch < s.gl.submitted.length := (List.getElem?_eq_some_iff.mp hsub).1
    have hring' : sub.token ≤ s.gl.submitAsync.ring pool := by
      show _ ≤ update s.gl.ring s.gl.ringCur (s.gl.issued + 1) pool
      by_cases hp : pool = s.gl.ringCur
      · rw [hp, update_self]
        omega
      · rwa [update_of_ne hp]
    rw [heq]
    refine ⟨?_, hring', ?_, hwords.imp_left fun h => h.trans hd⟩
    · show (s.gl.submitted ++ [_])[u.batch]? = _
      rw [getElem?_append_left hlt, hsub]
    · rintro rfl
      exact hring'.trans hring

lemma inv_stable (s : Textures) : Context.Stable fun c => Inv { s with gl := c } where
  time c pace issued done hi hd h := by
    refine { h with sent_issued := fun sub hsub => (h.sent_issued sub hsub).trans hi, uses := ?_ }
    intro u hu
    obtain ⟨pool, hpool, hslot, hopen | ⟨sub, hsub, htoken, hcur, hwords⟩⟩ := h.uses u hu
    · exact ⟨pool, hpool, hslot, .inl hopen⟩
    · exact ⟨pool, hpool, hslot, .inr ⟨sub, hsub, htoken, fun hp => (hcur hp).trans hd,
        hwords.imp_left fun h => h.trans hd⟩⟩
  lists c free count h := { h with }
  closed c i h := by
    unfold closeSegment
    split_ifs
    · exact h
    · exact { h with }
  filed c h := { h with }
  used c chunk _ h := { h with }
  wrote c words h := { h with }
  added c addr range h := { h with }
  paused c h := { h with }
  copied c h := { h with }
  submitted c h := by
    have huses : ∀ u ∈ s.uses, Holds { s with gl := c.submitAsync.nextSlot.endFlush } u :=
      fun u hu => (h.uses u hu).submitted h.sent_issued
    obtain ⟨pace, issued, done, heq, hi, hd, -⟩ := nextSlot_eq c.submitAsync
    rw [heq] at huses ⊢
    have hseq : s.csPoolsSeq ≤ c.flushSeq + 1 := h.seq_le
    refine ⟨?_, Nat.zero_le _, h.bound_le, h.gen_le, ?_, ?_, hseq.trans (Nat.le_succ _), ?_, huses⟩
    · have hissued : c.issued + 1 ≤ issued := hi
      refine forall_mem_append.mpr ⟨fun sub hsub => ?_, forall_mem_singleton.mpr hissued⟩
      have := h.sent_issued sub hsub
      exact (this.trans (Nat.le_succ _)).trans hissued
    · intro i _ hpos
      cases hpos
    · intro hdirty
      cases hdirty
    · intro heq
      have hseq' : s.csPoolsSeq = c.flushSeq + 1 + 1 := heq
      omega
  flushed c _ h := by
    have hseq : s.csPoolsSeq ≤ c.flushSeq + 1 := h.seq_le
    refine { h with table := ?_, seq_le := hseq.trans (Nat.le_succ _), csPools := ?_ }
    · intro hdirty
      cases hdirty
    · intro heq
      have hseq' : s.csPoolsSeq = c.flushSeq + 1 + 1 := heq
      omega

/-! ## Handles -/

/-- Only slots behind the ones in use were written, at most `slots` of them. -/
structure Extends (slots : ℕ) (s t : Textures) : Prop where
  gl : t.gl = { s.gl with texPoolNext := t.gl.texPoolNext }
  next_le : s.gl.texPoolNext ≤ t.gl.texPoolNext
  le_next : t.gl.texPoolNext ≤ s.gl.texPoolNext + slots
  words : ∀ slot < s.gl.texPoolNext, t.pools s.gl.ringCur slot = s.pools s.gl.ringCur slot
  bound : t.bound = s.bound
  dirtyTextures : t.dirtyTextures = s.dirtyTextures
  table : t.table = s.table
  gfxPools : t.gfxPools = s.gfxPools
  csPools : t.csPools = s.csPools
  csPoolsSeq : t.csPoolsSeq = s.csPoolsSeq

lemma Extends.refl (s : Textures) : Extends 0 s s :=
  ⟨rfl, le_rfl, le_rfl, fun _ _ => rfl, rfl, rfl, rfl, rfl, rfl, rfl⟩

lemma Extends.ringCur {slots : ℕ} (h : Extends slots s t) : t.gl.ringCur = s.gl.ringCur := by
  rw [h.gl]

lemma Extends.trans {m n : ℕ} {u : Textures} (h : Extends m s t) (h' : Extends n t u) :
    Extends (m + n) s u := by
  have := h.next_le
  have := h.le_next
  have := h'.next_le
  have := h'.le_next
  refine ⟨?_, by omega, by omega, ?_, h'.bound.trans h.bound, h'.dirtyTextures.trans h.dirtyTextures,
    h'.table.trans h.table, h'.gfxPools.trans h.gfxPools, h'.csPools.trans h.csPools,
    h'.csPoolsSeq.trans h.csPoolsSeq⟩
  · rw [h'.gl, h.gl]
  · intro slot hslot
    rw [← h.ringCur, h'.words slot (by omega), h.ringCur, h.words slot hslot]

lemma Extends.names {slots : ℕ} (h : Extends slots s t) {handle : Handle} (hs : s.Names handle) :
    t.Names handle := by
  refine ⟨hs.1.trans_le h.next_le, ?_⟩
  rw [h.ringCur, h.words _ hs.1]
  exact hs.2

lemma forget_extends (s : Textures) : Extends 0 s s.forget := by
  unfold forget
  split_ifs
  · exact { Extends.refl s with }
  · exact .refl s

lemma forget_gl (s : Textures) : s.forget.gl = s.gl := by
  unfold forget
  split_ifs <;> rfl

lemma Inv.forget (h : s.Inv) (hgen : s.gl.texPoolNext = 0 → s.texSlotGen.toNat + 1 < 2 ^ 32) :
    s.forget.Inv := by
  unfold Textures.forget
  split_ifs with hzero
  · have hsucc : (s.texSlotGen + 1).toNat = s.texSlotGen.toNat + 1 := by
      exact Nat.mod_eq_of_lt (hgen hzero)
    refine { h with gen_le := ?_, entry := ?_ }
    · intro i
      show (s.texSlots i).gen.toNat ≤ (s.texSlotGen + 1).toNat
      have := h.gen_le i
      omega
    · intro i _ hpos
      exact absurd hzero (Nat.pos_iff_ne_zero.mp hpos)
  · exact h

/-- No entry of the table is valid in a pool that was just taken. -/
lemma forget_fresh (h : s.Inv) (hgen : s.gl.texPoolNext = 0 → s.texSlotGen.toNat + 1 < 2 ^ 32)
    {i : ℕ} (hi : (s.forget.texSlots i).gen = s.forget.texSlotGen) : 0 < s.forget.gl.texPoolNext := by
  unfold forget at hi ⊢
  split_ifs at hi ⊢ with hzero
  · have hsucc : (s.texSlotGen + 1).toNat = s.texSlotGen.toNat + 1 := by
      exact Nat.mod_eq_of_lt (hgen hzero)
    have hle := h.gen_le i
    have heq : (s.texSlots i).gen.toNat = (s.texSlotGen + 1).toNat := congrArg UInt32.toNat hi
    omega
  · exact Nat.pos_of_ne_zero hzero

lemma probe_hit {texSlots : ℕ → TexSlot} {gen : UInt32} {words : Words} {slot : ℕ} {h : UInt32} {n : ℕ}
    (hprobe : probe texSlots gen words h n = .hit slot) :
    ∃ i, (texSlots i).gen = gen ∧ (texSlots i).words = words ∧ (texSlots i).slot = slot := by
  induction n generalizing h with
  | zero => cases hprobe
  | succ n ih =>
    simp only [probe] at hprobe
    split_ifs at hprobe with hgen hwords
    · cases hprobe
      exact ⟨_, not_not.mp hgen, hwords, rfl⟩
    · exact ih hprobe

lemma addSlot_extends (words : Words) (s : Textures) : Extends 1 s (s.addSlot words) := by
  refine ⟨rfl, Nat.le_succ _, le_rfl, ?_, rfl, rfl, rfl, rfl, rfl, rfl⟩
  intro slot hslot
  show update s.pools s.gl.ringCur _ s.gl.ringCur slot = _
  rw [update_self, update_of_ne (Nat.ne_of_lt hslot)]

lemma addSlot_names (words : Words) (s : Textures) :
    (s.addSlot words).Names ⟨s.gl.texPoolNext, words⟩ := by
  refine ⟨Nat.lt_succ_self _, ?_⟩
  show update s.pools s.gl.ringCur
    (update (s.pools s.gl.ringCur) s.gl.texPoolNext words) s.gl.ringCur s.gl.texPoolNext = words
  rw [update_self, update_self]

/-- The next slot is read by no batch that has not completed. -/
lemma Inv.addSlot (h : s.Inv) (hroom : s.gl.texPoolNext < texPoolSlots) (words : Words)
    (hfresh : ∀ i, (s.texSlots i).gen = s.texSlotGen → 0 < s.gl.texPoolNext) :
    (s.addSlot words).Inv := by
  have hext := addSlot_extends words s
  refine { h with next_le := hroom, entry := ?_, table := ?_, uses := ?_ }
  · intro i hi _
    exact hext.names (h.entry i hi (hfresh i hi))
  · intro hdirty
    exact ⟨(h.table hdirty).1, fun handle hmem => hext.names ((h.table hdirty).2 handle hmem)⟩
  intro u hu
  obtain ⟨pool, hpool, hslot, hopen | ⟨sub, hsub, htoken, hcur, hwords⟩⟩ := h.uses u hu
  · exact ⟨pool, hpool, hslot, .inl ⟨hopen.1, hopen.2.1, hext.names hopen.2.2⟩⟩
  refine ⟨pool, hpool, hslot, .inr ⟨sub, hsub, htoken, hcur, ?_⟩⟩
  by_cases hp : pool = s.gl.ringCur
  · exact .inl (hcur hp)
  · refine hwords.imp_right fun hw => ?_
    show update s.pools s.gl.ringCur _ pool u.handle.slot = _
    rwa [update_of_ne hp]

/-- What one descriptor does. -/
structure Made (slots : ℕ) (s t : Textures) : Prop where
  inv : t.Inv
  extends_ : Extends slots s t

lemma texSlot_made (h : s.Inv) (hroom : s.gl.texPoolNext < texPoolSlots)
    (hgen : s.gl.texPoolNext = 0 → s.texSlotGen.toNat + 1 < 2 ^ 32) (words : Words) :
    Made 1 s (texSlot words s).2 ∧ (texSlot words s).2.Names ⟨(texSlot words s).1, words⟩ ∧
      0 < (texSlot words s).2.gl.texPoolNext := by
  have hinv := h.forget hgen
  have hext := forget_extends s
  have hfresh : ∀ i, (s.forget.texSlots i).gen = s.forget.texSlotGen → 0 < s.forget.gl.texPoolNext :=
    fun i hi => forget_fresh h hgen hi
  have hroom' : s.forget.gl.texPoolNext < texPoolSlots := by rwa [forget_gl]
  have hadd := hinv.addSlot hroom' words hfresh
  have haddExt : Extends 1 s (s.forget.addSlot words) := by
    simpa using hext.trans (addSlot_extends words s.forget)
  unfold texSlot
  cases hprobe : probe s.forget.texSlots s.forget.texSlotGen words (hash words) 32 with
  | hit slot =>
    obtain ⟨i, hi, rfl, rfl⟩ := probe_hit hprobe
    simp only [hprobe]
    exact ⟨⟨hinv, { hext with le_next := hext.le_next.trans (Nat.le_succ _) }⟩,
      hinv.entry i hi (hfresh i hi), hfresh i hi⟩
  | full =>
    simp only [hprobe]
    exact ⟨⟨hadd, haddExt⟩, addSlot_names words s.forget, Nat.succ_pos _⟩
  | free index =>
    simp only [hprobe]
    refine ⟨⟨{ hadd with gen_le := ?_, entry := ?_ }, { haddExt with }⟩, addSlot_names words s.forget,
      Nat.succ_pos _⟩
    · intro i
      show (update s.forget.texSlots index _ i).gen.toNat ≤ s.forget.texSlotGen.toNat
      by_cases hi : i = index
      · rw [hi, update_self]
      · rw [update_of_ne hi]
        exact hinv.gen_le i
    · intro i
      show (update s.forget.texSlots index _ i).gen = s.forget.texSlotGen → _ →
        Names _ ⟨(update s.forget.texSlots index _ i).slot,
          (update s.forget.texSlots index _ i).words⟩
      by_cases hi : i = index
      · rw [hi, update_self]
        exact fun _ _ => addSlot_names words s.forget
      · rw [update_of_ne hi]
        exact hadd.entry i

lemma texHandles_made (units : List Words) (h : s.Inv)
    (hroom : s.gl.texPoolNext + units.length ≤ texPoolSlots)
    (hgen : s.gl.texPoolNext = 0 → s.texSlotGen.toNat + 1 < 2 ^ 32) :
    Made units.length s (texHandles units s).2 ∧
      ∀ handle ∈ (texHandles units s).1, (texHandles units s).2.Names handle := by
  induction units generalizing s with
  | nil =>
    refine ⟨⟨h, .refl s⟩, ?_⟩
    intro handle hmem
    cases hmem
  | cons words units ih =>
    simp only [length_cons] at hroom
    obtain ⟨hmade, hnames, hpos⟩ := texSlot_made h (by omega) hgen words
    have hle := hmade.extends_.le_next
    obtain ⟨hrest, hall⟩ := ih hmade.inv (by omega) (fun hzero => by omega)
    refine ⟨⟨hrest.inv, ?_⟩, ?_⟩
    · rw [length_cons, Nat.add_comm]
      exact hmade.extends_.trans hrest.extends_
    exact forall_mem_cons.mpr ⟨hrest.extends_.names hnames, hall⟩

lemma texHandles_isEmpty (units : List Words) (s : Textures) :
    (texHandles units s).1 = [] ↔ units = [] := by
  cases units with
  | nil => exact iff_of_true rfl rfl
  | cons words units => exact iff_of_false (cons_ne_nil _ _) (cons_ne_nil _ _)

/-! ## Programs -/

/-- What a program leaves if it does not stop the process. -/
def Ends (pre : Textures → Prop) (p : Prog Textures Abort Unit) (post : Textures → Prop) : Prop :=
  Spec pre p (fun _ => post) fun _ _ => True

/-- A context between two actions. -/
def Safe (s : Textures) : Prop := s.gl.Good False 999 ∧ Backed s.gl ∧ s.Inv

/-- A program of the push memory, with what it does there and what it leaves alone. -/
lemma onGl_ends {p : Prog Context Abort Unit} {pre post : Context → Prop} (rest : Textures → Prop)
    (hp : Context.Keeping False pre p fun _ => post)
    (hrest : ∀ s : Textures, Context.Leaves (fun c => rest { s with gl := c }) p) :
    Ends (fun s => pre s.gl ∧ rest s) (onGl p) fun s => post s.gl ∧ rest s := by
  refine .of_focus fun s hs => ?_
  have hgood := (hp.enter hs.1).fallback fun _ _ _ => trivial
  exact (hgood.both ((hrest s).enter hs.2)).fallback fun _ _ _ => trivial

/-- A fact that is not about the push memory. -/
lemma Stable.const (p : Prop) : Context.Stable fun _ => p := by
  refine ⟨⟨⟨?_, ?_⟩, ?_, ?_, ?_⟩, ?_, ?_, ?_, ?_, ?_, ?_⟩
  all_goals
    intros
    assumption

lemma Stable.given {p : Prop} {inv : Context → Prop} (h : p → Context.Stable inv) :
    Context.Stable fun c => p ∧ inv c := by
  by_cases hp : p
  · simpa only [hp, true_and] using h hp
  · simpa only [hp, false_and] using Stable.const False

lemma not_hasPending_of_emptied {c : Context} (h : c.Emptied) : ¬ c.hasPending := by
  rw [hasPending_iff, not_or, not_not, not_not]
  exact ⟨h.closed, h.execs⟩

/-- The generation of the table can be counted up. -/
def GenRoom (s : Textures) : Prop := s.texSlotGen.toNat + 1 < 2 ^ 32

/-- A draw can make its handles. -/
def Drawable (s : Textures) : Prop :=
  (s.GenRoom ∧ s.bound.length ≤ texPoolSlots) ∧ Ready s.dirtyTextures s.bound.length s.gl

/-- A property that goes with the ones that are kept anyway. -/
def Side (side : Textures → Prop) : Prop := ∀ s : Textures, Context.Stable fun c => side { s with gl := c }

lemma side_genRoom : Side GenRoom := fun s => Stable.const s.GenRoom

lemma side_drawable : Side Drawable :=
  fun s => @Stable.given (s.GenRoom ∧ s.bound.length ≤ texPoolSlots) (Ready s.dirtyTextures s.bound.length)
    fun h => ready_stable s.dirtyTextures h.2

variable {side : Textures → Prop}

def Kept (side : Textures → Prop) (s : Textures) : Prop := Backed s.gl ∧ s.Inv ∧ side s

lemma kept_stable (h : Side side) (s : Textures) : Context.Stable fun c => Kept side { s with gl := c } :=
  backed_stable.and ((inv_stable s).and (h s))

lemma flush_ends (h : Side side) :
    Ends (fun s => s.Safe ∧ side s) (flush sizes)
      fun s => (s.Safe ∧ side s) ∧ s.gl.Emptied ∧ s.gl.texPoolNext = 0 := by
  refine (onGl_ends (Kept side) (flush_flushes false) fun s =>
    (kept_stable h s).flush false).weaken (fun s hs => ?_) (fun _ s hs => ?_) fun _ _ h => h
  · exact ⟨hs.1.1, hs.1.2.1, hs.1.2.2, hs.2⟩
  · obtain ⟨⟨hgood, hempty⟩, hbacked, hinv, hside⟩ := hs
    exact ⟨⟨⟨hgood, hbacked, hinv⟩, hside⟩, hempty,
      hbacked.next_eq_zero (not_hasPending_of_emptied hempty)⟩

lemma Ends.onlyIf {pre post : Textures → Prop} {c : Prop} [Decidable c] {p : Prog Textures Abort Unit}
    (hp : c → Ends pre p post) (hnot : ¬ c → ∀ s, pre s → post s) : Ends pre (Programs.onlyIf c p) post :=
  Spec.branch hp fun h => .of_pure (hnot h)

/-- After the check of the pool there is room. -/
lemma textureReserve_ends (h : Side side) {slots : ℕ} (hslots : slots ≤ texPoolSlots)
    {post : Textures → Prop} (hflushed : ∀ s : Textures, s.gl.Emptied → post s) :
    Ends (fun s => (s.Safe ∧ side s) ∧ post s) (textureReserve sizes slots)
      fun s => (s.Safe ∧ side s) ∧ s.gl.texPoolNext + slots ≤ texPoolSlots ∧ post s := by
  refine Spec.read fun s hs => Ends.onlyIf (fun _ => ?_) fun hroom => ?_
  · refine ((flush_ends h).enter hs.1).after ?_
    rintro _ t ⟨ht, hempty, hzero⟩
    exact ⟨ht, by omega, hflushed t hempty⟩
  · rintro _ rfl
    exact ⟨hs.1, by omega, hs.2⟩

lemma slmEnsure_ends (h : Side side) (hpools : ∀ s, side s → side { s with dirtyPools := true })
    (grow : Bool) :
    Ends (fun s => s.Safe ∧ side s) (slmEnsure sizes grow)
      fun s => (s.Safe ∧ side s) ∧ (grow = true → s.gl.Emptied) := by
  refine .onlyIf (fun _ => ?_) fun hnot s hs => ⟨hs, fun hgrow => absurd hgrow hnot⟩
  refine .next (flush_ends h) (.of_modify ?_)
  rintro s ⟨⟨⟨hgood, hbacked, hinv⟩, hside⟩, hempty, -⟩
  exact ⟨⟨⟨hgood, hbacked, { hinv with }⟩, hpools s hside⟩, fun _ => hempty⟩

/-- The body of a command leaves something recorded. -/
lemma body_pending {body : List Part} (hwrites : 0 < (body.map Part.count).sum) :
    Yields (fun c : Context => c.pushStart ≤ c.pushCur) (each Context.emit body)
      fun _ c => Backed c := by
  refine (Spec.of_each (fun parts (c : Context) => c.pushStart ≤ c.pushCur ∧
    (c.hasPending ∨ 0 < (parts.map Part.count).sum)) ?_ body).weaken (fun c hc => ⟨hc, .inr hwrites⟩)
    (fun _ c hc => ⟨hc.1, .inr (hc.2.resolve_right (by simp))⟩) fun _ _ h => h
  intro part parts
  cases part with
  | words n =>
    refine Spec.of_modify fun c hc => ⟨hc.1.trans (Nat.le_add_right _ _), ?_⟩
    simp only [map_cons, sum_cons, Part.count] at hc
    rw [hasPending_iff] at hc ⊢
    show (c.pushCur + n ≠ c.pushStart ∨ c.execs ≠ []) ∨ _
    rcases hc.2 with (hne | hexecs) | hsum
    · exact .inl (.inl (by omega))
    · exact .inl (.inr hexecs)
    · by_cases hn : n = 0
      · exact .inr (by omega)
      · exact .inl (.inl (by omega))
  | indirect addr range =>
    refine .read fun c hc => .branch (fun _ => .thrown) fun _ =>
      Spec.either Spec.thrown (.of_modify ?_)
    rintro _ rfl
    refine ⟨?_, .inl ?_⟩
    · exact le_of_eq (closeSegment_closed true).symm
    · simp [hasPending, addIndirect]

/-- The body of a draw or launch, after the push was opened. -/
lemma body_ends {dw : ℕ} {body : List Part} (hfits : (body.map Part.count).sum ≤ dw)
    (hwrites : 0 < (body.map Part.count).sum) :
    Ends (fun s => (s.gl.Good False 937 ∧ s.gl.pushCur + dw ≤ pushSize) ∧ s.Inv)
      (onGl (each Context.emit body)) Safe := by
  refine Spec.of_focus fun s hs => ?_
  have hgood := ((body_spec hfits fun h => h.elim).enter hs.1).fallback fun _ _ _ => trivial
  have hbacked := (body_pending hwrites).enter hs.1.1.1.start_le
  have hinv := (Spec.of_each (fun _ => fun c => Inv { s with gl := c })
    (fun part _ => (inv_stable s).emit part) body).enter hs.2
  exact (hgood.both (hbacked.both hinv)).fallback fun _ _ _ => trivial

/-! ## Draws -/

lemma bound_le_slots (h : s.Inv) : s.bound.length ≤ texPoolSlots :=
  h.bound_le.trans (by decide)

lemma Inv.emitTexPools (h : s.Inv) :
    s.emitTexPools.Inv ∧ s.emitTexPools.gfxPools = some (s.emitTexPools.batch, s.emitTexPools.gl.ringCur) := by
  unfold Textures.emitTexPools
  split_ifs with hdirty
  · exact ⟨{ h with table := fun hclean => ⟨rfl, (h.table hclean).2⟩ }, rfl⟩
  · rw [Bool.or_eq_true, not_or] at hdirty
    exact ⟨h, (h.table (Bool.eq_false_iff.mpr hdirty.1)).1⟩

lemma emitTexPools_gl (s : Textures) : s.emitTexPools.gl = s.gl := by
  unfold emitTexPools
  split_ifs <;> rfl

lemma Drawable.emitTexPools (h : s.Drawable) : s.emitTexPools.Drawable := by
  unfold Textures.emitTexPools
  split_ifs <;> exact h

/-- The handles of the next draw are made for the pool that is bound. -/
structure Loaded (s : Textures) : Prop where
  inv : s.Inv
  pools : s.gfxPools = some (s.batch, s.gl.ringCur)
  table : ∀ h ∈ s.table, s.Names h

lemma emitTextures_loaded (h : s.Inv) (hdraw : s.Drawable)
    (hpools : s.gfxPools = some (s.batch, s.gl.ringCur)) :
    s.emitTextures.Loaded ∧ s.emitTextures.gl = { s.gl with texPoolNext := s.emitTextures.gl.texPoolNext } := by
  unfold emitTextures
  split_ifs with hdirty
  · obtain ⟨hmade, hnames⟩ := texHandles_made s.bound h (hdraw.2.2 hdirty) fun _ => hdraw.1.1
    have hbatch : (texHandles s.bound s).2.gfxPools =
        some ((texHandles s.bound s).2.batch, (texHandles s.bound s).2.gl.ringCur) := by
      rw [hmade.extends_.gfxPools, hpools, batch, batch, hmade.extends_.gl]
    exact ⟨⟨{ hmade.inv with table := fun _ => ⟨hbatch, hnames⟩ }, hbatch, hnames⟩, hmade.extends_.gl⟩
  · have hclean : s.gl.dirtyBatch = false := by
      rw [dirty, Bool.or_eq_true, not_or] at hdirty
      exact Bool.eq_false_iff.mpr hdirty.1
    exact ⟨⟨h, hpools, (h.table hclean).2⟩, rfl⟩

/-- Handles of the open batch are used with the pool that is bound. -/
lemma holds_use {pools : Option (ℕ × Fin batchRing)} (h : s.Inv)
    (hpools : pools = some (s.batch, s.gl.ringCur)) {handle : Handle} (hnames : s.Names handle) :
    s.Holds (s.use pools handle) := by
  refine ⟨s.gl.ringCur, ?_, hnames.1.trans_le h.next_le, .inl ⟨rfl, rfl, hnames⟩⟩
  simp [use, hpools]

lemma Loaded.emitDraw (h : s.Loaded) (rendered captured : Bool) : (s.emitDraw rendered captured).Inv := by
  refine { h.inv with table := fun _ => ⟨h.pools, h.table⟩, uses := ?_ }
  refine forall_mem_append.mpr ⟨h.inv.uses, forall_mem_map.mpr fun handle hmem => ?_⟩
  exact holds_use h.inv h.pools (h.table handle hmem)

/-- Before its push, a draw that will make handles has room for them. -/
lemma drawReserve_ends (hs : s.Safe ∧ s.GenRoom) :
    Ends (s = ·) (onlyIf s.dirty (textureReserve sizes s.bound.length)) fun t => t.Safe ∧ t.Drawable := by
  have hbound := bound_le_slots hs.1.2.2
  have hside : Side fun t => t.GenRoom ∧ t.bound = s.bound :=
    fun t => Stable.const (t.GenRoom ∧ t.bound = s.bound)
  refine .onlyIf (fun _ => ?_) fun hclean => ?_
  · refine (Spec.enter (textureReserve_ends hside hbound fun _ _ => trivial)
      ⟨⟨hs.1, hs.2, rfl⟩, trivial⟩).after ?_
    rintro _ t ⟨⟨hsafe, hgen, heq⟩, hroom, -⟩
    rw [← heq] at hroom hbound
    exact ⟨hsafe, ⟨hgen, hbound⟩, hsafe.2.1, fun _ => hroom⟩
  · rintro _ rfl
    exact ⟨hs.1, ⟨hs.2, hbound⟩, hs.1.2.1, fun hdirty => absurd hdirty hclean⟩

/-- The state of the draw is emitted into the open push. -/
lemma emitDraw_opened {dw : ℕ} (hgood : s.gl.Good False 937) (hroom : s.gl.pushCur + dw ≤ pushSize)
    (hinv : s.Inv) (hdraw : s.Drawable) (rendered captured : Bool) :
    let t := s.emitTexPools.emitTextures.emitDraw rendered captured
    (t.gl.Good False 937 ∧ t.gl.pushCur + dw ≤ pushSize) ∧ t.Inv := by
  obtain ⟨hpools, hbound⟩ := hinv.emitTexPools
  obtain ⟨hloaded, hgl⟩ := emitTextures_loaded hpools hdraw.emitTexPools hbound
  rw [emitTexPools_gl] at hgl
  refine ⟨⟨?_, ?_⟩, hloaded.emitDraw rendered captured⟩
  · show Context.Good False 937 { s.emitTexPools.emitTextures.gl with
      dirtyBatch := _, shadowWritten := _, soActive := _ }
    rw [hgl]
    exact hgood.relabel _ _ _ _ _ _
  · show s.emitTexPools.emitTextures.gl.pushCur + dw ≤ pushSize
    rw [hgl]
    exact hroom

lemma draw_ends (d : Draw) : Ends (fun s => s.Safe ∧ s.GenRoom) (draw sizes d) Safe := by
  have hflush : Ends (fun s => s.Safe ∧ s.Drawable) (flush sizes) fun s => s.Safe ∧ s.Drawable :=
    (flush_ends side_drawable).after fun _ _ h => h.1
  have hload : Ends (fun s => s.Safe ∧ s.Drawable)
      (onGl (Context.fbShadowCopy sizes (Context.flush sizes false))) fun s => s.Safe ∧ s.Drawable :=
    (onGl_ends (Kept Drawable) (Context.fbShadowCopy_spec (flush_flushes false)) fun s =>
      (kept_stable side_drawable s).fbShadowCopy ((kept_stable side_drawable s).flush false)).weaken
      (fun s hs => ⟨hs.1.1, hs.1.2.1, hs.1.2.2, hs.2⟩)
      (fun _ s hs => ⟨⟨hs.1, hs.2.1, hs.2.2.1⟩, hs.2.2.2⟩) fun _ _ h => h
  have hbegin : Ends (fun s => s.Safe ∧ s.Drawable)
      (onGl (Context.pushBegin (Context.flush sizes false) d.command.dw))
      fun s => (s.gl.Good False 937 ∧ s.gl.pushCur + d.command.dw ≤ pushSize) ∧ Kept Drawable s :=
    (onGl_ends (Kept Drawable) (pushBegin_spec (flush_flushes false) d.command.dw) fun s =>
      (kept_stable side_drawable s).pushBegin ((kept_stable side_drawable s).flush false) _).before
      (fun s hs => ⟨hs.1.1, hs.1.2.1, hs.1.2.2, hs.2⟩)
  have hslm : Ends (fun s => s.Safe ∧ s.GenRoom) (slmEnsure sizes d.grow) fun s => s.Safe ∧ s.GenRoom :=
    (slmEnsure_ends side_genRoom (fun _ h => h) d.grow).after fun _ _ h => h.1
  refine Spec.next hslm (Spec.read fun s hs => Spec.next (drawReserve_ends hs) ?_)
  refine Spec.next (Ends.onlyIf (fun _ => hflush) fun _ _ h => h) ?_
  refine Spec.next (Ends.onlyIf (fun _ => hload) fun _ _ h => h) ?_
  refine Spec.next hbegin (.write _ ?_ (body_ends d.command.fits d.writes))
  rintro t ⟨⟨hgood, hroom⟩, -, hinv, hdraw⟩
  exact emitDraw_opened hgood hroom hinv hdraw d.rendered d.captured

/-! ## Launches -/

/-- The handles of a launch, and a push that is not going to flush if there are any. -/
structure Uploaded (s : Textures) : Prop where
  good : s.gl.Good False 999
  inv : s.Inv
  names : ∀ h ∈ s.csTable, s.Names h
  room : s.csTable ≠ [] → ¬ s.gl.full

lemma uploadTexHandles_uploaded {units : List Words} (hsafe : s.Safe) (hgen : s.GenRoom)
    (hroom : s.gl.texPoolNext + units.length ≤ texPoolSlots) (hfull : units ≠ [] → ¬ s.gl.full) :
    (s.uploadTexHandles units).Uploaded := by
  obtain ⟨hmade, hnames⟩ := texHandles_made units hsafe.2.2 hroom fun _ => hgen
  have hgl := hmade.extends_.gl
  refine ⟨?_, { hmade.inv with }, hnames, ?_⟩
  · show (texHandles units s).2.gl.Good False 999
    rw [hgl]
    exact hsafe.1.relabel _ _ _ _ _ _
  intro hne
  show ¬ (texHandles units s).2.gl.full
  rw [hgl]
  exact hfull fun hnil => hne ((texHandles_isEmpty units s).mpr hnil)

/-- A change of chunks keeps the handles of the open batch. -/
lemma names_chunkStable (s : Textures) :
    Context.ChunkStable fun c => ∀ h ∈ s.csTable, Names { s with gl := c } h where
  time _ _ _ _ _ _ h := h
  lists _ _ _ h := h
  closed c i h := by
    unfold closeSegment
    split_ifs <;> exact h
  filed _ h := h
  used _ _ _ h := h

lemma launchBegin_names (hs : s.Uploaded) {inner : Prog Context Abort Unit} :
    Yields (s.gl = ·) (Context.pushBegin inner launchDw)
      fun _ c => ∀ h ∈ s.csTable, Names { s with gl := c } h := by
  by_cases hnone : s.csTable = []
  · refine (Spec.anything _ _).post (fun _ c _ => ?_) fun _ _ _ => trivial
    rw [hnone]
    intro h hmem
    cases hmem
  · refine Spec.either Spec.thrown (.read ?_)
    rintro _ rfl
    have hcheck : Yields (s.gl = ·) (onlyIf s.gl.full inner)
        fun _ c => ∀ h ∈ s.csTable, Names { s with gl := c } h := by
      refine .branch (fun hfull => absurd hfull (hs.room hnone)) fun _ => .of_pure ?_
      rintro _ rfl
      exact hs.names
    refine .next hcheck (.read fun c hc => ?_)
    exact .enter (.branch (fun _ => (names_chunkStable s).pushNextChunk) fun _ => .ret) hc

/-- The push of a launch with handles does not flush. -/
lemma launchBegin_ends (sizes : Sizes) :
    Ends Uploaded (onGl (Context.pushBegin (Context.flush sizes false) launchDw))
      fun s => (s.gl.Good False 937 ∧ s.gl.pushCur + launchDw ≤ pushSize) ∧ s.Inv ∧
        ∀ h ∈ s.csTable, s.Names h := by
  have hflush : Context.Flushes False (Context.flush sizes false) := Context.flush_flushes false
  refine .of_focus fun s hs => ?_
  have hleaves : Context.Leaves (fun c => Inv { s with gl := c }) (Context.flush sizes false) :=
    (inv_stable s).flush false
  have hgood := ((pushBegin_spec hflush launchDw).enter hs.good).fallback fun _ _ _ => trivial
  have hinv := ((inv_stable s).pushBegin hleaves launchDw).enter hs.inv
  exact (hgood.both (hinv.both (launchBegin_names hs))).fallback fun _ _ _ => trivial

lemma bindCsPools_gl (s : Textures) : s.bindCsPools.gl = s.gl := by
  unfold bindCsPools
  split_ifs <;> rfl

lemma bindCsPools_csTable (s : Textures) : s.bindCsPools.csTable = s.csTable := by
  unfold bindCsPools
  split_ifs <;> rfl

lemma bindCsPools_pools (s : Textures) : s.bindCsPools.pools = s.pools := by
  unfold bindCsPools
  split_ifs <;> rfl

/-- A launch with handles binds the current pool, unless its batch did so. -/
lemma Inv.bindCsPools (h : s.Inv) :
    s.bindCsPools.Inv ∧ (s.csTable ≠ [] → s.bindCsPools.csPools = some (s.batch, s.gl.ringCur)) := by
  unfold Textures.bindCsPools
  split_ifs with hbind
  · exact ⟨{ h with seq_le := le_rfl, csPools := fun _ => rfl }, fun _ => rfl⟩
  · refine ⟨h, fun hne => h.csPools ?_⟩
    by_contra hseq
    exact hbind ⟨hne, hseq⟩

lemma emitLaunch_inv (h : s.Inv) (hnames : ∀ handle ∈ s.csTable, s.Names handle) :
    s.bindCsPools.emitLaunch.Inv := by
  obtain ⟨hinv, hpools⟩ := h.bindCsPools
  refine { hinv with uses := ?_ }
  refine forall_mem_append.mpr ⟨hinv.uses, forall_mem_map.mpr fun handle hmem => ?_⟩
  rw [bindCsPools_csTable] at hmem
  have hname : s.bindCsPools.Names handle := by
    unfold Names
    rw [bindCsPools_gl, bindCsPools_pools]
    exact hnames handle hmem
  have hcur : s.bindCsPools.csPools = some (s.bindCsPools.batch, s.bindCsPools.gl.ringCur) := by
    rw [hpools (ne_nil_of_mem hmem), batch, batch, bindCsPools_gl]
  exact holds_use hinv hcur hname

/-- The condition for a launch: the room it makes does not bring the batch to a limit. -/
def Launch.Fits (l : Launch) (s : Textures) : Prop :=
  l.grow = false → l.units ≠ [] → ¬ s.gl.crosses launchDw

lemma launchReserve_ends (sizes : Sizes) {units : List Words} :
    Ends (fun s => (s.Safe ∧ s.GenRoom) ∧ (units ≠ [] → ¬ s.gl.crosses launchDw))
      (onGl (Context.pushReserve (Context.flush sizes false) launchDw))
      fun s => (s.Safe ∧ s.GenRoom) ∧ (units ≠ [] → ¬ s.gl.full) := by
  have hflush : Context.Flushes False (Context.flush sizes false) := Context.flush_flushes false
  refine Spec.of_focus fun s ⟨⟨hsafe, hgen⟩, hcross⟩ => ?_
  have hstable := kept_stable side_genRoom s
  have hleaves : Context.Leaves _ (Context.flush sizes false) := hstable.flush false
  have hkept := Spec.enter (s := s.gl) (hstable.pushReserve hleaves launchDw) ⟨hsafe.2.1, hsafe.2.2, hgen⟩
  have hgood := ((pushReserve_spec hflush (by decide : launchDw ≤ pushSize)).enter hsafe.1).fallback
    fun _ _ _ => trivial
  refine ((hgood.both hkept).both (pushReserve_full hflush hsafe.1 launchDw)).post
    ?_ fun _ _ _ => trivial
  rintro _ c ⟨⟨⟨hgood, -⟩, hbacked, hinv, hgen⟩, hfull⟩
  refine ⟨⟨⟨hgood.weaken fun h => h.elim, hbacked, hinv⟩, hgen⟩, fun hne => ?_⟩
  rw [hfull]
  exact hcross hne

lemma launchSlm_ends (l : Launch) :
    Ends (fun s => (s.Safe ∧ s.GenRoom) ∧ l.Fits s) (slmEnsure sizes l.grow)
      fun s => (s.Safe ∧ s.GenRoom) ∧ (l.units ≠ [] → ¬ s.gl.crosses launchDw) := by
  cases hgrow : l.grow with
  | false => exact .of_pure fun s hs => ⟨hs.1, hs.2 hgrow⟩
  | true =>
    refine (slmEnsure_ends side_genRoom (fun _ h => h) true).weaken (fun _ hs => hs.1) ?_ fun _ _ h => h
    exact fun _ s hs => ⟨hs.1, fun _ => (hs.2 rfl).not_crosses launchDw⟩

lemma launch_ends (l : Launch) :
    Ends (fun s => (s.Safe ∧ s.GenRoom) ∧ l.Fits s) (launchGrid sizes l) Safe := by
  have hunits : l.units.length ≤ texPoolSlots := l.units_le.trans (by decide)
  refine .next (launchSlm_ends l) (.next (launchReserve_ends sizes) ?_)
  refine .next (textureReserve_ends side_genRoom hunits fun _ hempty _ => hempty.not_full)
    (.write Uploaded ?_ ?_)
  · rintro s ⟨⟨hsafe, hgen⟩, hroom, hfull⟩
    exact uploadTexHandles_uploaded hsafe hgen hroom hfull
  refine .next (launchBegin_ends sizes) (.write _ ?_ (body_ends l.fits l.writes))
  rintro s ⟨hopened, hinv, hnames⟩
  refine ⟨?_, emitLaunch_inv hinv hnames⟩
  show s.bindCsPools.gl.Good False 937 ∧ s.bindCsPools.gl.pushCur + launchDw ≤ pushSize
  rwa [bindCsPools_gl]

/-! ## Runs -/

/-- The condition under which a step keeps handles right. -/
def Meets (s : Textures) : Action → Prop
  | .draw _ => s.texSlotGen.toNat + 1 < 2 ^ 32
  | .launch l => s.texSlotGen.toNat + 1 < 2 ^ 32 ∧
      (l.grow = false → l.units ≠ [] → ¬ s.gl.crosses launchDw)
  | .bind _ _ => True
  | .other _ => True

instance decidableMeets (s : Textures) (action : Action) : Decidable (Meets s action) :=
  match action with
  | .draw _ => inferInstanceAs (Decidable (_ < _))
  | .launch _ => inferInstanceAs (Decidable (_ ∧ _))
  | .bind _ _ => .isTrue trivial
  | .other _ => .isTrue trivial

lemma other_leaves {inv : Context → Prop} (h : Context.Stable inv)
    (hshadows : ∀ (c : Context) shadows, inv c → inv { c with shadows := shadows })
    (hrendered : ∀ c : Context, inv c → inv { c with shadowWritten := true })
    (hcaptured : ∀ c : Context, inv c → inv { c with soActive := true }) (action : PushChunks.Action) :
    Context.Leaves inv (Context.act sizes action) := by
  have hflush : Context.Leaves inv (Context.flush sizes false) := h.flush false
  cases action with
  | command command => exact h.push hflush command
  | reserve dw fits => exact h.pushReserve hflush dw
  | framebuffer shadows =>
    exact .next (h.fbShadowEnd hflush) (.of_modify fun c hc => hshadows c shadows hc)
  | shadowBegin => exact h.fbShadowCopy hflush
  | rendered => exact .of_modify fun c hc => hrendered c hc
  | shadowEnd => exact h.fbShadowEnd hflush
  | captured => exact .of_modify fun c hc => hcaptured c hc
  | soPause => exact h.soPause hflush
  | flush fence => exact h.flush fence

lemma other_ends (action : PushChunks.Action) : Ends Safe (onGl (Context.act sizes action)) Safe := by
  have hgood : Context.Keeping False (Context.Good False 999) (Context.act sizes action)
      fun _ => Context.Good False 999 := Context.act_spec fun h => h.elim
  exact onGl_ends (fun s => Backed s.gl ∧ s.Inv) hgood fun s =>
    other_leaves (backed_stable.and (inv_stable s)) (fun _ _ h => ⟨h.1, { h.2 with }⟩)
      (fun _ h => ⟨h.1, { h.2 with }⟩) (fun _ h => ⟨h.1, { h.2 with }⟩) action

lemma act_ends {action : Action} (hs : s.Safe) (hmeets : Meets s action) :
    Ends (s = ·) (act sizes action) Safe := by
  cases action with
  | draw d => exact (draw_ends d).enter ⟨hs, hmeets⟩
  | launch l => exact (launch_ends l).enter ⟨⟨hs, hmeets.1⟩, hmeets.2⟩
  | bind units fits =>
    refine .change ?_
    exact ⟨hs.1, hs.2.1, { hs.2.2 with bound_le := fits }⟩
  | other action => exact (other_ends action).enter hs

lemma step_eq_some {action : Action} :
    step sizes s action = some t ↔ exec (act sizes action) s = (.ok (), t) := by
  unfold step
  rcases exec (act sizes action) s with ⟨r, u⟩
  cases r <;> simp

lemma run_safe {pace : List Tick} {actions : List Action}
    (hmeets : Along (step sizes) Meets (start pace) actions)
    (hrun : run (step sizes) (start pace) actions = some s) : s.Safe := by
  refine run_invariant_along (fun s a t hs hguard hstep => ?_) ?_ hmeets hrun
  · exact (act_ends hs hguard s rfl).1 () t (step_eq_some.mp hstep)
  · exact ⟨Context.start_good pace, ⟨le_rfl, .inl rfl⟩, start_inv pace⟩

/-- The batch is open, or it was submitted and has not completed. -/
def Unretired (s : Textures) (batch : ℕ) : Prop :=
  ∀ sub, s.gl.submitted[batch]? = some sub → s.gl.done < sub.token

/-- In runs whose launches do not bring a batch to a limit with the room they make, each
handle that a draw or launch uses names its own descriptor in the pool bound in the same batch
until the batch retires; and a push after a reserve of its words flushes exactly where the
reserve brings the batch to a limit. -/
theorem handles_name_descriptors (sizes : Sizes) (pace : List Tick) (actions : List Action)
    (s : Textures) (hmeets : Along (step sizes) Meets (start pace) actions)
    (hrun : run (step sizes) (start pace) actions = some s) :
    (∀ u ∈ s.uses, ∃ pool, u.pool = some pool ∧ u.handle.slot < texPoolSlots ∧
      (s.Unretired u.batch → s.pools pool u.handle.slot = u.handle.words)) ∧
    ∀ dw c, exec (Context.pushReserve (Context.flush sizes false) dw) s.gl = (.ok (), c) →
      (c.full = true ↔ s.gl.crosses dw = true) := by
  have hsafe := run_safe hmeets hrun
  constructor
  · intro u hu
    obtain ⟨pool, hpool, hslot, ⟨-, rfl, hnames⟩ | ⟨sub, hsub, -, -, hwords⟩⟩ := hsafe.2.2.uses u hu
    · exact ⟨_, hpool, hslot, fun _ => hnames.2⟩
    · refine ⟨pool, hpool, hslot, fun hunretired => hwords.resolve_left ?_⟩
      exact Nat.not_le_of_lt (hunretired sub hsub)
  · intro dw c hc
    have hflush : Context.Flushes False (Context.flush sizes false) := Context.flush_flushes false
    rw [((pushReserve_full hflush hsafe.1 dw) s.gl rfl).1 () c hc]

/-- A launch of a shader with one texture. -/
def texturedLaunch : Launch := ⟨false, [List.replicate 16 7], by decide, [.words 40], by decide, by decide⟩

/-- A draw with two textures, a launch, and the flush of their batch. -/
def texturedBatch : List Action :=
  [.bind [List.replicate 16 1, List.replicate 16 2] (by decide),
    .draw ⟨false, false, false, false, false, ⟨2048, [.words 200], by decide⟩, by decide⟩,
    .launch texturedLaunch, .other (.flush false)]

theorem handles_name_descriptors_textured :
    ∃ s, run (step ⟨1, 19, 20⟩) (start []) texturedBatch = some s ∧
      s.uses.map (fun u => (u.batch, u.pool, u.handle.slot)) = [(0, some 0, 0), (0, some 0, 1), (0, some 0, 2)] ∧
      ∀ u ∈ s.uses, ∃ pool, u.pool = some pool ∧ u.handle.slot < texPoolSlots ∧
        (s.Unretired u.batch → s.pools pool u.handle.slot = u.handle.words) := by
  have hview : (run (step ⟨1, 19, 20⟩) (start []) texturedBatch).map
      (fun s => s.uses.map fun u => (u.batch, u.pool, u.handle.slot)) =
        some [(0, some 0, 0), (0, some 0, 1), (0, some 0, 2)] := by decide +kernel
  obtain ⟨s, hrun, huses⟩ := exists_run_of_view hview
  have hmeets : Along (step ⟨1, 19, 20⟩) Meets (start []) texturedBatch := by decide +kernel
  exact ⟨s, hrun, huses, (handles_name_descriptors ⟨1, 19, 20⟩ [] texturedBatch s hmeets hrun).1⟩

/-- Commands that fill thirty-two chunks: the next one is the last that the batch may have. -/
def filledBatch : List Action :=
  List.replicate 32 (.other (.command (.plain 65536 65536)))

/-- The launch makes its handle, opens its push with a flush and is recorded in the next
batch, whose pool does not hold the descriptor. -/
theorem handle_of_another_pool :
    ∃ s, run (step ⟨1, 19, 20⟩) (start []) (filledBatch ++ [.launch texturedLaunch]) = some s ∧
      ∃ u ∈ s.uses, ∃ pool, u.pool = some pool ∧ s.Unretired u.batch ∧
        s.pools pool u.handle.slot ≠ u.handle.words := by
  have hview : (run (step ⟨1, 19, 20⟩) (start []) (filledBatch ++ [.launch texturedLaunch])).map
      (fun s => (s.uses, s.gl.submitted.length, s.pools 1 0)) =
        some ([⟨1, some 1, 0, List.replicate 16 7⟩], 1, List.replicate 16 0) := by decide +kernel
  obtain ⟨s, hrun, hs⟩ := exists_run_of_view hview
  simp only [Prod.mk.injEq] at hs
  obtain ⟨huses, hlen, hpool⟩ := hs
  refine ⟨s, hrun, ⟨1, some 1, 0, replicate 16 7⟩, by rw [huses]; exact mem_singleton.mpr rfl,
    1, rfl, ?_, ?_⟩
  · intro sub hsub
    have hlt : 1 < s.gl.submitted.length := (List.getElem?_eq_some_iff.mp hsub).1
    omega
  · rw [hpool]
    decide

end Textures

end NvidiaProlapse.TexturePools
