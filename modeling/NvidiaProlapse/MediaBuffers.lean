import NvidiaProlapse.MediaUnits

/-!
# Fetched buffers and the fences of the copies

A fetched buffer and the fence of the copy into it belong to one output until the
buffer is given back and the fence is closed. The output of the end-of-stream unit is
kept apart in a single place, so that unit may have one picture only.
-/
namespace NvidiaProlapse.Media

open Programs List

/-- A buffer in use, with the fence of the copy into it. -/
structure Token where
  cookie : ℕ
  fence : Option ℕ
  deriving DecidableEq, Repr

/-- All buffers that were fetched are in use or left the map, each once, and all fences that were
returned are in use or closed. -/
structure Balance (pool : Pool) (fences : Fences) (tokens : List Token) : Prop where
  first : 1 ≤ pool.nextCookie
  blocks : pool.blocks.Perm (tokens.map (·.cookie))
  fetched : (pool.left ++ pool.blocks).Perm (List.range' 1 (pool.nextCookie - 1))
  returned : (fences.closed ++ tokens.filterMap (·.fence)).Perm (List.range fences.opened)

namespace Balance

variable {pool : Pool} {fences : Fences} {tokens tokens' : List Token} {cookie : ℕ}

lemma perm (h : Balance pool fences tokens) (hperm : tokens.Perm tokens') :
    Balance pool fences tokens' :=
  ⟨h.first, h.blocks.trans (hperm.map _), h.fetched,
    ((hperm.filterMap _).append_left _).symm.trans h.returned⟩

lemma fetch (h : Balance pool fences tokens) :
    Balance pool.fetch fences (⟨pool.nextCookie, none⟩ :: tokens) := by
  obtain ⟨n, hn⟩ := Nat.exists_eq_add_of_le' h.first
  refine ⟨Nat.le_add_left 1 _, ?_, ?_, h.returned⟩
  · exact (perm_append_singleton _ _).trans (h.blocks.cons _)
  show (pool.left ++ (pool.blocks ++ [pool.nextCookie])).Perm (range' 1 (pool.nextCookie + 1 - 1))
  have hfetched := h.fetched
  rw [hn, Nat.add_sub_cancel] at hfetched ⊢
  rw [← append_assoc, range'_1_concat, Nat.add_comm 1 n]
  exact hfetched.append_right _

lemma returnFence (h : Balance pool fences (⟨cookie, none⟩ :: tokens)) :
    Balance pool { fences with opened := fences.opened + 1 }
      (⟨cookie, some fences.opened⟩ :: tokens) := by
  refine { h with returned := ?_ }
  rw [range_succ]
  refine perm_middle.trans ?_
  refine (h.returned.cons fences.opened).trans ?_
  exact (perm_append_singleton _ _).symm

lemma closeFence {fence : Option ℕ} (h : Balance pool fences (⟨cookie, fence⟩ :: tokens)) :
    Balance pool { fences with closed := fences.closed ++ fence.toList }
      (⟨cookie, none⟩ :: tokens) := by
  refine { h with returned := ?_ }
  have hreturned := h.returned
  cases fence with
  | none =>
    show (fences.closed ++ [] ++ _).Perm _
    rw [append_nil]
    exact hreturned
  | some f =>
    rw [append_assoc]
    exact hreturned

lemma dropBlock (h : Balance pool fences (⟨cookie, none⟩ :: tokens)) :
    Balance (pool.dropBlock cookie) fences tokens := by
  have hmem : cookie ∈ pool.blocks := h.blocks.mem_iff.mpr mem_cons_self
  unfold Pool.dropBlock
  rw [if_pos hmem]
  refine ⟨h.first, ?_, ?_, h.returned⟩
  · have herase := h.blocks.erase cookie
    rw [map_cons, erase_cons_head] at herase
    exact herase
  · rw [append_assoc]
    exact ((perm_cons_erase hmem).symm.append_left _).trans h.fetched

/-- With no buffer in use all have left and all fences are closed. -/
lemma settled (h : Balance pool fences []) :
    pool.blocks = [] ∧ pool.left.Perm (range' 1 (pool.nextCookie - 1)) ∧
      fences.closed.Perm (range fences.opened) := by
  have hblocks : pool.blocks = [] := h.blocks.eq_nil
  have hfetched := h.fetched
  have hreturned := h.returned
  rw [hblocks, append_nil] at hfetched
  rw [filterMap_nil, append_nil] at hreturned
  exact ⟨hblocks, hfetched, hreturned⟩

end Balance

def Shown.token (s : Shown) : Token := ⟨s.buffer.cookie, s.releaseFence⟩

/-- The buffers of the outputs. -/
def tokensOf (outs : List Output) : List Token := (outs.filterMap (·.shown)).map Shown.token

lemma tokensOf_append (outs outs' : List Output) :
    tokensOf (outs ++ outs') = tokensOf outs ++ tokensOf outs' := by
  unfold tokensOf
  rw [filterMap_append, map_append]

/-- Empty outputs have no buffers. -/
lemma tokensOf_empty {outs : List Output} (h : ∀ o ∈ outs, o.shown = none) : tokensOf outs = [] := by
  unfold tokensOf
  rw [filterMap_eq_nil_iff.mpr h]
  rfl

lemma tokensOf_indices (is : List ℕ) : tokensOf (is.map fun i => { index := i }) = [] := by
  refine tokensOf_empty fun o ho => ?_
  obtain ⟨i, -, rfl⟩ := mem_map.mp ho
  rfl

/-- The picture that waits for the end of the stream. -/
def Decoder.deferred (d : Decoder) : Option Shown := d.eosOut.bind (·.shown)

namespace Machine

def tokens (m : Machine) : List Token := tokensOf m.out ++ m.dec.deferred.toList.map Shown.token

end Machine

/-- One picture of the end-of-stream unit at most, and none before it was taken. -/
structure Lone (l : Ledger) (deferred : Option Shown) : Prop where
  closed : l.eosPending = false → deferred = none
  single : l.eosPending = true →
    l.waiting.count l.eosIndex + deferred.toList.length ≤ if l.eosSubmitted then 1 else 0

/-- Every buffer is in the output of a picture. -/
structure Kept (m : Machine) : Prop where
  balance : Balance m.pool m.fences m.tokens
  lone : Lone m.ledger m.dec.deferred

/-- What is left when a call returns early: after an error the decoder is not asked again. -/
structure Stopped (e : Stop) (m : Machine) : Prop where
  balance : Balance m.pool m.fences m.tokens
  lone : e = .again → Lone m.ledger m.dec.deferred

variable {m : Machine} {o : Output} {l₀ : Ledger} {prior : List ℕ} {a : QueueAnswer}

lemma Kept.stopped (h : Kept m) (e : Stop) : Stopped e m := ⟨h.balance, fun _ => h.lone⟩

lemma Stopped.error (h : Balance m.pool m.fences m.tokens) : Stopped .error m := by
  refine ⟨h, ?_⟩
  intro hagain
  cases hagain

/-- The program keeps every buffer in the output of a picture. -/
def Careful {α : Type} (p : Prog Machine Stop α) : Prop := Spec Kept p (fun _ => Kept) Stopped

variable {m : Machine} {l l' : Ledger} {deferred : Option Shown} {pic : Picture} {u : InputUnit}

namespace Lone

/-- Pictures may go. -/
lemma mono (h : Lone l deferred) (hpending : l'.eosPending = l.eosPending)
    (hsub : l'.eosSubmitted = l.eosSubmitted) (hindex : l'.eosIndex = l.eosIndex)
    (hcount : l'.waiting.count l.eosIndex ≤ l.waiting.count l.eosIndex) : Lone l' deferred := by
  refine ⟨fun hp => h.closed (hpending.symm.trans hp), fun hp => ?_⟩
  have hsingle := h.single (hpending.symm.trans hp)
  rw [hsub, hindex]
  omega

section

variable (h : Lone (l.taking pic) deferred)

include h

lemma drop (hheld : l.held = none) : Lone l deferred := by
  refine h.mono rfl rfl rfl ?_
  have hsub : l.waiting.Sublist (l.taking pic).waiting := by
    unfold Ledger.waiting Ledger.taking
    rw [hheld]
    exact sublist_cons_self _ _
  exact hsub.count_le _

/-- A picture of the end-of-stream unit comes only if none waits. -/
lemma none_deferred (heos : l.eosPending = true) (hts : pic.timestamp = l.eosIndex) :
    deferred = none := by
  have hsingle := h.single heos
  have hcount : 1 ≤ (l.taking pic).waiting.count l.eosIndex := by
    refine one_le_count_iff.mpr ?_
    rw [← hts]
    exact mem_cons_self
  have hindex : (l.taking pic).eosIndex = l.eosIndex := rfl
  rw [hindex] at hsingle
  cases deferred with
  | none => rfl
  | some s =>
    exfalso
    rw [Option.toList_some, length_singleton] at hsingle
    split_ifs at hsingle <;> omega

/-- The picture now waits for the end of the stream. -/
lemma defer (heos : l.eosPending = true) (hts : pic.timestamp = l.eosIndex) (hheld : l.held = none)
    (s : Shown) : Lone l (some s) := by
  have hnone := h.none_deferred heos hts
  refine ⟨fun hp => ?_, fun _ => ?_⟩
  · rw [heos] at hp
    cases hp
  have hsingle := h.single heos
  have hcount : (l.taking pic).waiting.count l.eosIndex = l.waiting.count l.eosIndex + 1 := by
    unfold Ledger.waiting Ledger.taking
    rw [hheld, ← hts]
    exact count_cons_self
  have hindex : (l.taking pic).eosIndex = l.eosIndex := rfl
  have hsub : (l.taking pic).eosSubmitted = l.eosSubmitted := rfl
  rw [hindex, hsub, hcount, hnone] at hsingle
  simpa using hsingle

end

end Lone

/-! ## Pictures -/

/-- The units in front of a picture's are reported without buffers. -/
lemma finishOlderThan_tokens (m : Machine) (ts : ℕ) : (m.finishOlderThan ts).tokens = m.tokens := by
  unfold Machine.tokens Machine.finishOlderThan
  rw [tokensOf_append, tokensOf_indices, append_nil]
  rfl

/-- A picture that is its unit's output takes the buffer with it. -/
lemma output_kept {s : Shown} {size : ℕ × ℕ} (hshown : o.shown = some s)
    (hbalance : Balance m.pool m.fences (s.token :: m.tokens))
    (hlone : Lone (m.ledger.taking pic) m.dec.deferred) (hheld : m.dec.held = none) :
    let m := m.setDec fun d => { d with pending := d.pending.erase pic.timestamp, currentSize := size }
    Kept (if m.dec.eosPending ∧ pic.timestamp = m.dec.eosIndex then
      m.setDec fun d => { d with eosOut := some o } else m.report o) := by
  have htoken : tokensOf [o] = [s.token] := by
    unfold tokensOf
    rw [filterMap_cons_some hshown]
    rfl
  dsimp only [Machine.setDec]
  split_ifs with heos
  · have hnone := hlone.none_deferred heos.1 heos.2
    have htokens : m.tokens = tokensOf m.out := by
      unfold Machine.tokens
      rw [hnone]
      exact append_nil _
    refine ⟨hbalance.perm ?_, ?_⟩
    · rw [htokens]
      show (s.token :: tokensOf m.out).Perm (tokensOf m.out ++ o.shown.toList.map Shown.token)
      rw [hshown]
      exact (perm_append_singleton _ _).symm
    · have hlone' : Lone m.ledger o.shown := by
        rw [hshown]
        exact hlone.defer heos.1 heos.2 hheld s
      exact ⟨hlone'.closed, hlone'.single⟩
  · refine ⟨hbalance.perm ?_, ?_⟩
    · show (s.token :: (tokensOf m.out ++ m.dec.deferred.toList.map Shown.token)).Perm
        (tokensOf (m.out ++ [o]) ++ m.dec.deferred.toList.map Shown.token)
      rw [tokensOf_append, htoken, append_assoc]
      exact perm_middle.symm
    · have hlone' : Lone m.ledger m.dec.deferred := hlone.drop hheld
      exact ⟨hlone'.closed, hlone'.single⟩

lemma finishPicture_kept {buf : OutputBuffer} {fence : Option ℕ}
    (hbalance : Balance m.pool m.fences (⟨buf.cookie, fence⟩ :: m.tokens))
    (hlone : Lone (m.ledger.taking pic) m.dec.deferred) (hheld : m.dec.held = none) :
    Kept (finishPicture m pic buf fence) := by
  unfold finishPicture
  cases m.dec.codec.reorders with
  | true => exact output_kept rfl hbalance hlone hheld
  | false =>
    refine output_kept (m := m.finishOlderThan pic.timestamp) rfl ?_ ⟨hlone.closed, hlone.single⟩ hheld
    rw [finishOlderThan_tokens]
    exact hbalance

lemma copyPicture_kept (pic : Picture) (a : EmitAnswer) (format : ℕ) (acquire : Option ℕ) :
    Spec (fun m => Balance m.pool m.fences m.tokens ∧ Lone (m.ledger.taking pic) m.dec.deferred)
      (copyPicture pic a format acquire) (fun _ => Kept) Stopped := by
  refine .read fun s hs => ?_
  let balanced : Machine → Prop := fun m => Balance m.pool m.fences m.tokens
  -- The buffer is in hand until it is given back or the picture is reported.
  refine .write (fun m => Balance m.pool m.fences (⟨s.pool.nextCookie, none⟩ :: m.tokens) ∧
    Lone (m.ledger.taking pic) m.dec.deferred ∧ m.dec.held = none) ?_ ?_
  · rintro _ rfl
    exact ⟨hs.1.fetch, ⟨hs.2.closed, hs.2.single⟩, rfl⟩
  refine .either ?_ (.either ?_ ?_)
  · exact .write balanced (fun _ h => h.1.dropBlock) (die_spec _ fun _ h => .error h)
  · exact .write balanced (fun _ h => h.1.dropBlock) (fail_spec _ _ fun _ _ h => .error h)
  refine .write (fun m => Balance m.pool m.fences (⟨s.pool.nextCookie, none⟩ :: m.tokens) ∧
    Lone (m.ledger.taking pic) m.dec.deferred ∧ m.dec.held = none) ?_ ?_
  · rintro m ⟨hbalance, hlone, hheld⟩
    exact ⟨{ hbalance with }, hlone, hheld⟩
  cases a.copyOut with
  | failed rc => exact .write balanced (fun _ h => h.1.dropBlock) (fail_spec _ _ fun _ _ h => .error h)
  | done fenced =>
    refine .read fun t ht => ?_
    obtain ⟨fence, hfence⟩ : ∃ f, f = if fenced then some t.fences.opened else none := ⟨_, rfl⟩
    rw [← hfence]
    refine .write (fun m => Balance m.pool m.fences (⟨s.pool.nextCookie, fence⟩ :: m.tokens) ∧
      Lone (m.ledger.taking pic) m.dec.deferred ∧ m.dec.held = none) ?_ ?_
    · rintro _ rfl
      obtain ⟨hbalance, hlone, hheld⟩ := ht
      refine ⟨?_, hlone, hheld⟩
      cases fenced with
      | true =>
        rw [hfence]
        exact hbalance.returnFence
      | false =>
        rw [hfence]
        exact hbalance
    refine .either ?_ ?_
    · exact .write balanced (fun _ h => h.1.closeFence.dropBlock) (fail_spec _ _ fun _ _ h => .error h)
    · exact .of_modify fun _ h => finishPicture_kept h.1 h.2.1 h.2.2

lemma emitPicture_kept (pic : Picture) (a : EmitAnswer) :
    Spec (fun m => Balance m.pool m.fences m.tokens ∧ Lone (m.ledger.taking pic) m.dec.deferred)
      (emitPicture pic a) (fun _ => Kept) Stopped := by
  unfold emitPicture
  cases a.fetch with
  | again =>
    refine .write Kept ?_ (.of_throw fun _ h => h.stopped _)
    exact fun _ h => ⟨h.1, h.2⟩
  | failed rc =>
    exact .write (fun m => Balance m.pool m.fences m.tokens) (fun _ h => h.1)
      (die_spec _ fun _ h => .error h)
  | block format acquire => exact copyPicture_kept pic a format acquire

/-! ## drain -/

lemma drainOnce_kept (r : Round) : Careful (drainOnce r) := by
  refine .read fun s hs => ?_
  cases hheld : s.dec.held with
  | some pic =>
    refine .seq ((emitPicture_kept pic r.emit).enter ⟨hs.balance, ?_⟩) fun _ =>
      Spec.ret
    have hsame : s.ledger.taking pic = s.ledger := by
      show ({ s.ledger with held := some pic } : Ledger) = _
      rw [← hheld]
      rfl
    rw [hsame]
    exact hs.lone
  | none =>
    cases r.next with
    | failed rc => exact fail_spec _ _ fun _ _ h => .error (h ▸ hs.balance)
    | pick k =>
      dsimp only
      cases hnext : s.lib.nextPicture s.dec.codec.reorders k with
      | none => exact .unchanged hs
      | some next =>
        obtain ⟨pic, lib⟩ := next
        obtain ⟨i, p, hp, rfl, hlib, -⟩ := nextPicture_some hnext
        refine .write _ ?_ (.seq (emitPicture_kept p.picture r.emit) fun _ =>
          Spec.ret)
        rintro _ rfl
        refine ⟨hs.balance, hs.lone.mono rfl rfl rfl (le_of_eq ?_)⟩
        -- The picture is in hand and no longer in the library.
        obtain ⟨hi, hget⟩ := List.getElem?_eq_some_iff.mp hp
        have hperm : ((p :: lib.produced).map (·.picture.timestamp)).Perm s.ledger.waiting := by
          have hwaiting : s.ledger.waiting = s.lib.produced.map (·.picture.timestamp) := by
            show s.dec.held.toList.map _ ++ _ = _
            rw [hheld]
            rfl
          rw [hwaiting, hlib, ← hget]
          exact (List.getElem_cons_eraseIdx_perm hi).map _
        exact hperm.count_eq _

lemma drainLoop_kept (rounds : List Round) : Careful (drainLoop rounds) := by
  induction rounds with
  | nil => exact .seq (drainOnce_kept .emptyPool) fun _ => .ret
  | cons r rs ih =>
    refine .seq (drainOnce_kept r) fun go => ?_
    cases go with
    | true => exact ih
    | false => exact .ret

lemma finishAll_tokens (m : Machine) : m.finishAll.tokens = m.tokens := by
  unfold Machine.tokens Machine.finishAll
  rw [tokensOf_append, tokensOf_indices, append_nil]
  rfl

lemma finishStream_kept (h : Kept m) : Kept (finishStream m) := by
  unfold finishStream
  split_ifs with heos
  · refine ⟨h.balance.perm ?_, fun _ => rfl, nofun⟩
    have htokens := finishAll_tokens m
    show (tokensOf m.out ++ m.dec.deferred.toList.map Shown.token).Perm
      (tokensOf (m.finishAll.out ++ [{ m.dec.eosOut.getD { index := 0 } with
        index := m.dec.eosIndex, eos := true }]) ++ [])
    rw [append_nil, tokensOf_append]
    have hdeferred : tokensOf [{ m.dec.eosOut.getD { index := 0 } with
        index := m.dec.eosIndex, eos := true }] = m.dec.deferred.toList.map Shown.token := by
      unfold Decoder.deferred
      cases m.dec.eosOut with
      | none => rfl
      | some o =>
        obtain ⟨index, shown, corrupt, eos⟩ := o
        cases shown with
        | none | some s => rfl
    rw [hdeferred]
    exact List.Perm.of_eq htokens.symm
  · exact h

lemma drain_kept (rounds : List Round) : Careful (drain rounds) := by
  refine .read fun s hs => .either ?_ ?_
  · exact .refused (hs.stopped _)
  exact .seq ((drainLoop_kept rounds).enter hs) fun _ =>
    Spec.of_modify fun _ h => finishStream_kept h

/-! ## A new session -/

lemma finishResize_kept (a : ResizeAnswer) (hsilent : ∀ d ∈ a.csd, d.silent = true) :
    Careful (finishResize a) := by
  refine .next (drain_kept a.rounds) (.write Kept ?_ (.read fun s hs => ?_))
  · intro m h
    constructor
    · have htokens := finishAll_tokens m
      show Balance m.pool m.fences m.finishAll.tokens
      rw [htokens]
      exact h.balance
    · have hgone : Lone { m.ledger with produced := [] } m.dec.deferred := by
        refine h.lone.mono rfl rfl rfl ?_
        have hsub : (m.dec.held.toList.map Picture.timestamp ++ []).Sublist m.ledger.waiting := by
          rw [append_nil]
          exact sublist_append_left _ _
        exact hsub.count_le _
      exact ⟨hgone.closed, hgone.single⟩
  · cases a.openError with
    | some err => exact die_spec _ fun _ h => .error (h ▸ hs.balance)
    | none =>
      refine .write Kept ?_ (replayCsd_keeps _ _ hsilent fun _ _ h => .error h.balance)
      rintro _ rfl
      exact ⟨hs.balance, hs.lone.closed, hs.lone.single⟩

/-! ## queue -/

lemma Kept.report (h : Kept m) (ho : o.shown = none) : Kept (m.report o) := by
  refine ⟨?_, h.lone.closed, h.lone.single⟩
  have htokens : (m.report o).tokens = m.tokens := by
    have hnone : tokensOf [o] = [] := tokensOf_empty (by simpa using ho)
    unfold Machine.tokens Machine.report
    rw [tokensOf_append, hnone, append_nil]
  rw [htokens]
  exact h.balance

lemma queueConfig_kept (u : InputUnit) (a : Decoded) (hsilent : a.silent = true) :
    Careful (queueConfig u a) := by
  refine .read fun s hs => .either ?_ ?_
  · cases a with
    | bitstream pictures =>
      obtain rfl : pictures = [] := isEmpty_iff.mp hsilent
      refine .write Kept ?_ (.of_modify fun m hm => hm.report rfl)
      rintro _ rfl
      rw [setLib_produce_nil]
      exact hs
    | accepted pictures =>
      obtain rfl : pictures = [] := isEmpty_iff.mp hsilent
      refine .write Kept ?_ (.of_modify fun m hm => hm.report rfl)
      rintro _ rfl
      rw [setLib_produce_nil]
      exact ⟨hs.balance, hs.lone.closed, hs.lone.single⟩
    | again | resize | failed rc => exact fail_spec _ _ fun _ _ h => .error (h ▸ hs.balance)
  · refine .change ?_
    exact hs.report rfl

/-- The unit and its answers bring one picture at most. -/
def Decoded.frugal (u : InputUnit) : Decoded → Bool
  | .accepted pictures => decide (pictures.length ≤ 1)
  | .bitstream pictures => if u.eos then decide (pictures.length ≤ 1) else pictures.isEmpty
  | _ => true

/-- Only the unit that ends the stream is offered while its end is pending. -/
structure Offered (u : InputUnit) (l : Ledger) : Prop where
  unsubmitted : l.eosSubmitted = false
  ending : u.eos = true → l.eosPending = true ∧ l.eosIndex = u.index
  other : u.eos = false → l.eosPending = false

/-- The pictures of the unit that ends the stream. -/
lemma Lone.produce {n : ℕ} (h : Lone l deferred) (hoffered : Offered u l) (hn : n ≤ 1)
    (hueos : u.eos = true) (hsub : l'.eosSubmitted = true) (hindex : l'.eosIndex = l.eosIndex)
    (hwaiting : l'.waiting = l.waiting ++ replicate n u.index) : Lone l' none := by
  obtain ⟨hpend, heq⟩ := hoffered.ending hueos
  refine ⟨fun _ => rfl, fun _ => ?_⟩
  have hsingle := h.single hpend
  rw [hoffered.unsubmitted, if_neg (by decide)] at hsingle
  rw [hsub, if_pos rfl, hindex, hwaiting, count_append, heq, count_replicate_self]
  rw [heq] at hsingle
  simp only [Option.toList_none, length_nil]
  omega

/-- Before the end of the stream was taken nothing is deferred. -/
lemma Lone.none_unsubmitted (h : Lone l deferred) (hsub : l.eosSubmitted = false) :
    deferred = none := by
  cases hp : l.eosPending with
  | false => exact h.closed hp
  | true =>
    have hsingle := h.single hp
    rw [hsub, if_neg (by decide)] at hsingle
    cases deferred with
    | none => rfl
    | some s =>
      rw [Option.toList_some, length_singleton] at hsingle
      omega

/-- The last unit is taken. -/
lemma Kept.ended {pictures : List Format} (h : Kept m) (hoffered : Offered u m.ledger)
    (hlen : pictures.length ≤ 1) (hueos : u.eos = true) : Lone { m.ledger with
      produced := (m.lib.produce u.index pictures).endOfStream.produced
      eosSubmitted := true } none := by
  refine h.lone.produce hoffered hlen hueos rfl rfl ?_
  show m.dec.held.toList.map _ ++ _ = _ ++ _ ++ _
  rw [endOfStream_timestamps, produce_timestamps, append_assoc]
  rfl

lemma acceptUnit_kept {pictures : List Format} (h : Kept m) (hoffered : Offered u m.ledger)
    (hfrugal : (Decoded.accepted pictures).frugal u = true) : Kept (acceptUnit m u pictures) := by
  have hlen : (if u.data = [] then [] else pictures).length ≤ 1 := by
    split_ifs
    · exact Nat.zero_le 1
    · simpa [Decoded.frugal] using hfrugal
  have hnone := h.lone.none_unsubmitted hoffered.unsubmitted
  unfold acceptUnit
  generalize (if u.data = [] then [] else pictures) = pictures at hlen ⊢
  cases hueos : u.eos with
  | true =>
    have hlone := h.ended hoffered hlen hueos
    rw [← hnone] at hlone
    by_cases hd : u.data = []
    · simp only [hd, if_true]
      exact ⟨h.balance, hlone.closed, hlone.single⟩
    · simp only [hd, if_true, if_false, or_true]
      exact ⟨h.balance, hlone.closed, hlone.single⟩
  | false =>
    have hclosed : m.dec.eosPending = false := hoffered.other hueos
    have hlone : ∀ l, l.eosPending = m.dec.eosPending → Lone l m.dec.deferred := by
      intro l hl
      refine ⟨fun _ => hnone, fun hp => ?_⟩
      rw [hl, hclosed] at hp
      cases hp
    simp only [Bool.false_eq_true, if_false, or_false]
    split_ifs
    · exact ⟨h.balance, hlone _ rfl⟩
    · exact ⟨h.balance, hlone _ rfl⟩
    · refine .report ?_ rfl
      exact ⟨h.balance, hlone _ rfl⟩

lemma rejectUnit_kept (pictures : List Format) (endOfStream : ℤ)
    (hfrugal : (Decoded.bitstream pictures).frugal u = true) :
    Spec (fun m => Kept m ∧ Offered u m.ledger) (rejectUnit u pictures endOfStream)
      (fun _ => Kept) Stopped := by
  refine .of_states fun s hs => ?_
  obtain ⟨h, hoffered⟩ := hs
  have hnone := h.lone.none_unsubmitted hoffered.unsubmitted
  refine .write (fun m => m = s.setLib fun lib =>
    lib.produce u.index (if u.data = [] then [] else pictures)) ?_ ?_
  · rintro _ rfl
    rfl
  have hlen : (if u.data = [] then [] else pictures).length ≤ 1 := by
    split_ifs
    · exact Nat.zero_le 1
    unfold Decoded.frugal at hfrugal
    split_ifs at hfrugal with hueos
    · simpa using hfrugal
    · rw [isEmpty_iff.mp hfrugal]
      exact Nat.zero_le 1
  generalize hpictures : (if u.data = [] then [] else pictures) = pictures' at hlen
  refine .branch (fun hueos => .either ?_ ?_) fun hueos => ?_
  · refine fail_spec _ _ ?_
    rintro _ error rfl
    exact .error h.balance
  · refine .of_modify ?_
    rintro _ rfl
    have hlone := h.ended hoffered hlen hueos
    refine ⟨?_, hlone.closed, hlone.single⟩
    have hbalance := h.balance
    unfold Machine.tokens at hbalance
    rw [hnone] at hbalance
    exact hbalance
  · refine .of_modify ?_
    rintro _ rfl
    have hnil : pictures' = [] := by
      rw [← hpictures]
      split_ifs
      · rfl
      unfold Decoded.frugal at hfrugal
      dsimp only at hfrugal
      rw [if_neg hueos] at hfrugal
      exact isEmpty_iff.mp hfrugal
    rw [hnil, setLib_produce_nil]
    exact h.report rfl

lemma Offered.advanced {added : List ℕ} (h : Offered u l₀) (hadv : Advanced prior added l₀ l) :
    Offered u l := by
  refine ⟨hadv.eosSubmitted.trans h.unsubmitted, fun hueos => ?_, fun hueos => ?_⟩
  · rw [hadv.eosPending, hadv.eosIndex]
    exact h.ending hueos
  · rw [hadv.eosPending]
    exact h.other hueos

/-- The attempts bring one picture at most. -/
structure Try.Frugal (u : InputUnit) (t : Try) : Prop where
  single : t.decode.frugal u = true
  silent : ∀ d ∈ t.resize.csd, d.silent = true

lemma queueTries_kept (tries : List Try) (hoffered : Offered u l₀)
    (hfrugal : ∀ t ∈ tries, t.Frugal u) :
    Spec (fun m => Advanced prior [] l₀ m.ledger ∧ Kept m) (queueTries u tries)
      (fun _ => Kept) Stopped := by
  have hsub := hoffered.unsubmitted
  induction tries with
  | nil => exact fail_spec _ _ fun _ _ h => .error h.2.balance
  | cons t ts ih =>
    obtain ⟨hsingle, hsilent⟩ := hfrugal t mem_cons_self
    have hrest := ih fun t' ht' => hfrugal t' (mem_cons_of_mem _ ht')
    unfold queueTries
    cases hdecode : t.decode with
    | again =>
      refine .read fun s hs => ?_
      have hdrain : Spec (s = ·) (drain t.rounds)
          (fun _ m => Advanced prior [] l₀ m.ledger ∧ Kept m) Stopped :=
        (((drain_advanced t.rounds hsub).pair (drain_kept t.rounds)).enter hs).post
          (fun _ _ h => ⟨h.1.1, h.2⟩) fun _ _ h => h.2
      refine .next hdrain ?_
      refine .read fun s' hs' => .either ?_ (hrest.enter hs')
      exact .refused (hs'.2.stopped _)
    | bitstream pictures =>
      rw [hdecode] at hsingle
      exact (rejectUnit_kept pictures t.endOfStream hsingle).before
        fun _ h => ⟨h.2, hoffered.advanced h.1⟩
    | resize =>
      refine .next ?_ hrest
      cases t.requiredSize with
      | none => exact fail_spec _ _ fun _ _ h => .error h.2.balance
      | some size =>
        refine .write (fun m => Advanced prior [] l₀ m.ledger ∧ Kept m) ?_ ?_
        · exact fun _ h => ⟨h.1, h.2.balance, h.2.lone.closed, h.2.lone.single⟩
        refine .either (fail_spec _ _ fun _ _ h => .error h.2.balance) ?_
        refine .write (fun m => Advanced prior [] l₀ m.ledger ∧ Kept m) ?_ ?_
        · intro m h
          refine ⟨h.1.due, h.2.balance, ?_⟩
          have hdue : Lone (m.setLib Library.endOfStream).ledger m.dec.deferred := by
            refine h.2.lone.mono rfl rfl rfl (le_of_eq ?_)
            rw [endOfStream_waiting]
          exact ⟨hdue.closed, hdue.single⟩
        · exact ((finishResize_advanced t.resize hsub hsilent).pair
            (finishResize_kept t.resize hsilent)).fallback fun _ _ h => h.2
    | failed rc => exact fail_spec _ _ fun _ _ h => .error h.2.balance
    | accepted pictures =>
      rw [hdecode] at hsingle
      exact .of_modify fun m hm => acceptUnit_kept hm.2 (hoffered.advanced hm.1) hsingle

lemma lastDrain_kept (rounds : List Round) : Careful (lastDrain rounds) := by
  refine .observe (drain_kept rounds) (fun _ => .ret) fun e => ?_
  cases e with
  | again => exact .of_pure fun _ h => ⟨h.balance, h.lone rfl⟩
  | error => exact .of_throw fun _ h => h

/-- What is asked of the answers a unit gets. -/
structure FrugalAnswer (u : InputUnit) (a : QueueAnswer) : Prop where
  config : a.config.silent = true
  resize : ∀ d ∈ a.resize.csd, d.silent = true
  tries : ∀ t ∈ a.tries, t.Frugal u

lemma Decoded.single_of_frugal {d : Decoded} (h : d.frugal u = true) : d.single u = true := by
  cases d with
  | accepted pictures =>
    rw [Decoded.single, Bool.or_eq_true]
    exact .inr h
  | bitstream pictures =>
    rw [Decoded.single, Bool.or_eq_true]
    cases hueos : u.eos with
    | true => exact .inl rfl
    | false =>
      right
      simpa [Decoded.frugal, hueos] using h
  | again | resize | failed rc => rfl

lemma FrugalAnswer.plain (h : FrugalAnswer u a) : PlainAnswer u a :=
  ⟨h.config, h.resize, fun t ht => ⟨Decoded.single_of_frugal (h.tries t ht).single,
    (h.tries t ht).silent⟩⟩

/-- The end of the stream is announced before the library has a picture of its unit. -/
lemma Kept.announce {units : List ℕ} {k : ℕ} (h : Kept m) (hbooks : Books prior units k m.ledger)
    (hsub : m.dec.eosSubmitted = false) (hfree : ¬ m.ledger.Owned prior u.index)
    (hpending : m.dec.eosPending = true → u.eos = true) :
    Lone (announce u m.ledger) m.dec.deferred ∧ Offered u (announce u m.ledger) := by
  have hnone := h.lone.none_unsubmitted hsub
  refine ⟨⟨fun _ => hnone, fun hp => ?_⟩, hsub, fun hueos => ?_, fun hueos => ?_⟩
  · have hueos : u.eos = true := by
      by_contra hueos
      have hp' : (m.dec.eosPending || u.eos) = true := hp
      rw [Bool.eq_false_iff.mpr hueos, Bool.or_false] at hp'
      exact hueos (hpending hp')
    have hcount : m.ledger.waiting.count u.index = 0 := by
      rw [count_eq_zero, hbooks.waiting.mem_iff, hbooks.single hsub]
      intro hmem
      have hunits : u.index ∈ units := by simpa using hmem
      exact hfree (.inr (.inl (hbooks.mem_pending hunits)))
    show m.ledger.waiting.count (if u.eos then u.index else m.dec.eosIndex) + _ ≤ _
    rw [if_pos hueos, hcount, hnone]
    exact Nat.zero_le _
  · simp [Media.announce, hueos]
  · show (m.dec.eosPending || u.eos) = false
    rw [hueos, Bool.or_false, Bool.eq_false_iff]
    intro hp
    exact absurd ((hpending hp).symm.trans hueos) (by decide)

lemma queue_kept (h : Kept m) (hbooks : ∃ units k, Books prior units k m.ledger)
    (hsub : m.dec.eosSubmitted = false) (hfree : ¬ m.ledger.Owned prior u.index)
    (hpending : m.dec.eosPending = true → u.eos = true) (hfrugal : FrugalAnswer u a) :
    Spec (m = ·) (queue u a) (fun _ => Kept) Stopped := by
  have hstart := Advanced.refl hbooks
  refine Spec.read fun s hs => ?_
  subst hs
  refine .either ?_ ?_
  · exact .refused (h.stopped _)
  have hresize : Spec (m = ·) (onlyIf (m.dec.resizing = true) (finishResize a.resize))
      (fun _ t => Advanced prior [] m.ledger t.ledger ∧ Kept t) Stopped := by
    refine .either ?_ (.of_pure fun _ hm => hm ▸ ⟨hstart, h⟩)
    exact (((finishResize_advanced a.resize hsub hfrugal.resize).pair
      (finishResize_kept a.resize hfrugal.resize)).enter ⟨hstart, h⟩).fallback fun _ _ h => h.2
  refine .next hresize (.either ?_ ?_)
  · exact (queueConfig_kept u a.config hfrugal.config).before fun _ h => h.2
  have hannounce : ∀ t : Machine, Advanced prior [] m.ledger t.ledger → Kept t →
      Lone (announce u t.ledger) t.dec.deferred ∧ Offered u (announce u t.ledger) := by
    intro t hadv ht
    obtain ⟨units, k, hunits⟩ := hadv.books
    refine ht.announce hunits (hadv.eosSubmitted.trans hsub) ?_ ?_
    · exact hadv.free hfree
    · exact fun hp => hpending (hadv.eosPending.symm.trans hp)
  have hoffered : Offered u (announce u m.ledger) := (hannounce m hstart h).2
  refine .write (fun t => Advanced prior [] (announce u m.ledger) t.ledger ∧ Kept t) ?_ ?_
  · rintro t ⟨hadv, ht⟩
    refine ⟨hadv.announce hsub hfree, ht.balance, ?_⟩
    obtain ⟨hlone, -⟩ := hannounce t hadv ht
    exact ⟨hlone.closed, hlone.single⟩
  · exact .next (queueTries_kept a.tries hoffered hfrugal.tries) (lastDrain_kept a.rounds)

/-! ## flush -/

/-- With no picture in the end-of-stream output a flush reports no buffer. -/
lemma flushed_tokens (hdeferred : m.dec.deferred = none) :
    tokensOf (flushed m).out = tokensOf m.out := by
  have hempty : ∀ (i : ℕ) (b : Bool), tokensOf [{ m.dec.eosOut.getD { index := 0 } with
      index := i, eos := b }] = [] := by
    intro i b
    refine tokensOf_empty fun o ho => ?_
    rw [mem_singleton.mp ho]
    unfold Decoder.deferred at hdeferred
    cases heos : m.dec.eosOut with
    | none => rfl
    | some o' =>
      rw [heos] at hdeferred
      exact hdeferred
  cases hwas : m.dec.eosPending with
  | false =>
    have hout : (flushed m).out = m.out ++ m.dec.pending.map fun i => { index := i } := by
      unfold flushed
      rw [hwas]
      show m.out ++ (m.dec.pending.filter fun _ => true).map _ = _
      rw [filter_true]
    rw [hout, tokensOf_append, tokensOf_indices, append_nil]
  | true =>
    have hout : (flushed m).out = m.out ++ m.dec.pending.map (fun i => { index := i }) ++
        [{ m.dec.eosOut.getD { index := 0 } with index := m.dec.eosIndex, eos := true }] := by
      unfold flushed
      rw [hwas]
      show m.out ++ (m.dec.pending.filter fun _ => true).map _ ++ _ = _
      rw [filter_true]
      rfl
    rw [hout, tokensOf_append, tokensOf_append, tokensOf_indices, hempty, append_nil, append_nil]

/-- The decoder after a flush has nothing to show. -/
def Decoder.idle (d : Decoder) : Prop :=
  d.pending = [] ∧ d.held = none ∧ d.eosPending = false ∧ d.eosSubmitted = false ∧ d.eosOut = none

lemma flush_spec (rc : ℤ) (hdeferred : m.dec.deferred = none) :
    Spec (m = ·) (flush rc)
      (fun _ t => t.pool = m.pool ∧ t.fences = m.fences ∧ tokensOf t.out = tokensOf m.out ∧
        t.dec.idle ∧ t.lib.produced = [])
      (fun _ t => t.pool = m.pool ∧ t.fences = m.fences ∧ tokensOf t.out = tokensOf m.out ∧
        t.dec.deferred = none) := by
  refine .read fun s hs => ?_
  subst hs
  refine .either ?_ ?_
  · refine .refused ?_
    exact ⟨rfl, rfl, rfl, hdeferred⟩
  refine .write (flushed m = ·) ?_ ?_
  · rintro _ rfl
    rfl
  have hout := flushed_tokens hdeferred
  have hsame : (flushed m).pool = m.pool ∧ (flushed m).fences = m.fences := by
    unfold flushed
    cases m.dec.eosPending with
    | true | false => exact ⟨rfl, rfl⟩
  have hidle : (flushed m).dec.idle ∧ (flushed m).lib.produced = [] := by
    unfold flushed
    cases m.dec.eosPending with
    | true | false => exact ⟨⟨rfl, rfl, rfl, rfl, rfl⟩, rfl⟩
  refine .either ?_ (.of_pure ?_)
  · refine .read fun t ht => ?_
    subst ht
    refine .write (fun t => ∃ e, t = (flushed m).die e) ?_ (.of_throw ?_)
    · rintro _ rfl
      exact ⟨_, rfl⟩
    rintro _ ⟨e, rfl⟩
    refine ⟨hsame.1, hsame.2, hout, ?_⟩
    rfl
  · rintro _ rfl
    exact ⟨hsame.1, hsame.2, hout, hidle⟩

end NvidiaProlapse.Media
