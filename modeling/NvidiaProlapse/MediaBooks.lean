import NvidiaProlapse.MediaDecoder

/-!
# Every queued unit is finished once

A unit that the library took is pending until its picture is copied out. The books
agree as long as the pictures that are still to come are those of the pending units,
one for each: the picture of a unit that is no longer pending would report its index
again, and with VP9 and AV1 it would finish all other units first.
-/
namespace NvidiaProlapse.Media

open Programs List

/-- The part of the state that the books are about. -/
structure Ledger where
  reorders : Bool
  pending : List ℕ
  held : Option Picture
  produced : List Produced
  eosPending : Bool
  eosSubmitted : Bool
  eosIndex : ℕ
  out : List Output

def Machine.ledger (m : Machine) : Ledger where
  reorders := m.dec.codec.reorders
  pending := m.dec.pending
  held := m.dec.held
  produced := m.lib.produced
  eosPending := m.dec.eosPending
  eosSubmitted := m.dec.eosSubmitted
  eosIndex := m.dec.eosIndex
  out := m.out

namespace Ledger

/-- All indices reported, with those of earlier calls in front. -/
def reported (prior : List ℕ) (l : Ledger) : List ℕ := prior ++ l.out.map (·.index)

variable {l l' : Ledger} {o : Output} {prior : List ℕ}

lemma reported_concat (h : l'.out = l.out ++ [o]) :
    l'.reported prior = l.reported prior ++ [o.index] := by
  simp [reported, h]

lemma mem_reported_concat {i : ℕ} (h : l'.out = l.out ++ [o]) :
    i ∈ l'.reported prior ↔ i ∈ l.reported prior ∨ i = o.index := by
  rw [reported_concat h, mem_append, mem_singleton]

lemma reported_once (h : l'.out = l.out ++ [o]) (honce : (l.reported prior).Nodup)
    (hnew : o.index ∉ l.reported prior) : (l'.reported prior).Nodup := by
  rw [reported_concat h]
  exact concat_eq_append ▸ List.Nodup.concat hnew honce

/-- The units whose pictures are still to come, a unit once for each picture. -/
def waiting (l : Ledger) : List ℕ :=
  l.held.toList.map (·.timestamp) ++ l.produced.map (·.picture.timestamp)

/-- The unit was taken: it was reported, or it will be. -/
def Owned (prior : List ℕ) (l : Ledger) (i : ℕ) : Prop :=
  i ∈ l.reported prior ∨ i ∈ l.pending ∨ (l.eosSubmitted = true ∧ i = l.eosIndex)

end Ledger

/-- The pictures to come are those of the pending units, and `k` of the end-of-stream unit. -/
structure Books (prior units : List ℕ) (k : ℕ) (l : Ledger) : Prop where
  once : (l.reported prior).Nodup
  nodup : units.Nodup
  unreported : ∀ i ∈ units, i ∉ l.reported prior
  pending : l.pending = units ∨ (l.eosSubmitted = true ∧ l.pending = units ++ [l.eosIndex])
  waiting : l.waiting.Perm (units ++ List.replicate k l.eosIndex)
  in_order : l.reorders = false → l.waiting = units ++ List.replicate k l.eosIndex
  eos_apart : l.eosPending = true → l.eosIndex ∉ units
  eos_unreported : l.eosSubmitted = true → l.eosIndex ∉ l.reported prior
  submitted : l.eosSubmitted = true → l.eosPending = true ∧ ∀ p ∈ l.produced, p.due = true
  single : l.eosSubmitted = false → k = 0

/-- The books still agree; beside those of `l₀` only the units of `added` were taken, and no
end of stream was reported. -/
structure Advanced (prior added : List ℕ) (l₀ l : Ledger) : Prop where
  books : ∃ units k, Books prior units k l
  owned : ∀ i, l.Owned prior i ↔ l₀.Owned prior i ∨ i ∈ added
  out : ∃ new, l.out = l₀.out ++ new ∧ ∀ o ∈ new, o.eos = false
  eosPending : l.eosPending = l₀.eosPending
  eosSubmitted : l.eosSubmitted = l₀.eosSubmitted
  eosIndex : l.eosIndex = l₀.eosIndex

variable {prior units added : List ℕ} {k i : ℕ} {l l₀ : Ledger} {m : Machine}

lemma Advanced.owned_nil (h : Advanced prior [] l₀ l) (i : ℕ) : l.Owned prior i ↔ l₀.Owned prior i := by
  rw [h.owned i, mem_nil_iff, or_false]

lemma Advanced.free (h : Advanced prior [] l₀ l) (hfree : ¬ l₀.Owned prior i) : ¬ l.Owned prior i := by
  rwa [h.owned_nil]

/-- More outputs follow, none of them the end of the stream. -/
lemma plain_append {base outs more : List Output}
    (h : ∃ new, outs = base ++ new ∧ ∀ o ∈ new, o.eos = false) (hmore : ∀ o ∈ more, o.eos = false) :
    ∃ new, outs ++ more = base ++ new ∧ ∀ o ∈ new, o.eos = false := by
  obtain ⟨new, rfl, hplain⟩ := h
  exact ⟨new ++ more, append_assoc .., forall_mem_append.mpr ⟨hplain, hmore⟩⟩

namespace Books

/-- Nothing is to come. -/
lemma settled (honce : (l.reported prior).Nodup) (hpending : l.pending = [])
    (hwaiting : l.waiting = []) (hsub : l.eosSubmitted = false) : Books prior [] 0 l where
  once := honce
  nodup := nodup_nil
  unreported _ hi := absurd hi not_mem_nil
  pending := .inl hpending
  waiting := .of_eq hwaiting
  in_order _ := hwaiting
  eos_apart _ := not_mem_nil
  eos_unreported hs := absurd (hsub.symm.trans hs) (by decide)
  submitted hs := absurd (hsub.symm.trans hs) (by decide)
  single _ := rfl

section

variable (h : Books prior units k l)

include h

lemma pending_open (hsub : l.eosSubmitted = false) : l.pending = units := by
  rcases h.pending with hunits | ⟨hcontra, -⟩
  · exact hunits
  · exact absurd (hsub.symm.trans hcontra) (by decide)

lemma mem_pending (hi : i ∈ units) : i ∈ l.pending := by
  rcases h.pending with hp | ⟨-, hp⟩
  · rwa [hp]
  · rw [hp]
    exact mem_append_left _ hi

lemma pending_not_reported (hi : i ∈ l.pending) : i ∉ l.reported prior := by
  rcases h.pending with hp | ⟨hs, hp⟩
  · rw [hp] at hi
    exact h.unreported i hi
  rw [hp, mem_append, mem_singleton] at hi
  rcases hi with hi | rfl
  · exact h.unreported i hi
  · exact h.eos_unreported hs

lemma to_come_not_reported (hi : i ∈ l.pending ∨ (l.eosSubmitted = true ∧ i = l.eosIndex)) :
    i ∉ l.reported prior := by
  rcases hi with hpending | ⟨hs, rfl⟩
  · exact h.pending_not_reported hpending
  · exact h.eos_unreported hs

end

end Books

/-! ## The picture of a unit -/

lemma finishOlderThan_self {ts : ℕ} (h : m.dec.pending = [] ∨ m.dec.pending.head? = some ts) :
    m.finishOlderThan ts = m := by
  have hkeep : m.dec.pending.takeWhile (· ≠ ts) = [] ∧
      m.dec.pending.dropWhile (· ≠ ts) = m.dec.pending := by
    cases hp : m.dec.pending with
    | nil => exact ⟨rfl, rfl⟩
    | cons x xs =>
      rw [hp] at h
      have hx : x = ts := by simpa using h
      subst hx
      simp
  simp only [Machine.finishOlderThan, Machine.setDec, hkeep, map_nil, append_nil]

/-- A picture leaves; for VP9 and AV1 no other unit is in front of its own. -/
lemma finishPicture_ledger (pic : Picture) (buf : OutputBuffer) (fence : Option ℕ)
    (h : m.dec.codec.reorders = false →
      m.dec.pending = [] ∨ m.dec.pending.head? = some pic.timestamp) :
    ∃ o : Output, o.index = pic.timestamp ∧ o.eos = false ∧ (finishPicture m pic buf fence).ledger =
        { m.ledger with
          pending := m.dec.pending.erase pic.timestamp
          out := if m.dec.eosPending = true ∧ pic.timestamp = m.dec.eosIndex then m.out
            else m.out ++ [o] } := by
  have hself : (if m.dec.codec.reorders then m else m.finishOlderThan pic.timestamp) = m := by
    split_ifs with hr
    · rfl
    · exact finishOlderThan_self (h (Bool.eq_false_iff.mpr hr))
  let size := (pic.format.cropWidth, pic.format.cropHeight)
  let shown : Shown := ⟨buf, fence, pic, decide (size ≠ m.dec.currentSize)⟩
  refine ⟨⟨pic.timestamp, some shown, false, false⟩, rfl, rfl, ?_⟩
  unfold finishPicture
  rw [hself]
  by_cases heos : m.dec.eosPending = true ∧ pic.timestamp = m.dec.eosIndex
  · rw [if_pos heos]
    dsimp only [Machine.setDec]
    rw [if_pos heos]
    rfl
  · rw [if_neg heos]
    dsimp only [Machine.setDec]
    rw [if_neg heos]
    rfl

/-- A ledger whose next picture is one of unit `ts`. -/
def Ledger.taking (l : Ledger) (pic : Picture) : Ledger := { l with held := some pic }

namespace Books
open List

variable {pic : Picture}

section

variable (h : Books prior units k (l.taking pic))

include h

/-- A picture that does not belong to the end-of-stream unit belongs to a pending one. -/
lemma mem_units (heos : ¬ (l.eosPending = true ∧ pic.timestamp = l.eosIndex)) :
    pic.timestamp ∈ units := by
  have hmem : pic.timestamp ∈ units ++ replicate k l.eosIndex :=
    h.waiting.mem_iff.mp mem_cons_self
  rcases mem_append.mp hmem with hunits | hrep
  · exact hunits
  obtain ⟨hk, hts⟩ := mem_replicate.mp hrep
  exfalso
  cases hs : l.eosSubmitted with
  | false => exact hk (h.single hs)
  | true => exact heos ⟨(h.submitted hs).1, hts⟩

/-- A picture of the end-of-stream unit means that it was taken. -/
lemma eos_taken (heos : l.eosPending = true) (hts : pic.timestamp = l.eosIndex) :
    l.eosSubmitted = true ∧ ∃ j, k = j + 1 := by
  have hmem : pic.timestamp ∈ units ++ replicate k l.eosIndex :=
    h.waiting.mem_iff.mp mem_cons_self
  have hk : k ≠ 0 := by
    rintro rfl
    have hunits : l.eosIndex ∈ units := by simpa [hts] using hmem
    exact h.eos_apart heos hunits
  refine ⟨?_, Nat.exists_eq_succ_of_ne_zero hk⟩
  by_contra hs
  exact hk (h.single (Bool.eq_false_iff.mpr hs))

/-- In decode order the unit of the next picture is the first pending one. -/
lemma first_pending (horder : l.reorders = false) :
    l.pending = [] ∨ l.pending.head? = some pic.timestamp := by
  have hwait : pic.timestamp :: l.produced.map (·.picture.timestamp) =
      units ++ replicate k l.eosIndex := by
    have hw := h.in_order horder
    simpa [Ledger.waiting, Ledger.taking] using hw
  cases hunits : units with
  | cons x xs =>
    rw [hunits] at hwait
    have hx : x = pic.timestamp := by
      simp only [cons_append, cons.injEq] at hwait
      exact hwait.1.symm
    rcases h.pending with hp | ⟨-, hp⟩
    · right
      have hp' : l.pending = units := hp
      rw [hp', hunits, hx]
      rfl
    · right
      have hp' : l.pending = units ++ [l.eosIndex] := hp
      rw [hp', hunits, hx]
      rfl
  | nil =>
    rw [hunits] at hwait
    rcases h.pending with hp | ⟨-, hp⟩
    · left
      exact hp.trans hunits
    right
    have hp' : l.pending = units ++ [l.eosIndex] := hp
    have hts : pic.timestamp = l.eosIndex := by
      cases k with
      | zero => cases hwait
      | succ k =>
        simp only [nil_append, replicate_succ, cons.injEq] at hwait
        exact hwait.1
    rw [hp', hunits, hts]
    rfl

/-- The picture of a unit: the unit is reported and no longer pending. -/
lemma report_picture {o : Output} (heos : ¬ (l.eosPending = true ∧ pic.timestamp = l.eosIndex))
    (ho : o.index = pic.timestamp) : Books prior (units.erase pic.timestamp) k
      { l with held := none, pending := l.pending.erase pic.timestamp, out := l.out ++ [o] } := by
  have hmem := h.mem_units heos
  have hwait : pic.timestamp :: l.produced.map (·.picture.timestamp) =
      (l.taking pic).waiting := rfl
  constructor
  · exact Ledger.reported_once rfl h.once (ho ▸ h.unreported _ hmem)
  · exact h.nodup.erase _
  · intro i hi
    rw [Ledger.mem_reported_concat (l := l) rfl, ho]
    rintro (hold | rfl)
    · exact h.unreported i (mem_of_mem_erase hi) hold
    · exact h.nodup.not_mem_erase hi
  · rcases h.pending with hp | ⟨hs, hp⟩
    · exact .inl (congrArg (List.erase · pic.timestamp) hp)
    · refine .inr ⟨hs, (congrArg (List.erase · pic.timestamp) hp).trans ?_⟩
      exact List.erase_append_left _ hmem
  · have hperm := (hwait ▸ h.waiting).erase pic.timestamp
    rw [erase_cons_head, erase_append_left _ hmem] at hperm
    exact hperm
  · intro horder
    have hw := hwait.trans (h.in_order horder)
    cases hunits : units with
    | nil =>
      rw [hunits] at hmem
      cases hmem
    | cons x xs =>
      rw [hunits, cons_append, cons.injEq] at hw
      rw [← hw.1, erase_cons_head]
      exact hw.2
  · intro he hi
    exact h.eos_apart he (mem_of_mem_erase hi)
  · intro hs
    rw [Ledger.mem_reported_concat (l := l) rfl, ho]
    rintro (hold | hts)
    · exact h.eos_unreported hs hold
    · exact heos ⟨(h.submitted hs).1, hts.symm⟩
  · exact h.submitted
  · exact h.single

end

/-- A picture of the end-of-stream unit: its output waits for the others. -/
lemma keep_picture (h : Books prior units (k + 1) (l.taking pic)) (hsub : l.eosSubmitted = true)
    (hts : pic.timestamp = l.eosIndex) :
    Books prior units k { l with held := none, pending := l.pending.erase pic.timestamp } := by
  have hapart : l.eosIndex ∉ units := h.eos_apart (h.submitted hsub).1
  have hwait : l.eosIndex :: l.produced.map (·.picture.timestamp) = (l.taking pic).waiting := by
    rw [← hts]
    rfl
  constructor
  · exact h.once
  · exact h.nodup
  · exact h.unreported
  · left
    rw [hts]
    rcases h.pending with hp | ⟨-, hp⟩
    · have hp' : l.pending = units := hp
      rw [hp', erase_of_not_mem hapart]
    · have hp' : l.pending = units ++ [l.eosIndex] := hp
      rw [hp', erase_append_right _ hapart]
      simp
  · have hperm := (hwait ▸ h.waiting).erase l.eosIndex
    rw [erase_cons_head] at hperm
    have heq : (units ++ replicate (k + 1) l.eosIndex).erase l.eosIndex =
        units ++ replicate k l.eosIndex := by
      rw [erase_append_right _ hapart, replicate_succ, erase_cons_head]
    exact heq ▸ hperm
  · intro horder
    have hw := hwait.trans (h.in_order horder)
    cases hunits : units with
    | nil =>
      rw [hunits, nil_append, replicate_succ, cons.injEq] at hw
      exact hw.2
    | cons x xs =>
      rw [hunits, cons_append, cons.injEq] at hw
      exact absurd (hunits ▸ hw.1 ▸ mem_cons_self) hapart
  · exact h.eos_apart
  · exact h.eos_unreported
  · exact h.submitted
  · intro hs
    exact absurd hsub (by rw [hs]; decide)

end Books

variable {pic : Picture} {good : Machine → Prop} {k : ℕ} {lib : Library} {reorders : Bool}

lemma finishPicture_advanced {buf : OutputBuffer} {fence : Option ℕ}
    (h : Advanced prior added l₀ (m.ledger.taking pic)) (hheld : m.dec.held = none) :
    Advanced prior added l₀ (finishPicture m pic buf fence).ledger := by
  obtain ⟨⟨units, k, hbooks⟩, howned, hout, hp, hs, he⟩ := h
  obtain ⟨o, hoindex, hoeos, hledger⟩ := finishPicture_ledger (m := m) pic buf fence
    hbooks.first_pending
  have hnone : m.ledger = { m.ledger with held := none } := by
    rw [← hheld]
    rfl
  rw [hledger]
  by_cases heos : m.dec.eosPending = true ∧ pic.timestamp = m.dec.eosIndex
  · rw [if_pos heos, hnone]
    obtain ⟨hsub, k, rfl⟩ := hbooks.eos_taken heos.1 heos.2
    refine ⟨⟨units, k, hbooks.keep_picture hsub heos.2⟩, ?_, hout, hp, hs, he⟩
    intro i
    rw [← howned i]
    have hpending : i ∈ m.dec.pending.erase pic.timestamp ∨ i = pic.timestamp ↔
        i ∈ m.dec.pending ∨ i = pic.timestamp := by
      rw [or_comm, or_comm (a := i ∈ m.dec.pending)]
      exact or_congr_right' fun hi => mem_erase_of_ne hi
    refine or_congr Iff.rfl ?_
    show i ∈ m.dec.pending.erase pic.timestamp ∨ m.dec.eosSubmitted = true ∧ i = m.dec.eosIndex ↔
      i ∈ m.dec.pending ∨ m.dec.eosSubmitted = true ∧ i = m.dec.eosIndex
    rw [show m.dec.eosSubmitted = true from hsub, ← heos.2]
    simpa using hpending
  · rw [if_neg heos, hnone]
    refine ⟨⟨_, k, hbooks.report_picture heos hoindex⟩, ?_, plain_append hout (by simpa using hoeos),
      hp, hs, he⟩
    intro i
    rw [← howned i]
    have hmem : pic.timestamp ∈ m.dec.pending := hbooks.mem_pending (hbooks.mem_units heos)
    show i ∈ prior ++ (m.out ++ [o]).map (·.index) ∨ i ∈ m.dec.pending.erase pic.timestamp ∨
        (m.dec.eosSubmitted = true ∧ i = m.dec.eosIndex) ↔
      i ∈ prior ++ m.out.map (·.index) ∨ i ∈ m.dec.pending ∨
        (m.dec.eosSubmitted = true ∧ i = m.dec.eosIndex)
    rw [map_append, map_singleton, hoindex]
    by_cases hi : i = pic.timestamp
    · subst hi
      simp [hmem]
    · simp [hi, mem_erase_of_ne hi]

/-! ## Rounds -/

/-- What a call that failed reported: units that were taken, each once. -/
structure Faulted (prior added : List ℕ) (l₀ l : Ledger) : Prop where
  once : (l.reported prior).Nodup
  owned : ∀ i ∈ l.reported prior, l₀.Owned prior i ∨ i ∈ added

lemma Advanced.faulted (h : Advanced prior added l₀ l) : Faulted prior added l₀ l := by
  obtain ⟨units, k, hbooks⟩ := h.books
  exact ⟨hbooks.once, fun i hi => (h.owned i).mp (.inl hi)⟩

/-- What a call may leave when it returns early, and what more when it returns `Again`. -/
def OnStop (good : Machine → Prop) (bad : Ledger → Prop) (e : Stop) (m : Machine) : Prop :=
  (e = .again → good m) ∧ bad m.ledger

lemma OnStop.error {bad : Ledger → Prop} (h : bad m.ledger) : OnStop good bad .error m := by
  refine ⟨?_, h⟩
  intro hagain
  cases hagain

/-- The books after a call that returned early. -/
abbrev Halted (prior added : List ℕ) (l₀ : Ledger) : Stop → Machine → Prop :=
  OnStop (fun m => Advanced prior added l₀ m.ledger) (Faulted prior added l₀)

section Failures

variable {α : Type} {pre : Machine → Prop} {ok : α → Machine → Prop} {err : Stop → Machine → Prop}

lemma die_spec (error : String) (h : ∀ m, pre m → err .error (m.die error)) :
    Spec pre (die error : Prog Machine Stop α) ok err := by
  exact .write (err .error) h (.of_throw fun _ hm => hm)

lemma fail_spec (what : String) (rc : ℤ) (h : ∀ m error, pre m → err .error (m.die error)) :
    Spec pre (fail what rc : Prog Machine Stop α) ok err := by
  exact .read fun s hs => die_spec _ fun m hm => hm ▸ h s _ hs

end Failures

lemma copyPicture_advanced (pic : Picture) (a : EmitAnswer) (format : ℕ) (acquire : Option ℕ) :
    Spec (fun m => Advanced prior added l₀ (m.ledger.taking pic)) (copyPicture pic a format acquire)
      (fun _ m => Advanced prior added l₀ m.ledger)
      (Halted prior added l₀) := by
  refine .read fun s hs => ?_
  -- The buffer and the fences are not in the books.
  refine .write (fun m => Advanced prior added l₀ (m.ledger.taking pic) ∧ m.dec.held = none) ?_ ?_
  · rintro _ rfl
    exact ⟨hs, rfl⟩
  have hfaulted : ∀ m : Machine, Advanced prior added l₀ (m.ledger.taking pic) ∧ m.dec.held = none →
      Faulted prior added l₀ m.ledger := fun _ h => ⟨h.1.faulted.once, h.1.faulted.owned⟩
  let faulted : Machine → Prop := fun m => Faulted prior added l₀ m.ledger
  refine .either ?_ (.either ?_ ?_)
  · exact .write faulted hfaulted (die_spec _ fun _ h => .error h)
  · exact .write faulted hfaulted (fail_spec _ _ fun _ _ h => .error h)
  refine .write (fun m => Advanced prior added l₀ (m.ledger.taking pic) ∧ m.dec.held = none)
    (fun _ h => h) ?_
  cases a.copyOut with
  | failed rc => exact .write faulted hfaulted (fail_spec _ _ fun _ _ h => .error h)
  | done fenced =>
    refine .read fun t ht => ?_
    refine .write (fun m => Advanced prior added l₀ (m.ledger.taking pic) ∧ m.dec.held = none) ?_ ?_
    · rintro _ rfl
      exact ht
    refine .either ?_ ?_
    · exact .write faulted hfaulted (fail_spec _ _ fun _ _ h => .error h)
    · exact .of_modify fun _ h => finishPicture_advanced h.1 h.2

lemma emitPicture_advanced (pic : Picture) (a : EmitAnswer) :
    Spec (fun m => Advanced prior added l₀ (m.ledger.taking pic)) (emitPicture pic a)
      (fun _ m => Advanced prior added l₀ m.ledger)
      (Halted prior added l₀) := by
  unfold emitPicture
  cases a.fetch with
  | again =>
    refine .write (fun m => Advanced prior added l₀ m.ledger) (fun _ h => h) ?_
    exact .of_throw fun _ h => ⟨fun _ => h, h.faulted⟩
  | failed rc =>
    refine .write (fun m => Faulted prior added l₀ m.ledger) ?_ (die_spec _ fun _ h => .error h)
    exact fun _ h => ⟨h.faulted.once, h.faulted.owned⟩
  | block format acquire => exact copyPicture_advanced pic a format acquire

lemma nextPicture_some {lib' : Library} (h : lib.nextPicture reorders k = some (pic, lib')) :
    ∃ i p, lib.produced[i]? = some p ∧ p.picture = pic ∧
      lib'.produced = lib.produced.eraseIdx i ∧ (reorders = false → i = 0) := by
  obtain ⟨i, hi, h⟩ := Option.bind_eq_some_iff.mp h
  obtain ⟨p, hp, h⟩ := Option.bind_eq_some_iff.mp h
  cases h
  refine ⟨i, p, hp, rfl, rfl, ?_⟩
  rintro rfl
  unfold Library.choice at hi
  simp only [Bool.false_eq_true, false_and, if_false] at hi
  split_ifs at hi
  exact (Option.some.inj hi).symm

/-- The library has none only if none is due. -/
lemma nextPicture_none (h : lib.nextPicture reorders k = none) : ∀ p ∈ lib.produced, p.due = false := by
  unfold Library.nextPicture Library.choice at h
  cases reorders with
  | false =>
    simp only [Bool.false_eq_true, false_and, if_false] at h
    split_ifs at h with hnil
    · simp [hnil]
    · obtain ⟨p, ps, hps⟩ := exists_cons_of_ne_nil hnil
      rw [hps] at h
      cases h
  | true =>
    simp only [true_and, if_true] at h
    split_ifs at h with hk
    · rw [Option.bind_eq_bind, Option.bind_some, getElem?_eq_getElem hk] at h
      cases h
    cases hidx : lib.produced.findIdx? (·.due) with
    | none =>
      intro p hp
      simpa using findIdx?_eq_none_iff.mp hidx p hp
    | some i =>
      rw [hidx, Option.bind_eq_bind, Option.bind_some] at h
      obtain ⟨hi, -, -⟩ := findIdx?_eq_some_iff_getElem.mp hidx
      rw [getElem?_eq_getElem hi] at h
      cases h

/-- A picture is taken from the library. -/
lemma Books.pick {i : ℕ} {p : Produced} (h : Books prior units k l) (hheld : l.held = none)
    (hp : l.produced[i]? = some p) (horder : l.reorders = false → i = 0) :
    Books prior units k (Ledger.taking { l with produced := l.produced.eraseIdx i } p.picture) := by
  obtain ⟨hi, hget⟩ := List.getElem?_eq_some_iff.mp hp
  have hwait : l.waiting = l.produced.map (·.picture.timestamp) := by
    unfold Ledger.waiting
    rw [hheld]
    rfl
  have hperm : ((p :: l.produced.eraseIdx i).map (·.picture.timestamp)).Perm l.waiting := by
    rw [hwait, ← hget]
    exact (List.getElem_cons_eraseIdx_perm hi).map _
  refine { h with waiting := hperm.trans h.waiting, in_order := ?_, submitted := ?_ }
  · intro hr
    obtain rfl := horder hr
    refine Eq.trans ?_ (h.in_order hr)
    rw [hwait]
    cases hps : l.produced with
    | nil =>
      rw [hps] at hp
      cases hp
    | cons q qs =>
      rw [hps] at hp
      cases hp
      rfl
  · intro hs
    refine ⟨(h.submitted hs).1, ?_⟩
    intro q hq
    exact (h.submitted hs).2 q (List.mem_of_mem_eraseIdx hq)

/-- Nothing is held and nothing in the library is due. -/
def Emptied (l : Ledger) : Prop := l.held = none ∧ ∀ p ∈ l.produced, p.due = false

lemma drainOnce_advanced (r : Round) :
    Spec (fun m => Advanced prior added l₀ m.ledger) (drainOnce r)
      (fun go m => Advanced prior added l₀ m.ledger ∧ (go = false → Emptied m.ledger))
      (Halted prior added l₀) := by
  have htrue : ∀ pic, Spec (fun m => Advanced prior added l₀ (m.ledger.taking pic))
      (do emitPicture pic r.emit; pure true)
      (fun go m => Advanced prior added l₀ m.ledger ∧ (go = false → Emptied m.ledger))
      (Halted prior added l₀) := by
    intro pic
    refine .next (emitPicture_advanced pic r.emit) (.of_pure fun m hm => ⟨hm, ?_⟩)
    intro h
    cases h
  refine .read fun s hs => ?_
  cases hheld : s.dec.held with
  | some pic =>
    refine (htrue pic).enter ?_
    have hsame : s.ledger.taking pic = s.ledger := by
      show ({ s.ledger with held := some pic } : Ledger) = _
      rw [← hheld]
      rfl
    exact hsame ▸ hs
  | none =>
    cases r.next with
    | failed rc => exact fail_spec _ _ fun _ _ h => .error (h ▸ hs.faulted)
    | pick k =>
      dsimp only
      cases hnext : s.lib.nextPicture s.dec.codec.reorders k with
      | none =>
        refine .unchanged ?_
        exact ⟨hs, fun _ => ⟨hheld, nextPicture_none hnext⟩⟩
      | some next =>
        obtain ⟨pic, lib⟩ := next
        obtain ⟨i, p, hp, rfl, hlib, horder⟩ := nextPicture_some hnext
        refine .write _ ?_ (htrue p.picture)
        rintro _ rfl
        obtain ⟨⟨units, k, hbooks⟩, howned, hout, hpending, hsub, hindex⟩ := hs
        refine ⟨⟨units, k, ?_⟩, howned, hout, hpending, hsub, hindex⟩
        have hpick := hbooks.pick hheld hp horder
        rw [← show lib.produced = s.ledger.produced.eraseIdx i from hlib] at hpick
        exact hpick

/-- With an empty pool the loop does not go on. -/
lemma drainOnce_emptyPool (pre : Machine → Prop) :
    Yields pre (drainOnce .emptyPool) fun go _ => go = false := by
  have hemit : ∀ pre pic, Yields pre (do emitPicture pic Round.emptyPool.emit; pure true)
      fun go _ => go = false := by
    intro pre pic
    have hstop : Yields pre (emitPicture pic Round.emptyPool.emit) fun _ _ => False :=
      Spec.anew Spec.thrown
    exact .next hstop (.of_pure fun _ h => h.elim)
  refine .read fun s _ => ?_
  cases s.dec.held with
  | some pic => exact hemit _ pic
  | none =>
    dsimp only [Round.emptyPool]
    cases s.lib.nextPicture s.dec.codec.reorders 0 with
    | none => exact .of_pure fun _ _ => rfl
    | some next => exact .anew (hemit _ next.1)

lemma drainLoop_advanced (rounds : List Round) :
    Spec (fun m => Advanced prior added l₀ m.ledger) (drainLoop rounds)
      (fun _ m => Advanced prior added l₀ m.ledger ∧ Emptied m.ledger)
      (Halted prior added l₀) := by
  induction rounds with
  | nil =>
    refine .seq (((drainOnce_advanced .emptyPool).both (drainOnce_emptyPool _)).fallback
      fun _ _ h => h.1) fun go => ?_
    exact .of_pure fun _ h => ⟨h.1.1, h.1.2 h.2⟩
  | cons r rs ih =>
    refine .seq (drainOnce_advanced r) fun go => ?_
    cases go with
    | true => exact ih.before fun _ h => h.1
    | false => exact .of_pure fun _ h => ⟨h.1, h.2 rfl⟩

/-! ## The end of the stream -/

/-- The output of the end-of-stream unit came after all others, and no unit is left. -/
structure Ended (prior : List ℕ) (l₀ l : Ledger) : Prop where
  books : Books prior [] 0 l
  owned : ∀ i, l.Owned prior i ↔ l₀.Owned prior i
  out : ∃ new o, l.out = l₀.out ++ new ++ [o] ∧ (∀ o ∈ new, o.eos = false) ∧ o.eos = true ∧
    o.index = l₀.eosIndex
  pending : l.pending = []
  eosPending : l.eosPending = false
  eosSubmitted : l.eosSubmitted = false

lemma Books.emptied (h : Books prior units k l) (hempty : Emptied l) (hsub : l.eosSubmitted = true) :
    units = [] ∧ k = 0 ∧ l.produced = [] := by
  have hproduced : l.produced = [] := by
    rw [eq_nil_iff_forall_not_mem]
    intro p hp
    have hdue := (h.submitted hsub).2 p hp
    rw [hempty.2 p hp] at hdue
    cases hdue
  have hwait : l.waiting = [] := by
    unfold Ledger.waiting
    rw [hempty.1, hproduced]
    rfl
  have hnil := h.waiting
  rw [hwait, nil_perm, append_eq_nil_iff, replicate_eq_nil_iff] at hnil
  exact ⟨hnil.1, hnil.2, hproduced⟩

lemma finishStream_ledger (heos : m.dec.eosPending = true ∧ m.dec.eosSubmitted = true)
    (hnone : m.dec.pending.filter (fun i => !(m.dec.eosPending && i == m.dec.eosIndex)) = []) :
    ∃ o : Output, o.index = m.dec.eosIndex ∧ o.eos = true ∧ (finishStream m).ledger =
        { m.ledger with
          pending := []
          eosPending := false
          eosSubmitted := false
          out := m.out ++ [o] } := by
  refine ⟨{ m.dec.eosOut.getD { index := 0 } with index := m.dec.eosIndex, eos := true }, rfl, rfl, ?_⟩
  unfold finishStream Machine.finishAll
  rw [if_pos heos, hnone, map_nil, append_nil]
  rfl

lemma finishStream_ended (h : Advanced prior [] l₀ m.ledger) (hempty : Emptied m.ledger)
    (hsub : l₀.eosSubmitted = true) : Ended prior l₀ (finishStream m).ledger := by
  have howned := h.owned_nil
  obtain ⟨⟨units, k, hbooks⟩, -, ⟨new, hnew, hplain⟩, hp, hs, he⟩ := h
  have hsub' : m.dec.eosSubmitted = true := hs.trans hsub
  obtain ⟨hpend, -⟩ := hbooks.submitted hsub'
  obtain ⟨rfl, rfl, hproduced⟩ := hbooks.emptied hempty hsub'
  have hfilter : m.dec.pending.filter (fun i => !(m.dec.eosPending && i == m.dec.eosIndex)) = [] := by
    have hpend' : m.dec.eosPending = true := hpend
    rcases hbooks.pending with hunits | ⟨-, hunits⟩
    · rw [show m.dec.pending = [] from hunits]
      rfl
    · rw [show m.dec.pending = [m.dec.eosIndex] from hunits]
      simp [hpend']
  obtain ⟨o, hoindex, hoeos, hledger⟩ := finishStream_ledger ⟨hpend, hsub'⟩ hfilter
  have hwaiting : m.ledger.waiting = [] := by
    unfold Ledger.waiting
    rw [hempty.1, hproduced]
    rfl
  rw [hledger]
  refine ⟨.settled ?_ rfl hwaiting rfl, ?_, ⟨new, o, ?_, hplain, hoeos, hoindex.trans he⟩, rfl, rfl, rfl⟩
  · exact Ledger.reported_once rfl hbooks.once (hoindex ▸ hbooks.eos_unreported hsub')
  · intro i
    rw [← howned i, Ledger.Owned, Ledger.mem_reported_concat (l := m.ledger) rfl, hoindex]
    show (i ∈ m.ledger.reported prior ∨ _) ∨ i ∈ [] ∨ false = true ∧ _ ↔
      i ∈ m.ledger.reported prior ∨ i ∈ m.dec.pending ∨ m.dec.eosSubmitted = true ∧ i = m.dec.eosIndex
    rw [hsub']
    rcases hbooks.pending with hunits | ⟨-, hunits⟩
    · rw [show m.dec.pending = [] from hunits]
      simp
    · rw [show m.dec.pending = [m.dec.eosIndex] from hunits]
      simp
  · rw [show m.out = _ from hnew]

lemma finishStream_open (hsub : m.dec.eosSubmitted = false) : finishStream m = m := by
  unfold finishStream
  rw [if_neg (by simp [hsub])]

lemma drain_ended (rounds : List Round) (hsub : l₀.eosSubmitted = true) :
    Spec (fun m => Advanced prior [] l₀ m.ledger) (drain rounds)
      (fun _ m => Ended prior l₀ m.ledger) (Halted prior [] l₀) := by
  refine .read fun s hs => .either ?_ ?_
  · exact .of_throw fun _ h => ⟨fun _ => h ▸ hs, h ▸ hs.faulted⟩
  · refine .next ((drainLoop_advanced rounds).enter hs) ?_
    exact .of_modify fun m hm => finishStream_ended hm.1 hm.2 hsub

/-- Without an end of stream `drain` leaves nothing held. -/
lemma drain_advanced (rounds : List Round) (hsub : l₀.eosSubmitted = false) :
    Spec (fun m => Advanced prior added l₀ m.ledger) (drain rounds)
      (fun _ m => Advanced prior added l₀ m.ledger ∧ m.dec.held = none)
      (Halted prior added l₀) := by
  refine .read fun s hs => .either ?_ ?_
  · exact .of_throw fun _ h => ⟨fun _ => h ▸ hs, h ▸ hs.faulted⟩
  refine .next ((drainLoop_advanced rounds).enter hs) ?_
  refine .of_modify fun m hm => ?_
  rw [finishStream_open (hm.1.eosSubmitted.trans hsub)]
  exact ⟨hm.1, hm.2.1⟩

/-! ## A new session -/

/-- The answer came without pictures. -/
def Decoded.silent : Decoded → Bool
  | .accepted pictures | .bitstream pictures => pictures.isEmpty
  | _ => true

lemma setLib_produce_nil (m : Machine) (i : ℕ) : (m.setLib fun lib => lib.produce i []) = m := by
  simp [Machine.setLib, Library.produce]

/-- The pending units are reported, and the library's pictures go with the session. -/
lemma finishAll_advanced (h : Advanced prior added l₀ m.ledger) (hheld : m.dec.held = none)
    (hsub : l₀.eosSubmitted = false) :
    Advanced prior added l₀ (m.finishAll.setLib fun lib => { lib with produced := [] }).ledger := by
  obtain ⟨⟨units, k, hbooks⟩, howned, hout, hp, hs, he⟩ := h
  have hsub' : m.dec.eosSubmitted = false := hs.trans hsub
  have hpending : m.dec.pending = units := hbooks.pending_open hsub'
  have hfilter : m.dec.pending.filter (fun i => !(m.dec.eosPending && i == m.dec.eosIndex)) = units := by
    rw [hpending, filter_eq_self]
    intro i hi
    cases hpend : m.dec.eosPending with
    | false => rfl
    | true =>
      have hne : i ≠ m.dec.eosIndex := by
        rintro rfl
        exact hbooks.eos_apart hpend hi
      simpa using hne
  have hledger : (m.finishAll.setLib fun lib => { lib with produced := [] }).ledger =
      { m.ledger with
        pending := []
        produced := []
        out := m.out ++ units.map fun i => { index := i } } := by
    unfold Machine.finishAll
    rw [hfilter]
    rfl
  have hreported : prior ++ (m.out ++ units.map fun i => ({ index := i } : Output)).map (·.index) =
      m.ledger.reported prior ++ units := by
    rw [map_append, map_map, ← append_assoc]
    exact congrArg _ (map_id units)
  rw [hledger]
  have hwaiting : m.dec.held.toList.map Picture.timestamp ++ [] = [] := by
    rw [hheld]
    rfl
  refine ⟨⟨[], 0, .settled ?_ rfl hwaiting hsub'⟩, ?_, plain_append hout ?_, hp, hs, he⟩
  · show (prior ++ (m.out ++ _).map (·.index)).Nodup
    rw [hreported]
    refine nodup_append.mpr ⟨hbooks.once, hbooks.nodup, ?_⟩
    rintro a ha b hb rfl
    exact hbooks.unreported a hb ha
  · intro i
    rw [← howned i]
    show i ∈ prior ++ (m.out ++ _).map (·.index) ∨ i ∈ [] ∨ m.dec.eosSubmitted = true ∧ _ ↔
      i ∈ m.ledger.reported prior ∨ i ∈ m.dec.pending ∨ m.dec.eosSubmitted = true ∧ _
    rw [hreported, hsub', hpending]
    simp
  · intro o ho
    obtain ⟨i, -, rfl⟩ := mem_map.mp ho
    rfl

lemma replayCsd_keeps {err : Stop → Machine → Prop} (csd : List (List UInt8))
    (answers : List Decoded) (hsilent : ∀ d ∈ answers, d.silent = true)
    (hbad : ∀ m error, good m → err .error (m.die error)) :
    Spec good (replayCsd csd answers) (fun _ => good) err := by
  induction csd generalizing answers with
  | nil => exact .ret
  | cons u csd ih =>
    unfold replayCsd
    have htail : ∀ d ∈ answers.tail, d.silent = true := fun d hd => hsilent d (mem_of_mem_tail hd)
    have hhead : (answers.headD (.accepted [])).silent = true := by
      cases answers with
      | nil => rfl
      | cons d ds => exact hsilent d mem_cons_self
    cases hanswer : answers.headD (.accepted []) with
    | accepted pictures =>
      rw [hanswer] at hhead
      obtain rfl : pictures = [] := isEmpty_iff.mp hhead
      refine .write good ?_ (ih _ htail)
      intro s hs
      rw [setLib_produce_nil]
      exact hs
    | again | bitstream pictures | resize | failed rc => exact fail_spec _ _ hbad

lemma finishResize_advanced (a : ResizeAnswer) (hsub : l₀.eosSubmitted = false)
    (hsilent : ∀ d ∈ a.csd, d.silent = true) :
    Spec (fun m => Advanced prior added l₀ m.ledger) (finishResize a)
      (fun _ m => Advanced prior added l₀ m.ledger)
      (Halted prior added l₀) := by
  refine .next (drain_advanced a.rounds hsub) ?_
  refine .write (fun m => Advanced prior added l₀ m.ledger)
    (fun m hm => finishAll_advanced hm.1 hm.2 hsub) ?_
  refine .read fun s hs => ?_
  cases a.openError with
  | some err => exact die_spec _ fun _ h => .error (h ▸ hs.faulted)
  | none =>
    refine .write (fun m => Advanced prior added l₀ m.ledger) ?_
      (replayCsd_keeps _ _ hsilent fun _ _ h => .error h.faulted)
    rintro _ rfl
    exact hs

end NvidiaProlapse.Media
