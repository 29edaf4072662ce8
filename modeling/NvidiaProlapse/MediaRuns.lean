import NvidiaProlapse.MediaUnits
import NvidiaProlapse.Runs

/-!
# Runs of the media decoder core

A front queues units with indices of its own, a unit that got `Again` once more,
drains and flushes. The history holds each call with its outputs, the latest first.
-/
namespace NvidiaProlapse.Media

open Programs Runs List

structure Record where
  call : Call
  status : Status
  outs : List Output

/-- The reported indices, in the order of their reports. -/
def reported : List Record → List ℕ
  | [] => []
  | r :: h => reported h ++ r.outs.map (·.index)

/-- The unit of a call, with what the call returned. -/
def Record.attempt (r : Record) : Option (InputUnit × Status) :=
  match r.call with
  | .queue u _ => some (u, r.status)
  | _ => none

def attempts (h : List Record) : List (InputUnit × Status) := h.filterMap Record.attempt

/-- The last attempt to queue a unit of this index. -/
def last (h : List Record) (i : ℕ) : Option (InputUnit × Status) :=
  (attempts h).find? fun p => p.1.index = i

/-- The call took a unit of this index. -/
def Accepted (h : List Record) (i : ℕ) : Prop := ∃ u, (u, Status.ok) ∈ attempts h ∧ u.index = i

structure Front where
  machine : Machine
  history : List Record

namespace Front

/-- Indices are distinct; only a unit that got `Again` is queued once more. -/
def offers (f : Front) : Call → Bool
  | .queue u _ => (last f.history u.index).all fun p => p = (u, Status.again)
  | _ => true

/-- A call that does not return an error. -/
def step (f : Front) (c : Call) : Option Front :=
  let (r, m) := exec c.program f.machine
  if f.offers c ∧ statusOf r ≠ .error then
    some ⟨{ m with out := [] }, ⟨c, statusOf r, m.out⟩ :: f.history⟩
  else none

def start (codec : Codec) (maxWidth maxHeight : ℕ) : Front :=
  ⟨{ dec := { codec := codec, maxWidth := maxWidth, maxHeight := maxHeight } }, []⟩

/-- The last call was a flush or reported the end of the stream. -/
def Settling (f : Front) : Prop :=
  ∃ r h, f.history = r :: h ∧ ((∃ rc, r.call = .flush rc) ∨ ∃ o ∈ r.outs, o.eos = true)

/-- Every unit is finished once. -/
structure Finished (f : Front) : Prop where
  once : (reported f.history).Nodup
  settled : f.Settling → ∀ i, Accepted f.history i → i ∈ reported f.history
  eos_last : ∀ r ∈ f.history, ∀ o ∈ r.outs, o.eos = true → r.outs.getLast? = some o ∧
    ∃ u s, (u, s) ∈ attempts f.history ∧ u.eos = true ∧ u.index = o.index
  unreported : ∀ i ∈ f.machine.dec.pending, i ∉ reported f.history

/-- No unit is queued between the end of the stream and its output, or after a flush reported it; its
answers do not bring pictures of units that are finished; and no flush comes while a unit of data
with the end of the stream waits for its picture. -/
def Meets (f : Front) : Call → Prop
  | .queue u a => f.machine.dec.eosSubmitted = false ∧ u.index ∉ reported f.history ∧ PlainUnit u a
  | .drain _ => True
  | .flush _ => ¬ (f.machine.dec.eosPending = true ∧ f.machine.dec.eosIndex ∈ f.machine.dec.pending)

/-- The books agree with the history. -/
structure Sound (f : Front) : Prop where
  out : f.machine.out = []
  books : ∃ units k, Books (reported f.history) units k f.machine.ledger
  taken : ∀ i, i ∈ f.machine.dec.pending ∨
    (f.machine.dec.eosSubmitted = true ∧ i = f.machine.dec.eosIndex) →
      ∃ u, last f.history i = some (u, .ok)
  owned : ∀ i, Accepted f.history i → f.machine.ledger.Owned (reported f.history) i
  announced : f.machine.dec.eosPending = true →
    ∃ u s, last f.history f.machine.dec.eosIndex = some (u, s) ∧ u.eos = true ∧
      (f.machine.dec.eosSubmitted = false →
        s = .again ∧ f.machine.dec.eosIndex ∉ reported f.history)
  finished : Finished f

/-! ## The last attempt -/

variable {h : List Record} {i : ℕ} {r : Record}

variable {p : InputUnit × Status} {s : Status} {u : InputUnit}

lemma last_mem (hlast : last h i = some p) : p ∈ attempts h ∧ p.1.index = i := by
  refine ⟨mem_of_find?_eq_some hlast, ?_⟩
  simpa using find?_some hlast

lemma attempts_cons (hr : r.attempt = some p) :
    attempts (r :: h) = p :: attempts h := List.filterMap_cons_some hr

lemma attempts_cons_none (hr : r.attempt = none) :
    attempts (r :: h) = attempts h := List.filterMap_cons_none hr

lemma last_cons_self (hr : r.attempt = some (u, s)) : last (r :: h) u.index = some (u, s) := by
  unfold last
  rw [attempts_cons hr]
  exact find?_cons_of_pos (by simp)

lemma last_cons_of_ne (hr : r.attempt = some (u, s)) (hi : i ≠ u.index) :
    last (r :: h) i = last h i := by
  unfold last
  rw [attempts_cons hr]
  exact find?_cons_of_neg (by simpa using hi.symm)

lemma last_cons_none (hr : r.attempt = none) : last (r :: h) i = last h i := by
  unfold last
  rw [attempts_cons_none hr]

/-! ## One call -/

section Calls

variable {f : Front} {c : Call} {status : Status} {t : Machine}

/-- The outputs of a call are handed over. -/
lemma books_clear {prior units : List ℕ} {k : ℕ} (h : Books prior units k t.ledger) :
    Books (t.ledger.reported prior) units k ({ t with out := [] } : Machine).ledger := by
  have hsame : ({ t with out := [] } : Machine).ledger.reported (t.ledger.reported prior) =
      t.ledger.reported prior := append_nil _
  refine { h with once := ?_, unreported := ?_, eos_unreported := ?_ }
  · rw [hsame]
    exact h.once
  · rw [hsame]
    exact h.unreported
  · rw [hsame]
    exact h.eos_unreported

/-- What a call has to leave. -/
lemma sound_cons (h : Sound f)
    (hbooks : ∃ units k, Books (reported f.history) units k t.ledger)
    (howned : ∀ i, Accepted (⟨c, status, t.out⟩ :: f.history) i →
      t.ledger.Owned (reported f.history) i)
    (htaken : ∀ i, i ∈ t.dec.pending ∨ (t.dec.eosSubmitted = true ∧ i = t.dec.eosIndex) →
      ∃ u, last (⟨c, status, t.out⟩ :: f.history) i = some (u, .ok))
    (hannounced : t.dec.eosPending = true →
      ∃ u s, last (⟨c, status, t.out⟩ :: f.history) t.dec.eosIndex = some (u, s) ∧ u.eos = true ∧
        (t.dec.eosSubmitted = false →
          s = .again ∧ t.dec.eosIndex ∉ t.ledger.reported (reported f.history)))
    (houts : ∀ o ∈ t.out, o.eos = true → t.out.getLast? = some o ∧
      ∃ u s, (u, s) ∈ attempts (⟨c, status, t.out⟩ :: f.history) ∧ u.eos = true ∧ u.index = o.index)
    (hsettled : ((∃ rc, c = .flush rc) ∨ ∃ o ∈ t.out, o.eos = true) →
      t.dec.pending = [] ∧ t.dec.eosSubmitted = false) :
    Sound ⟨{ t with out := [] }, ⟨c, status, t.out⟩ :: f.history⟩ := by
  obtain ⟨units, k, hb⟩ := hbooks
  have hb' := books_clear hb
  have hsame : ({ t with out := [] } : Machine).ledger.reported (t.ledger.reported (reported f.history)) =
      t.ledger.reported (reported f.history) := append_nil _
  have howned' : ∀ i, Accepted (⟨c, status, t.out⟩ :: f.history) i →
      ({ t with out := [] } : Machine).ledger.Owned (t.ledger.reported (reported f.history)) i := by
    intro i hi
    rcases howned i hi with hrep | hrest
    · left
      rw [hsame]
      exact hrep
    · exact .inr hrest
  refine ⟨rfl, ⟨units, k, hb'⟩, htaken, howned', hannounced, ?_⟩
  refine ⟨hb.once, ?_, ?_, ?_⟩
  · rintro ⟨r, h', heq, hset⟩ i hi
    cases heq
    obtain ⟨hnone, hnot⟩ := hsettled hset
    rcases howned i hi with hrep | hpending | ⟨hsub, -⟩
    · exact hrep
    · rw [show t.ledger.pending = [] from hnone] at hpending
      cases hpending
    · exact absurd (hnot.symm.trans hsub) (by decide)
  · intro r hr o ho heos
    rcases mem_cons.mp hr with rfl | hr
    · exact houts o ho heos
    · obtain ⟨hlast, u, s, hmem, hu⟩ := h.finished.eos_last r hr o ho heos
      refine ⟨hlast, u, s, ?_, hu⟩
      exact List.Sublist.mem hmem (List.Sublist.filterMap _ (sublist_cons_self _ _))
  · intro i hi
    exact hb.pending_not_reported hi

lemma owned_iff (h : Sound f) (i : ℕ) :
    f.machine.ledger.Owned (reported f.history) i ↔ i ∈ reported f.history ∨
      i ∈ f.machine.dec.pending ∨ (f.machine.dec.eosSubmitted = true ∧ i = f.machine.dec.eosIndex) := by
  show i ∈ reported f.history ++ f.machine.out.map (·.index) ∨ _ ↔ _
  rw [h.out, map_nil, append_nil]
  rfl

/-- Only the last of the outputs can be the end of the stream. -/
lemma eos_is_last {outs new : List Output} {o o' : Output} (houts : outs = new ++ [o])
    (hplain : ∀ o ∈ new, o.eos = false) (ho' : o' ∈ outs) (heos : o'.eos = true) :
    o' = o ∧ outs.getLast? = some o' := by
  subst houts
  rcases mem_append.mp ho' with hnew | hlast
  · rw [hplain o' hnew] at heos
    cases heos
  · obtain rfl := mem_singleton.mp hlast
    exact ⟨rfl, getLast?_concat⟩

/-- The outputs of a call are all that are there. -/
lemma outs_plain (h : Sound f)
    (hout : ∃ new, t.ledger.out = f.machine.ledger.out ++ new ∧ ∀ o ∈ new, o.eos = false) :
    ∀ o ∈ t.out, o.eos = false := by
  obtain ⟨new, hout, hplain⟩ := hout
  rw [show f.machine.ledger.out = [] from h.out, nil_append] at hout
  rw [show t.out = new from hout]
  exact hplain

/-- A unit that got `Again` was not taken. -/
lemma again_not_owned (h : Sound f) {i : ℕ} {u : InputUnit} (hlast : last f.history i = some (u, .again))
    (hnew : i ∉ reported f.history) : ¬ f.machine.ledger.Owned (reported f.history) i := by
  rw [owned_iff h]
  rintro (hrep | htaken)
  · exact hnew hrep
  · obtain ⟨u', hok⟩ := h.taken _ htaken
    rw [hok] at hlast
    cases hlast

section Queue

variable {u : InputUnit} {a : QueueAnswer}

/-- The front knows of a unit that is offered that it was not taken. -/
lemma not_owned (h : Sound f) (hoffer : f.offers (.queue u a) = true)
    (hnew : u.index ∉ reported f.history) :
    ¬ f.machine.ledger.Owned (reported f.history) u.index := by
  rw [owned_iff h]
  rintro (hrep | htaken)
  · exact hnew hrep
  · obtain ⟨u', hlast⟩ := h.taken u.index htaken
    simp [offers, hlast] at hoffer

/-- An announced unit is not offered as another one. -/
lemma announced_ne (h : Sound f) (hoffer : f.offers (.queue u a) = true) (hueos : u.eos = false)
    (hpend : f.machine.dec.eosPending = true) : f.machine.dec.eosIndex ≠ u.index := by
  intro heq
  obtain ⟨u', s, hlast, heos, -⟩ := h.announced hpend
  rw [heq] at hlast
  simp only [offers, hlast, Option.all_some, decide_eq_true_eq, Prod.mk.injEq] at hoffer
  rw [hoffer.1, hueos] at heos
  cases heos

/-- The announced unit stays announced while other units come and go. -/
lemma announced_kept (h : Sound f) (hsub : f.machine.dec.eosSubmitted = false)
    (hpend : f.machine.dec.eosPending = true) (hne : f.machine.dec.eosIndex ≠ u.index)
    (hindex : t.dec.eosIndex = f.machine.dec.eosIndex)
    (howned : f.machine.dec.eosIndex ∈ t.ledger.reported (reported f.history) →
      f.machine.ledger.Owned (reported f.history) f.machine.dec.eosIndex) :
    ∃ u' s, last (⟨.queue u a, status, t.out⟩ :: f.history) t.dec.eosIndex = some (u', s) ∧
      u'.eos = true ∧ (t.dec.eosSubmitted = false →
        s = .again ∧ t.dec.eosIndex ∉ t.ledger.reported (reported f.history)) := by
  obtain ⟨u', s, hlast, heos, hagain⟩ := h.announced hpend
  obtain ⟨rfl, hnew⟩ := hagain hsub
  rw [hindex, last_cons_of_ne rfl hne]
  exact ⟨u', .again, hlast, heos, fun _ => ⟨rfl, fun hrep => again_not_owned h hlast hnew (howned hrep)⟩⟩

/-- Whatever is to come after a call with one unit was taken before, or it is this unit. -/
lemma taken_cons (h : Sound f)
    (hbooks : ∃ units k, Books (reported f.history) units k t.ledger)
    (howned : ∀ i, t.ledger.Owned (reported f.history) i →
      f.machine.ledger.Owned (reported f.history) i ∨ (status = .ok ∧ i = u.index))
    (hfree : status = .again → ¬ f.machine.ledger.Owned (reported f.history) u.index)
    (hst : status = .ok ∨ status = .again) (i : ℕ)
    (hi : i ∈ t.dec.pending ∨ (t.dec.eosSubmitted = true ∧ i = t.dec.eosIndex)) :
    ∃ u', last (⟨.queue u a, status, t.out⟩ :: f.history) i = some (u', .ok) := by
  obtain ⟨units, k, hb⟩ := hbooks
  have hunreported : i ∉ t.ledger.reported (reported f.history) := hb.to_come_not_reported hi
  have hold : i ∉ reported f.history := fun hrep => hunreported (mem_append_left _ hrep)
  by_cases hindex : i = u.index
  · subst hindex
    rcases hst with rfl | rfl
    · exact ⟨u, last_cons_self rfl⟩
    · rcases howned u.index (.inr hi) with hmem | ⟨hcontra, -⟩
      · exact absurd hmem (hfree rfl)
      · cases hcontra
  · rw [last_cons_of_ne rfl hindex]
    rcases howned i (.inr hi) with hmem | ⟨-, heq⟩
    · rw [owned_iff h] at hmem
      rcases hmem with hrep | htaken
      · exact absurd hrep hold
      · exact h.taken i htaken
    · exact absurd heq hindex

/-- A unit that was taken is pending, reported or the end of the stream. -/
lemma sound_taken (h : Sound f) (hoffer : f.offers (.queue u a) = true)
    (hsub : f.machine.dec.eosSubmitted = false)
    (hdata : u.data ≠ [] ∨ u.eos = true ∨ u.codecConfig = true)
    (hqueued : Queued (reported f.history) u f.machine.ledger t.ledger) :
    Sound ⟨{ t with out := [] }, ⟨.queue u a, .ok, t.out⟩ :: f.history⟩ := by
  have hself : last (⟨.queue u a, .ok, t.out⟩ :: f.history) u.index = some (u, .ok) := last_cons_self rfl
  have hbooks : ∃ units k, Books (reported f.history) units k t.ledger := by
    rcases hqueued with hc | ⟨l₁, -, -, hended⟩
    · exact hc.books
    · exact ⟨[], 0, hended.books⟩
  have howned : ∀ i, t.ledger.Owned (reported f.history) i ↔
      f.machine.ledger.Owned (reported f.history) i ∨ i = u.index := by
    intro i
    rcases hqueued with hc | ⟨l₁, hc, -, hended⟩
    · rw [hc.owned hdata i, owned_announce hsub]
    · rw [hended.owned i, hc.owned hdata i, owned_announce hsub]
  have houts : (∀ o ∈ t.out, o.eos = false) ∨ ∃ new o, t.out = new ++ [o] ∧
      (∀ o ∈ new, o.eos = false) ∧ o.index = u.index ∧ u.eos = true ∧ t.dec.pending = [] ∧
        t.dec.eosSubmitted = false := by
    have hstart : f.machine.ledger.out = [] := h.out
    rcases hqueued with hc | ⟨l₁, hc, hsub₁, hended⟩
    · exact .inl (outs_plain h hc.out)
    obtain ⟨new, hout, hplain⟩ := hc.out
    obtain ⟨new', o, hout', hplain', -, hindex⟩ := hended.out
    have hueos : u.eos = true := hc.eosSubmitted.symm.trans hsub₁
    refine .inr ⟨new ++ new', o, ?_, ?_, ?_, hueos, hended.pending, hended.eosSubmitted⟩
    · rw [show t.out = _ from hout', hout]
      show f.machine.ledger.out ++ new ++ new' ++ [o] = _
      rw [hstart, nil_append]
    · exact forall_mem_append.mpr ⟨hplain, hplain'⟩
    · rw [hindex, hc.eosIndex]
      simp [announce, hueos]
  refine sound_cons h hbooks ?_ ?_ ?_ ?_ ?_
  · rintro i ⟨u', hmem, rfl⟩
    rw [howned]
    rw [attempts_cons rfl, mem_cons] at hmem
    rcases hmem with heq | hmem
    · cases heq
      exact .inr rfl
    · exact .inl (h.owned _ ⟨u', hmem, rfl⟩)
  · refine taken_cons h hbooks ?_ (fun hcontra => by cases hcontra) (.inl rfl)
    intro i hi
    exact ((howned i).mp hi).imp_right fun heq => ⟨rfl, heq⟩
  · intro hpend
    rcases hqueued with hc | ⟨l₁, -, -, hended⟩
    · cases hueos : u.eos with
      | true =>
        have hindex : t.dec.eosIndex = u.index := hc.eosIndex.trans (by simp [announce, hueos])
        have hsubmitted : t.dec.eosSubmitted = true := hc.eosSubmitted.trans hueos
        refine ⟨u, .ok, hindex ▸ hself, hueos, ?_⟩
        intro hcontra
        exact absurd (hcontra.symm.trans hsubmitted) (by decide)
      | false =>
        have hindex : t.dec.eosIndex = f.machine.dec.eosIndex :=
          hc.eosIndex.trans (by simp [announce, hueos, Machine.ledger])
        have hpend' : f.machine.dec.eosPending = true := by
          have hsame : t.dec.eosPending = (f.machine.dec.eosPending || u.eos) := hc.eosPending
          rw [hueos, Bool.or_false] at hsame
          exact hsame.symm.trans hpend
        have hne := announced_ne h hoffer hueos hpend'
        refine announced_kept h hsub hpend' hne hindex fun hrep => ?_
        exact ((howned _).mp (.inl hrep)).resolve_right hne
    · exact absurd (hended.eosPending.symm.trans hpend) (by decide)
  · intro o ho heos
    rcases houts with hplain | ⟨new, o', hout, hplain, hindex, hueos, -⟩
    · rw [hplain o ho] at heos
      cases heos
    · obtain ⟨rfl, hlast⟩ := eos_is_last hout hplain ho heos
      refine ⟨hlast, u, .ok, ?_, hueos, hindex.symm⟩
      exact mem_cons_self
  · rintro (⟨rc, hcontra⟩ | ⟨o, ho, heos⟩)
    · cases hcontra
    rcases houts with hplain | ⟨new, o', -, -, -, -, hempty⟩
    · rw [hplain o ho] at heos
      cases heos
    · exact hempty

/-- A unit that was not taken is not in the books. -/
lemma sound_retry (h : Sound f) (hoffer : f.offers (.queue u a) = true)
    (hsub : f.machine.dec.eosSubmitted = false) (hnew : u.index ∉ reported f.history)
    (hretry : Retry (reported f.history) u f.machine.ledger t.ledger) :
    Sound ⟨{ t with out := [] }, ⟨.queue u a, .again, t.out⟩ :: f.history⟩ := by
  have hself : last (⟨.queue u a, .again, t.out⟩ :: f.history) u.index = some (u, .again) :=
    last_cons_self rfl
  have hfree := not_owned h hoffer hnew
  obtain ⟨hbooks, howned, hout⟩ := hretry.same hsub
  have hplain := outs_plain h hout
  refine sound_cons h hbooks ?_ ?_ ?_ ?_ ?_
  · rintro i ⟨u', hmem, rfl⟩
    rw [howned]
    rw [attempts_cons rfl, mem_cons] at hmem
    rcases hmem with heq | hmem
    · cases heq
    · exact h.owned _ ⟨u', hmem, rfl⟩
  · refine taken_cons h hbooks ?_ (fun _ => hfree) (.inr rfl)
    intro i hi
    exact .inl ((howned i).mp hi)
  · intro hpend
    -- The announced unit is this one, or one that was announced before.
    have hcases : (u.eos = true ∧ t.dec.eosIndex = u.index) ∨
        (f.machine.dec.eosPending = true ∧ t.dec.eosIndex = f.machine.dec.eosIndex) := by
      rcases hretry with hadv | hadv
      · exact .inr ⟨hadv.eosPending.symm.trans hpend, hadv.eosIndex⟩
      cases hueos : u.eos with
      | true => exact .inl ⟨rfl, hadv.eosIndex.trans (by simp [announce, hueos])⟩
      | false =>
        have hsame : t.dec.eosPending = (f.machine.dec.eosPending || u.eos) := hadv.eosPending
        rw [hueos, Bool.or_false] at hsame
        exact .inr ⟨hsame.symm.trans hpend,
          hadv.eosIndex.trans (by simp [announce, hueos, Machine.ledger])⟩
    have hthis : u.eos = true → t.dec.eosIndex = u.index →
        ∃ u' s, last (⟨.queue u a, .again, t.out⟩ :: f.history) t.dec.eosIndex = some (u', s) ∧
          u'.eos = true ∧ (t.dec.eosSubmitted = false →
            s = .again ∧ t.dec.eosIndex ∉ t.ledger.reported (reported f.history)) := by
      intro hueos hindex
      refine ⟨u, .again, hindex ▸ hself, hueos, fun _ => ⟨rfl, ?_⟩⟩
      rw [hindex]
      exact fun hrep => hfree ((howned _).mp (.inl hrep))
    rcases hcases with ⟨hueos, hindex⟩ | ⟨hpend', hindex⟩
    · exact hthis hueos hindex
    by_cases hsame : f.machine.dec.eosIndex = u.index
    · cases hueos : u.eos with
      | true => exact hthis hueos (hindex.trans hsame)
      | false => exact absurd hsame (announced_ne h hoffer hueos hpend')
    exact announced_kept h hsub hpend' hsame hindex fun hrep => (howned _).mp (.inl hrep)
  · intro o ho heos
    rw [hplain o ho] at heos
    cases heos
  · rintro (⟨rc, hcontra⟩ | ⟨o, ho, heos⟩)
    · cases hcontra
    · rw [hplain o ho] at heos
      cases heos

end Queue

/-- Drained without the end of the stream. -/
lemma sound_advanced (h : Sound f) (hc : Record.attempt ⟨c, status, t.out⟩ = none)
    (hflush : ∀ rc, c ≠ .flush rc)
    (hadv : Advanced (reported f.history) [] f.machine.ledger t.ledger) :
    Sound ⟨{ t with out := [] }, ⟨c, status, t.out⟩ :: f.history⟩ := by
  have howned := hadv.owned_nil
  have hplain := outs_plain h hadv.out
  obtain ⟨units, k, hb⟩ := hadv.books
  have hindex : t.dec.eosIndex = f.machine.dec.eosIndex := hadv.eosIndex
  refine sound_cons h hadv.books ?_ ?_ ?_ ?_ ?_
  · intro i hi
    rw [howned]
    unfold Accepted at hi
    rw [attempts_cons_none hc] at hi
    exact h.owned i hi
  · intro i hi
    rw [last_cons_none hc]
    have hmem := (howned i).mp (.inr hi)
    rw [owned_iff h] at hmem
    rcases hmem with hrep | htaken
    · exact absurd (mem_append_left _ hrep) (hb.to_come_not_reported hi)
    · exact h.taken i htaken
  · intro hpend
    rw [last_cons_none hc, hindex]
    obtain ⟨u, s, hlast, heos, hagain⟩ := h.announced (hadv.eosPending.symm.trans hpend)
    refine ⟨u, s, hlast, heos, fun hsub => ?_⟩
    obtain ⟨rfl, hnew⟩ := hagain (hadv.eosSubmitted.symm.trans hsub)
    exact ⟨rfl, fun hrep => again_not_owned h hlast hnew ((howned _).mp (.inl hrep))⟩
  · intro o ho heos
    rw [hplain o ho] at heos
    cases heos
  · rintro (⟨rc, hcontra⟩ | ⟨o, ho, heos⟩)
    · exact absurd hcontra (hflush rc)
    · rw [hplain o ho] at heos
      cases heos

/-- Drained to the end of the stream. -/
lemma sound_ended (h : Sound f) (hc : Record.attempt ⟨c, status, t.out⟩ = none)
    (hsub : f.machine.dec.eosSubmitted = true)
    (hended : Ended (reported f.history) f.machine.ledger t.ledger) :
    Sound ⟨{ t with out := [] }, ⟨c, status, t.out⟩ :: f.history⟩ := by
  obtain ⟨new, o, hout, hplain, hoeos, hoindex⟩ := hended.out
  rw [show f.machine.ledger.out = [] from h.out, nil_append] at hout
  obtain ⟨units, k, hb⟩ := h.books
  obtain ⟨u, s, hlast, hueos, -⟩ := h.announced (hb.submitted hsub).1
  refine sound_cons h ⟨[], 0, hended.books⟩ ?_ ?_ ?_ ?_ ?_
  · intro i hi
    rw [hended.owned]
    unfold Accepted at hi
    rw [attempts_cons_none hc] at hi
    exact h.owned i hi
  · rintro i (hpending | ⟨hs, -⟩)
    · rw [show t.dec.pending = [] from hended.pending] at hpending
      cases hpending
    · exact absurd (hended.eosSubmitted.symm.trans hs) (by decide)
  · intro hpend
    exact absurd (hended.eosPending.symm.trans hpend) (by decide)
  · intro o' ho' heos
    obtain ⟨rfl, hl⟩ := eos_is_last hout hplain ho' heos
    obtain ⟨hmem, hindex⟩ := last_mem hlast
    refine ⟨hl, u, s, ?_, hueos, hindex.trans hoindex.symm⟩
    rw [attempts_cons_none hc]
    exact hmem
  · intro _
    exact ⟨hended.pending, hended.eosSubmitted⟩

/-- What a flush reports. -/
lemma flushed_out (m : Machine) :
    ∃ o : Output, o.index = m.dec.eosIndex ∧ o.eos = true ∧
      (flushed m).out = m.out ++ (m.dec.pending.map fun i => { index := i }) ++
        if m.dec.eosPending = true then [o] else [] := by
  refine ⟨{ m.dec.eosOut.getD { index := 0 } with index := m.dec.eosIndex, eos := true }, rfl, rfl, ?_⟩
  cases heos : m.dec.eosPending with
  | true => simp [flushed, Machine.finishAll, Machine.report, Machine.setDec, Machine.setLib, heos]
  | false => simp [flushed, Machine.finishAll, Machine.setDec, Machine.setLib, heos]

/-- Flushed: all pending units are reported, and the announced one at the end. -/
lemma sound_flushed {rc : ℤ} (h : Sound f) (hmeets : f.Meets (.flush rc)) :
    Sound ⟨{ flushed f.machine with out := [] },
      ⟨.flush rc, status, (flushed f.machine).out⟩ :: f.history⟩ := by
  obtain ⟨units, k, hb⟩ := h.books
  have hpending : f.machine.dec.pending = units := by
    rcases hb.pending with hp | ⟨hs, hp⟩
    · exact hp
    · refine absurd ⟨(hb.submitted hs).1, ?_⟩ hmeets
      rw [show f.machine.dec.pending = _ from hp]
      exact mem_append_right _ mem_cons_self
  obtain ⟨o, hoindex, hoeos, hout⟩ := flushed_out f.machine
  rw [h.out, nil_append, hpending] at hout
  have hdec : (flushed f.machine).dec.pending = [] ∧ (flushed f.machine).dec.held = none ∧
      (flushed f.machine).lib.produced = [] ∧ (flushed f.machine).dec.eosPending = false ∧
      (flushed f.machine).dec.eosSubmitted = false := by
    cases heos : f.machine.dec.eosPending with
    | true => simp [flushed, Machine.finishAll, Machine.report, Machine.setDec, Machine.setLib, heos]
    | false => simp [flushed, Machine.finishAll, Machine.setDec, Machine.setLib, heos]
  obtain ⟨hnone, hheld, hproduced, hpend, hsub⟩ := hdec
  -- The announced unit was not reported, neither with the pending ones nor before.
  have hlastUnit : f.machine.dec.eosPending = true →
      f.machine.dec.eosIndex ∉ units ∧ f.machine.dec.eosIndex ∉ reported f.history := by
    intro heos
    refine ⟨hb.eos_apart heos, ?_⟩
    cases hs : f.machine.dec.eosSubmitted with
    | true =>
      intro hrep
      exact hb.eos_unreported hs (mem_append_left _ hrep)
    | false =>
      obtain ⟨u, s, -, -, hagain⟩ := h.announced heos
      exact (hagain hs).2
  have hreported : (flushed f.machine).ledger.reported (reported f.history) =
      reported f.history ++ (units ++ if f.machine.dec.eosPending = true then [f.machine.dec.eosIndex]
        else []) := by
    show reported f.history ++ (flushed f.machine).out.map (·.index) = _
    rw [hout, map_append, map_map]
    congr 2
    · exact map_id units
    · split_ifs
      · exact congrArg (fun i => [i]) hoindex
      · rfl
  have hbooks : Books (reported f.history) [] 0 (flushed f.machine).ledger := by
    have hwait : (flushed f.machine).ledger.waiting = [] := by
      show (flushed f.machine).dec.held.toList.map Picture.timestamp ++
        (flushed f.machine).lib.produced.map (fun p => p.picture.timestamp) = []
      rw [hheld, hproduced]
      rfl
    refine .settled ?_ hnone hwait hsub
    have hold : (reported f.history).Nodup := h.finished.once
    have hunits : ∀ i ∈ units, i ∉ reported f.history := by
      intro i hi hrep
      exact hb.unreported i hi (mem_append_left _ hrep)
    rw [hreported, nodup_append, nodup_append]
    refine ⟨hold, ⟨hb.nodup, ?_, ?_⟩, ?_⟩
    · split_ifs
      · exact nodup_singleton _
      · exact nodup_nil
    · rintro i hi j hj rfl
      split_ifs at hj with heos
      · exact (hlastUnit heos).1 (mem_singleton.mp hj ▸ hi)
      · cases hj
    · rintro i hi j hj rfl
      rcases mem_append.mp hj with hj | hj
      · exact hunits i hj hi
      · split_ifs at hj with heos
        · exact (hlastUnit heos).2 (mem_singleton.mp hj ▸ hi)
        · cases hj
  refine sound_cons h ⟨[], 0, hbooks⟩ ?_ ?_ ?_ ?_ ?_
  · intro i hi
    left
    rw [hreported, mem_append, mem_append]
    rcases (owned_iff h i).mp (h.owned i hi) with hrep | hpend | ⟨hs, rfl⟩
    · exact .inl hrep
    · exact .inr (.inl (hpending ▸ hpend))
    · refine .inr (.inr ?_)
      rw [if_pos (show f.machine.dec.eosPending = true from (hb.submitted hs).1)]
      exact mem_cons_self
  · rintro i (hi | ⟨hs, -⟩)
    · rw [hnone] at hi
      cases hi
    · exact absurd (hsub.symm.trans hs) (by decide)
  · intro hcontra
    exact absurd (hpend.symm.trans hcontra) (by decide)
  · intro o' ho' heos
    have hplain : ∀ o ∈ units.map fun i => ({ index := i } : Output), o.eos = false := by
      intro o ho
      obtain ⟨i, -, rfl⟩ := mem_map.mp ho
      rfl
    cases heosPending : f.machine.dec.eosPending with
    | false =>
      rw [hout, heosPending, if_neg (by decide), append_nil] at ho'
      rw [hplain o' ho'] at heos
      cases heos
    | true =>
      rw [heosPending, if_pos rfl] at hout
      obtain ⟨rfl, hl⟩ := eos_is_last hout hplain ho' heos
      obtain ⟨u, s, hlast, hueos, -⟩ := h.announced heosPending
      obtain ⟨hmem, hindex⟩ := last_mem hlast
      refine ⟨hl, u, s, ?_, hueos, hindex.trans hoindex.symm⟩
      exact hmem
  · intro _
    exact ⟨hnone, hsub⟩

end Calls

/-! ## Runs -/

lemma flush_spec (rc : ℤ) (m : Machine) :
    Spec (m = ·) (flush rc) (fun _ t => t = flushed m) fun e _ => e = .error := by
  refine .read fun s hs => ?_
  subst hs
  refine .either (.of_throw fun _ _ => rfl) ?_
  refine .write (· = flushed m) (fun _ h => by rw [h]) ?_
  refine .either ?_ Spec.ret
  refine .read fun s _ => .anew ?_
  exact .of_throw fun _ _ => rfl

lemma step_sound {f f' : Front} {c : Call} (h : Sound f) (hmeets : f.Meets c)
    (hstep : f.step c = some f') : Sound f' := by
  unfold step at hstep
  rcases hrun : exec c.program f.machine with ⟨r, t⟩
  rw [hrun] at hstep
  dsimp only at hstep
  split_ifs at hstep with hcall
  cases hstep
  obtain ⟨hoffer, hstatus⟩ := hcall
  cases c with
  | queue u a =>
    obtain ⟨hsub, hnew, hplain⟩ := hmeets
    have hspec := queue_queued h.books hsub (not_owned h hoffer hnew)
      (fun hueos hpend => announced_ne h hoffer hueos hpend) hplain.answer
    obtain ⟨hok, herr⟩ := hspec _ rfl
    cases r with
    | ok x => exact sound_taken h hoffer hsub hplain.data (hok x t hrun)
    | error e =>
      cases e with
      | again => exact sound_retry h hoffer hsub hnew ((herr _ t hrun).1 rfl)
      | error => exact absurd rfl hstatus
  | drain rounds =>
    have hstart := Advanced.refl h.books
    have hagain : r = .error .again → Advanced (reported f.history) [] f.machine.ledger t.ledger := by
      rintro rfl
      cases hsub : f.machine.dec.eosSubmitted with
      | true => exact ((drain_ended rounds hsub _ hstart).2 _ t hrun).1 rfl
      | false => exact ((drain_advanced rounds hsub _ hstart).2 _ t hrun).1 rfl
    cases r with
    | ok x =>
      cases hsub : f.machine.dec.eosSubmitted with
      | true => exact sound_ended h rfl hsub ((drain_ended rounds hsub _ hstart).1 x t hrun)
      | false =>
        exact sound_advanced h rfl (nofun) ((drain_advanced rounds hsub _ hstart).1 x t hrun).1
    | error e =>
      cases e with
      | again => exact sound_advanced h rfl (nofun) (hagain rfl)
      | error => exact absurd rfl hstatus
  | flush rc =>
    obtain ⟨hok, herr⟩ := flush_spec rc f.machine f.machine rfl
    cases r with
    | ok x =>
      obtain rfl := hok x t hrun
      exact sound_flushed h hmeets
    | error e =>
      obtain rfl := herr e t hrun
      exact absurd rfl hstatus

lemma start_sound (codec : Codec) (maxWidth maxHeight : ℕ) :
    Sound (start codec maxWidth maxHeight) := by
  have hnil : ∀ i : ℕ, i ∉ ([] : List ℕ) := fun _ => not_mem_nil
  refine ⟨rfl, ⟨[], 0, ?_⟩, ?_, ?_, ?_, ?_⟩
  · exact .settled nodup_nil rfl rfl rfl
  · rintro i (hi | ⟨hs, -⟩)
    · cases hi
    · cases hs
  · rintro i ⟨u, hu, -⟩
    cases hu
  · intro hpend
    cases hpend
  refine ⟨nodup_nil, ?_, ?_, fun i hi => absurd hi (hnil i)⟩
  · rintro ⟨r, h, heq, -⟩
    cases heq
  · intro r hr
    cases hr

/-- In a run whose calls meet the condition every unit is finished once. -/
theorem units_finished_once {codec : Codec} {maxWidth maxHeight : ℕ} {calls : List Call} {f : Front}
    (hmeets : Along step Meets (start codec maxWidth maxHeight) calls)
    (hrun : run step (start codec maxWidth maxHeight) calls = some f) : Finished f := by
  have hsound : Sound f :=
    run_invariant_along (fun _ _ _ hs hm hstep => step_sound hs hm hstep)
      (start_sound codec maxWidth maxHeight) hmeets hrun
  exact hsound.finished

/-- A unit of one byte, and one of none. -/
def dataUnit (index : ℕ) (eos : Bool) : InputUnit := ⟨[0], index, eos, false⟩

def emptyUnit (index : ℕ) (eos : Bool) : InputUnit := ⟨[], index, eos, false⟩

/-- Taken with `n` pictures; then the pool has `buffers` buffers. -/
def takenWith (n buffers : ℕ) : QueueAnswer where
  tries := [{ decode := .accepted (List.replicate n ⟨8, 64, 64⟩) }]
  rounds := List.replicate buffers ⟨.pick 0, { fetch := .block 0 none }⟩

/-- A unit waits for a buffer, and the next is the last of the stream, with two pictures. -/
def plainCalls : List Call :=
  [.queue (dataUnit 0 false) (takenWith 1 0), .queue (dataUnit 1 true) (takenWith 2 3)]

theorem units_finished_once_at_end :
    ∃ f, run step (start .av1 64 64) plainCalls = some f ∧ Finished f ∧ reported f.history = [0, 1] := by
  have hplain : ∀ u : InputUnit, ∀ n buffers, u.data ≠ [] → n ≤ 1 ∨ u.eos = true →
      PlainUnit u (takenWith n buffers) := by
    intro u n buffers hdata hn
    have hnone : ∀ d ∈ ([] : List Decoded), d.silent = true := fun d hd => absurd hd not_mem_nil
    refine ⟨.inl hdata, rfl, hnone, forall_mem_singleton.mpr ⟨?_, hnone⟩⟩
    rcases hn with hn | hn
    all_goals simp [Decoded.single, hn]
  have hmeets : Along step Meets (start .av1 64 64) plainCalls := by
    refine ⟨⟨rfl, not_mem_nil, hplain _ _ _ (by decide) (by decide)⟩, ?_⟩
    intro s hs
    cases hs
    refine ⟨⟨rfl, by decide, hplain _ _ _ (by decide) (by decide)⟩, ?_⟩
    exact fun _ _ => trivial
  exact ⟨_, rfl, units_finished_once hmeets rfl, by decide⟩

/-- The indices reported in a run. -/
def reportedBy (codec : Codec) (calls : List Call) : Option (List ℕ) :=
  (run step (start codec 64 64) calls).map fun f => reported f.history

/-- A unit with two pictures is reported twice, and so are a rejected unit with a picture, a unit of
data at the end of the stream that is flushed, and a unit that is queued behind the end of the
stream. Of two ends of the stream the first is never reported, and neither is a unit without data. -/
theorem books_disagree :
    reportedBy .av1 [.queue (dataUnit 0 false) (takenWith 2 2)] = some [0, 0] ∧
    reportedBy .av1 [.queue (dataUnit 0 false)
      { takenWith 0 1 with tries := [{ decode := .bitstream [⟨8, 64, 64⟩] }] }] = some [0, 0] ∧
    reportedBy .av1 [.queue (dataUnit 0 true) (takenWith 1 0), .flush 0] = some [0, 0] ∧
    reportedBy .h264 [.queue (dataUnit 0 false) (takenWith 1 0), .queue (emptyUnit 1 true) (takenWith 0 0),
      .queue (dataUnit 2 false) { takenWith 1 1 with rounds := [⟨.pick 0, { fetch := .block 0 none }⟩,
        ⟨.pick 1, { fetch := .again }⟩] }, .drain [⟨.pick 0, { fetch := .block 0 none }⟩]] =
          some [0, 2, 1, 2] ∧
    reportedBy .av1 [.queue (dataUnit 0 false) (takenWith 1 0), .queue (emptyUnit 1 true) (takenWith 0 0),
      .queue (emptyUnit 2 true) (takenWith 0 1), .flush 0] = some [0, 2] ∧
    reportedBy .av1 [.queue (emptyUnit 0 false) (takenWith 0 0), .flush 0] = some [] := by
  decide +kernel

end Front

end NvidiaProlapse.Media
