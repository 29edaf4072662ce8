import NvidiaProlapse.MediaBuffers
import NvidiaProlapse.MediaFlush

/-!
# Buffers and fences of the component

What the decoder returns is delivered item by item: the buffer leaves the map with the
item of its frame index. An output whose index is not known and an output that a flush
returns keep their buffers in the map, so every picture must find its item, and no
flush may come while a picture waits for the end of the stream.
-/
namespace NvidiaProlapse.Media

open Programs Runs List

/-- What the decoder knows between two calls. -/
def ledgerOf (d : Decoder) (lib : Library) : Ledger := Machine.ledger { dec := d, lib := lib }

/-- The decoder's books agree, and every unit it will report has its item. -/
structure Working (d : Decoder) (lib : Library) (pending : List Work) : Prop where
  books : ∃ units k, Books [] units k (ledgerOf d lib)
  lone : Lone (ledgerOf d lib) d.deferred
  known : ∀ i, (ledgerOf d lib).Owned [] i → i ∈ pending.map Work.index

namespace Component

def deferred (c : Component) : Option Shown := c.decoder.bind Decoder.deferred

/-- Buffers are in the map only for the picture that waits for the end of the stream. -/
structure Conserving (c : Component) : Prop where
  balance : Balance c.pool c.fences (c.deferred.toList.map Shown.token)
  atStop : c.atStop = []
  fresh : c.decoder = none → c.lib.produced = []
  working : c.error = false → ∀ d, c.decoder = some d → Working d c.lib c.pending

variable {c c' : Component}

lemma Conserving.fatal (h : Conserving c) : Conserving c.fatal :=
  { h with working := nofun }

lemma Conserving.notify (h : Conserving c) (done : List Result) (retry : Option Work) :
    Conserving (c.notify done retry) := by
  unfold Component.notify
  split_ifs
  · exact { h with }
  · exact { h with }

/-! ## Delivery -/

/-- What the outputs leave behind. -/
structure Delivered (c : Component) (outs : List Output) (rest : List Token) (c' : Component) : Prop where
  balance : Balance c'.pool c'.fences rest
  pending : ∀ i, i ∈ c'.pending.map Work.index ↔ i ∈ c.pending.map Work.index ∧ i ∉ outs.map (·.index)
  decoder : c'.decoder = c.decoder
  lib : c'.lib = c.lib
  atStop : c'.atStop = c.atStop
  error : c'.error = false → c.error = false

lemma mem_take (c : Component) (i j : ℕ) :
    j ∈ (c.take i).pending.map Work.index ↔ j ∈ c.pending.map Work.index ∧ j ≠ i := by
  unfold take
  simp only [mem_map, mem_filter, decide_eq_true_eq]
  constructor
  · rintro ⟨w, ⟨hw, hne⟩, rfl⟩
    exact ⟨⟨w, hw, rfl⟩, hne⟩
  · rintro ⟨⟨w, hw, rfl⟩, hne⟩
    exact ⟨w, ⟨hw, hne⟩, rfl⟩

variable {rest : List Token} {m : Machine} {d : Decoder} {w : Work} {l₀ : Ledger} {a : WorkAnswer}

/-- The picture of a known item. -/
lemma deliverPicture_delivered (w : Work) (o : Output) (s : Shown) (signalled : Bool)
    (h : Balance c.pool c.fences (s.token :: rest)) : let c' := (c.deliverPicture w o s signalled).1
    Balance c'.pool c'.fences rest ∧ c'.pending = c.pending ∧ c'.decoder = c.decoder ∧
      c'.lib = c.lib ∧ c'.atStop = c.atStop ∧ (c'.error = false → c.error = false) := by
  unfold deliverPicture
  cases s.releaseFence.isSome && !signalled with
  | true => exact ⟨h.closeFence.dropBlock, rfl, rfl, rfl, rfl, nofun⟩
  | false => exact ⟨h.closeFence.dropBlock, rfl, rfl, rfl, rfl, id⟩

lemma deliverOne_delivered (o : Output) (signalled : Bool)
    (h : Balance c.pool c.fences (tokensOf [o] ++ rest)) (hknown : o.index ∈ c.pending.map Work.index) :
    Delivered c [o] rest (c.deliverOne o signalled).1 := by
  obtain ⟨v, hv, hvindex⟩ := mem_map.mp hknown
  have hfound : ∃ w, c.pending.find? (·.index = o.index) = some w := by
    rw [← Option.isSome_iff_exists, find?_isSome]
    exact ⟨v, hv, by simpa using hvindex⟩
  obtain ⟨w, hw⟩ := hfound
  have htaken : ∀ i, i ∈ (c.take o.index).pending.map Work.index ↔
      i ∈ c.pending.map Work.index ∧ i ∉ [o].map (·.index) := by
    intro i
    rw [mem_take, map_singleton, mem_singleton]
  unfold deliverOne
  rw [hw]
  cases hshown : o.shown with
  | none =>
    have htokens : tokensOf [o] = [] := tokensOf_empty (by simpa using hshown)
    rw [htokens] at h
    exact ⟨h, htaken, rfl, rfl, rfl, id⟩
  | some s =>
    have htokens : tokensOf [o] = [s.token] := by
      unfold tokensOf
      rw [filterMap_cons_some hshown]
      rfl
    rw [htokens] at h
    obtain ⟨hbalance, hpending, hdecoder, hlib, hstop, herror⟩ :=
      deliverPicture_delivered (c := c.take o.index) w o s signalled h
    exact ⟨hbalance, hpending ▸ htaken, hdecoder, hlib, hstop, herror⟩

lemma deliver_delivered (outs : List Output) (signalled : List Bool)
    (h : Balance c.pool c.fences (tokensOf outs ++ rest)) (honce : (outs.map (·.index)).Nodup)
    (hknown : ∀ i ∈ outs.map (·.index), i ∈ c.pending.map Work.index) :
    Delivered c outs rest (c.deliver outs signalled).1 := by
  induction outs generalizing c signalled with
  | nil =>
    refine ⟨h, fun i => ?_, rfl, rfl, rfl, id⟩
    simp [deliver]
  | cons o outs ih =>
    rw [map_cons, nodup_cons] at honce
    have hfirst : Delivered c [o] (tokensOf outs ++ rest) (c.deliverOne o (signalled.headD true)).1 := by
      refine deliverOne_delivered o _ ?_ (hknown _ mem_cons_self)
      rw [← append_assoc, ← tokensOf_append]
      exact h
    have hrest := ih signalled.tail hfirst.balance honce.2 (by
      intro i hi
      rw [hfirst.pending]
      refine ⟨hknown i (mem_cons_of_mem _ hi), ?_⟩
      rw [map_singleton, mem_singleton]
      rintro rfl
      exact honce.1 hi)
    refine ⟨hrest.balance, fun i => ?_, hrest.decoder.trans hfirst.decoder, hrest.lib.trans hfirst.lib,
      hrest.atStop.trans hfirst.atStop, fun he => hfirst.error (hrest.error he)⟩
    refine (hrest.pending i).trans ?_
    rw [hfirst.pending i, map_singleton, mem_singleton, map_cons, mem_cons, not_or, and_assoc]

/-! ## Calls of the decoder -/

/-- The outputs of a call were not delivered yet. -/
structure Called (c : Component) (m : Machine) : Prop where
  decoder : c.decoder = some m.dec
  lib : c.lib = m.lib
  pool : c.pool = m.pool
  fences : c.fences = m.fences
  balance : Balance m.pool m.fences m.tokens
  once : (m.out.map (·.index)).Nodup
  known : ∀ i ∈ m.out.map (·.index), i ∈ c.pending.map Work.index
  atStop : c.atStop = []

lemma Called.deliver (h : Called c m) (signalled : List Bool) :
    Delivered c m.out (m.dec.deferred.toList.map Shown.token) (c.deliver m.out signalled).1 := by
  refine deliver_delivered m.out signalled ?_ h.once h.known
  rw [h.pool, h.fences]
  exact h.balance

lemma deferred_eq (hdecoder : c.decoder = some d) : c.deferred = d.deferred := by
  unfold Component.deferred
  rw [hdecoder]
  rfl

lemma Delivered.deferred {outs : List Output} (h : Delivered c outs rest c')
    (hdecoder : c.decoder = some m.dec) : c'.deferred = m.dec.deferred :=
  deferred_eq (h.decoder.trans hdecoder)

/-- After a failed call. -/
lemma Called.fatal (h : Called c m) (signalled : List Bool) :
    Conserving (c.deliver m.out signalled).1.fatal := by
  have hdelivered := h.deliver signalled
  refine ⟨?_, hdelivered.atStop.trans h.atStop, ?_, nofun⟩
  · have hdeferred : (c.deliver m.out signalled).1.fatal.deferred = m.dec.deferred :=
      hdelivered.deferred h.decoder
    rw [hdeferred]
    exact hdelivered.balance
  · intro hnone
    have hsome : (c.deliver m.out signalled).1.decoder = some m.dec := hdelivered.decoder.trans h.decoder
    rw [show (c.deliver m.out signalled).1.decoder = none from hnone] at hsome
    cases hsome

/-- The books after the outputs were taken away. -/
lemma Books.forget {units : List ℕ} {k : ℕ} (h : Books [] units k m.ledger) :
    Books [] units k (ledgerOf m.dec m.lib) where
  once := List.nodup_nil
  nodup := h.nodup
  unreported _ _ := List.not_mem_nil
  pending := h.pending
  waiting := h.waiting
  in_order := h.in_order
  eos_apart := h.eos_apart
  eos_unreported _ := List.not_mem_nil
  submitted := h.submitted
  single := h.single

/-- After a call that did not fail. -/
lemma Called.conserving (h : Called c m) (signalled : List Bool)
    (hgood : c.error = false → (∃ units k, Books [] units k m.ledger) ∧
      Lone m.ledger m.dec.deferred ∧ ∀ i, m.ledger.Owned [] i → i ∈ c.pending.map Work.index) :
    Conserving (c.deliver m.out signalled).1 := by
  have hdelivered := h.deliver signalled
  have hsome : (c.deliver m.out signalled).1.decoder = some m.dec := hdelivered.decoder.trans h.decoder
  refine ⟨?_, hdelivered.atStop.trans h.atStop, fun hnone => ?_, fun herror d hd => ?_⟩
  · rw [hdelivered.deferred h.decoder]
    exact hdelivered.balance
  · rw [hnone] at hsome
    cases hsome
  obtain rfl : m.dec = d := Option.some.inj (hsome.symm.trans hd)
  obtain ⟨⟨units, k, hbooks⟩, hlone, hknown⟩ := hgood (hdelivered.error herror)
  rw [hdelivered.lib, h.lib]
  refine ⟨⟨units, k, Books.forget hbooks⟩, ⟨hlone.closed, hlone.single⟩, fun i hi => ?_⟩
  have htocome : i ∈ m.ledger.pending ∨ (m.ledger.eosSubmitted = true ∧ i = m.ledger.eosIndex) :=
    hi.resolve_left not_mem_nil
  rw [hdelivered.pending i]
  exact ⟨hknown i (.inr htocome), hbooks.to_come_not_reported htocome⟩

/-! ## The worker -/

/-- The decoder's state when it is called. -/
def machine (c : Component) (d : Decoder) (lastError : String) : Machine :=
  { dec := d, lib := { c.lib with lastError := lastError }, pool := c.pool, fences := c.fences }

lemma onDecoder_called {lastError : String} {p : Prog Machine Stop Unit} {r : Except Stop Unit}
    (hrun : exec p (c.machine d lastError) = (r, m)) : c.onDecoder d lastError p = (statusOf r, m.out,
      { c with decoder := some m.dec, lib := m.lib, pool := m.pool, fences := m.fences }) := by
  unfold machine at hrun
  unfold onDecoder
  rw [hrun]

lemma put_pending (hkey : w.index ∉ c.pending.map Work.index) :
    (c.put w).pending = c.pending ++ [w] := by
  unfold put
  rw [filter_eq_self.mpr]
  intro v hv
  have hne : v.index ≠ w.index := fun heq => hkey (heq ▸ mem_map_of_mem hv)
  simpa using hne

/-- What a call of the decoder leaves; beside units that it had, it finished those of `added`. -/
structure Handled (l₀ : Ledger) (added : List ℕ) (failed : Bool) (m : Machine) : Prop where
  balance : Balance m.pool m.fences m.tokens
  once : (m.out.map (·.index)).Nodup
  reported : ∀ i ∈ m.out.map (·.index), l₀.Owned [] i ∨ i ∈ added
  good : failed = false → (∃ units k, Books [] units k m.ledger) ∧ Lone m.ledger m.dec.deferred ∧
    ∀ i, m.ledger.Owned [] i → l₀.Owned [] i ∨ i ∈ added

/-- A call that did not fail. -/
lemma Handled.of_books {added : List ℕ} (h : Kept m) (hbooks : ∃ units k, Books [] units k m.ledger)
    (howned : ∀ i, m.ledger.Owned [] i → l₀.Owned [] i ∨ i ∈ added) : Handled l₀ added false m := by
  obtain ⟨units, k, hunits⟩ := hbooks
  exact ⟨h.balance, hunits.once, fun i hi => howned i (.inl hi),
    fun _ => ⟨⟨units, k, hunits⟩, h.lone, howned⟩⟩

lemma Handled.of_faulted {added : List ℕ} (h : Stopped .error m)
    (hfaulted : Faulted [] added l₀ m.ledger) : Handled l₀ added true m := by
  refine ⟨h.balance, hfaulted.once, hfaulted.owned, ?_⟩
  intro hcontra
  cases hcontra

section Calls

variable {d : Decoder} {u : InputUnit} {a : QueueAnswer} {lastError : String} {r : Except Stop Unit}
  {m : Machine}

lemma queue_handled (hworking : Working d c.lib c.pending)
    (hbalance : Balance c.pool c.fences (d.deferred.toList.map Shown.token))
    (hfree : ¬ (ledgerOf d c.lib).Owned [] u.index) (hsub : d.eosSubmitted = false)
    (hpending : d.eosPending = true → u.eos = true) (hfrugal : FrugalAnswer u a)
    (hrun : exec (Media.queue u a) (c.machine d lastError) = (r, m)) :
    Handled (ledgerOf d c.lib) (if statusOf r = .again then [] else [u.index])
      (decide (statusOf r = .error)) m := by
  have hother : u.eos = false → d.eosPending = true → d.eosIndex ≠ u.index := by
    intro hueos hp
    exact absurd ((hpending hp).symm.trans hueos) (by decide)
  obtain ⟨hok, herr⟩ := queue_queued (m := c.machine d lastError) hworking.books hsub hfree hother
    hfrugal.plain _ rfl
  obtain ⟨hok', herr'⟩ := queue_kept (m := c.machine d lastError)
    ⟨hbalance, hworking.lone.closed, hworking.lone.single⟩ hworking.books hsub hfree hpending hfrugal _ rfl
  cases r with
  | ok x =>
    have hqueued := hok x m hrun
    refine .of_books (hok' x m hrun) ?_ fun i hi => ?_
    · rcases hqueued with hc | ⟨l, -, -, hended⟩
      · exact hc.books
      · exact ⟨[], 0, hended.books⟩
    have htaken : (announce u (ledgerOf d c.lib)).Owned [] i ∨ i = u.index := by
      rcases hqueued with hc | ⟨l, hc, -, hended⟩
      · exact hc.only i hi
      · exact hc.only i ((hended.owned i).mp hi)
    exact htaken.imp (owned_announce hsub i).mp mem_singleton.mpr
  | error e =>
    have hstop := herr e m hrun
    have hstopped := herr' e m hrun
    cases e with
    | again =>
      obtain ⟨hbooks, howned, -⟩ := (hstop.1 rfl).same hsub
      exact .of_books ⟨hstopped.balance, hstopped.lone rfl⟩ hbooks fun i hi => .inl ((howned i).mp hi)
    | error => exact .of_faulted hstopped hstop.2

lemma drain_handled {rounds : List Round} (hworking : Working d c.lib c.pending)
    (hbalance : Balance c.pool c.fences (d.deferred.toList.map Shown.token))
    (hrun : exec (Media.drain rounds) (c.machine d lastError) = (r, m)) :
    Handled (ledgerOf d c.lib) [] (decide (statusOf r = .error)) m := by
  have hstart : Advanced [] [] (ledgerOf d c.lib) (c.machine d lastError).ledger :=
    Advanced.refl hworking.books
  obtain ⟨hok', herr'⟩ := drain_kept rounds (c.machine d lastError)
    ⟨hbalance, hworking.lone.closed, hworking.lone.single⟩
  -- The end of the stream is reported, or it did not come yet.
  have hspec : Spec (c.machine d lastError = ·) (Media.drain rounds)
      (fun _ t => (∃ units k, Books [] units k t.ledger) ∧
        ∀ i, t.ledger.Owned [] i → (ledgerOf d c.lib).Owned [] i)
      (Halted [] [] (ledgerOf d c.lib)) := by
    cases hsub : d.eosSubmitted with
    | true =>
      refine ((drain_ended rounds hsub).enter hstart).after ?_
      exact fun _ t ht => ⟨⟨[], 0, ht.books⟩, fun i hi => (ht.owned i).mp hi⟩
    | false =>
      refine ((drain_advanced rounds hsub).enter hstart).after ?_
      exact fun _ t ht => ⟨ht.1.books, fun i hi => (ht.1.owned_nil i).mp hi⟩
  obtain ⟨hok, herr⟩ := hspec _ rfl
  cases r with
  | ok x =>
    obtain ⟨hbooks, howned⟩ := hok x m hrun
    exact .of_books (hok' x m hrun) hbooks fun i hi => .inl (howned i hi)
  | error e =>
    have hstop := herr e m hrun
    have hstopped := herr' e m hrun
    cases e with
    | again =>
      have hadv := hstop.1 rfl
      exact .of_books ⟨hstopped.balance, hstopped.lone rfl⟩ hadv.books fun i hi => (hadv.owned i).mp hi
    | error => exact .of_faulted hstopped hstop.2

end Calls

/-- The item is in the map while the outputs are delivered, unless the decoder did not take it. -/
lemma settle_conserving {status : Status} {before : List Work} {signalled : List Bool}
    (h : Handled l₀ (if status = .again then [] else [w.index]) (decide (status = .error)) m)
    (hdecoder : c.decoder = some m.dec) (hlib : c.lib = m.lib) (hpool : c.pool = m.pool)
    (hfences : c.fences = m.fences) (hstop : c.atStop = []) (hpending : c.pending = before ++ [w])
    (hkey : w.index ∉ before.map Work.index) (hknown : ∀ i, l₀.Owned [] i → i ∈ before.map Work.index) :
    Conserving (c.settle w status m.out signalled) := by
  have hmem : ∀ i, i ∈ c.pending.map Work.index ↔ i ∈ before.map Work.index ∨ i = w.index := by
    intro i
    rw [hpending, map_append, mem_append, map_singleton, mem_singleton]
  have hcalled : ∀ c₁ : Component, c₁.decoder = c.decoder → c₁.lib = c.lib → c₁.pool = c.pool →
      c₁.fences = c.fences → c₁.atStop = c.atStop →
      (∀ i, l₀.Owned [] i ∨ i ∈ (if status = .again then [] else [w.index]) →
        i ∈ c₁.pending.map Work.index) → Called c₁ m := by
    intro c₁ h1 h2 h3 h4 h5 hall
    exact ⟨h1.trans hdecoder, h2.trans hlib, h3.trans hpool, h4.trans hfences, h.balance, h.once,
      fun i hi => hall i (h.reported i hi), h5.trans hstop⟩
  cases status with
  | ok =>
    have hall : ∀ i, l₀.Owned [] i ∨ i ∈ [w.index] → i ∈ c.pending.map Work.index := by
      intro i hi
      rw [hmem]
      exact hi.imp (hknown i) mem_singleton.mp
    refine .notify ((hcalled c rfl rfl rfl rfl rfl hall).conserving signalled fun _ => ?_) _ _
    obtain ⟨hbooks, hlone, howned⟩ := h.good rfl
    exact ⟨hbooks, hlone, fun i hi => hall i (howned i hi)⟩
  | again =>
    have hall : ∀ i, l₀.Owned [] i ∨ i ∈ [] → i ∈ (c.take w.index).pending.map Work.index := by
      intro i hi
      have howned := hknown i (hi.resolve_right not_mem_nil)
      rw [mem_take, hmem]
      refine ⟨.inl howned, ?_⟩
      rintro rfl
      exact hkey howned
    refine .notify
      ((hcalled (c.take w.index) rfl rfl rfl rfl rfl hall).conserving signalled fun _ => ?_) _ _
    obtain ⟨hbooks, hlone, howned⟩ := h.good rfl
    exact ⟨hbooks, hlone, fun i hi => hall i (howned i hi)⟩
  | error =>
    refine .notify ((hcalled c rfl rfl rfl rfl rfl fun i hi => ?_).fatal signalled) _ _
    rw [hmem]
    exact hi.imp (hknown i) mem_singleton.mp

lemma Conserving.of_decoder (h : Conserving c) (hdecoder : c.decoder = some d) :
    Balance c.pool c.fences (d.deferred.toList.map Shown.token) := by
  rw [← deferred_eq hdecoder]
  exact h.balance

lemma hand_conserving (h : Conserving c) (hdecoder : c.decoder = some d) (herror : c.error = false)
    (hkey : w.index ∉ c.pending.map Work.index) (hsub : d.eosSubmitted = false)
    (hpending : d.eosPending = true → w.unit.eos = true) (hfrugal : FrugalAnswer w.unit a.queue) :
    Conserving (c.hand d w a) := by
  have hworking := h.working herror d hdecoder
  rcases hrun : exec (Media.queue w.unit a.queue) (c.machine d a.lastError) with ⟨r, m⟩
  have hhandled := queue_handled hworking (h.of_decoder hdecoder)
    (fun howned => hkey (hworking.known _ howned)) hsub hpending hfrugal hrun
  have hcall := onDecoder_called (c := { c.put w with log := .handed w :: c.log }) hrun
  unfold hand
  dsimp only
  rw [hcall]
  exact settle_conserving hhandled rfl rfl rfl rfl h.atStop (put_pending hkey) hkey hworking.known

/-- A decoder with nothing to show. -/
lemma idle_working {lib : Library} (hidle : d.idle) (hlib : lib.produced = []) (pending : List Work) :
    Working d lib pending := by
  obtain ⟨hpending, hheld, heos, hsub, hout⟩ := hidle
  have hwaiting : (ledgerOf d lib).waiting = [] := by
    show d.held.toList.map _ ++ lib.produced.map _ = []
    rw [hheld, hlib]
    rfl
  refine ⟨⟨[], 0, .settled nodup_nil hpending hwaiting hsub⟩, ⟨fun _ => ?_, fun hp => ?_⟩, ?_⟩
  · unfold Decoder.deferred
    rw [hout]
    rfl
  · exact absurd (hp.symm.trans heos) (by decide)
  rintro i (hi | hi | ⟨hs, -⟩)
  · cases hi
  · rw [show (ledgerOf d lib).pending = [] from hpending] at hi
    cases hi
  · exact absurd (hs.symm.trans hsub) (by decide)

/-- Each unit has one picture at most, its index is free, and none follows the end of the stream. -/
structure Suitable (c : Component) (w : Work) (a : WorkAnswer) : Prop where
  key : w.index ∉ c.pending.map Work.index
  unsubmitted : ∀ d ∈ c.decoder, d.eosSubmitted = false
  ending : ∀ d ∈ c.decoder, d.eosPending = true → w.unit.eos = true
  frugal : FrugalAnswer w.unit a.queue

lemma process_conserving (h : Conserving c) (herror : c.error = false) (hsuitable : Suitable c w a) :
    Conserving (c.process w a) := by
  unfold process
  split_ifs with hmap hcsd hcreate
  · exact h.fatal
  · refine .notify ?_ _ _
    exact { h with }
  · exact h.fatal
  obtain ⟨d, hd⟩ : ∃ d, d = c.decoder.getD c.newDecoder := ⟨_, rfl⟩
  rw [← hd]
  -- With or without an earlier decoder, this one's books agree.
  have hnew : Conserving { c with decoder := some d } := by
    cases hdecoder : c.decoder with
    | some d' =>
      rw [hdecoder, Option.getD_some] at hd
      subst hd
      have hsame : ({ c with decoder := some d } : Component) = c := by
        rw [← hdecoder]
      rw [hsame]
      exact h
    | none =>
      rw [hdecoder, Option.getD_none] at hd
      subst hd
      have hnone : c.deferred = none := by
        unfold Component.deferred
        rw [hdecoder]
        rfl
      have hbalance := h.balance
      rw [hnone] at hbalance
      refine ⟨hbalance, h.atStop, ?_, ?_⟩
      · intro hcontra
        cases hcontra
      intro _ d' hd'
      cases hd'
      exact idle_working ⟨rfl, rfl, rfl, rfl, rfl⟩ (h.fresh hdecoder) c.pending
  dsimp only
  split_ifs
  · exact hnew.fatal
  have hcurrent : c.decoder = some d ∨ d = c.newDecoder := by
    cases hdecoder : c.decoder with
    | some d' =>
      rw [hdecoder, Option.getD_some] at hd
      exact .inl (congrArg some hd.symm)
    | none =>
      rw [hdecoder, Option.getD_none] at hd
      exact .inr hd
  refine hand_conserving { hnew with } rfl herror hsuitable.key ?_ ?_ hsuitable.frugal
  · rcases hcurrent with hold | rfl
    · exact hsuitable.unsubmitted d hold
    · rfl
  rcases hcurrent with hold | rfl
  · exact hsuitable.ending d hold
  · intro hp
    cases hp

lemma drainHeld_conserving (h : Conserving c) (herror : c.error = false) :
    Conserving (c.drainHeld a) := by
  unfold drainHeld
  cases hdecoder : c.decoder with
  | none => exact h
  | some d =>
    have hworking := h.working herror d hdecoder
    rcases hrun : exec (Media.drain a.drain) (c.machine d a.lastError) with ⟨r, m⟩
    have hhandled := drain_handled hworking (h.of_decoder hdecoder) hrun
    dsimp only
    rw [onDecoder_called hrun]
    have hall : ∀ i, (ledgerOf d c.lib).Owned [] i ∨ i ∈ [] → i ∈ c.pending.map Work.index :=
      fun i hi => hworking.known i (hi.resolve_right not_mem_nil)
    have hcalled : Called { c with
        decoder := some m.dec, lib := m.lib, pool := m.pool, fences := m.fences } m :=
      ⟨rfl, rfl, rfl, rfl, hhandled.balance, hhandled.once, fun i hi => hall i (hhandled.reported i hi),
        h.atStop⟩
    split_ifs with hpool hstatus
    · have hfatal : Called (Component.fatal { c with
          decoder := some m.dec, lib := m.lib, pool := m.pool, fences := m.fences }) m :=
        { hcalled with decoder := rfl, lib := rfl, pool := rfl, fences := rfl }
      refine .notify (hfatal.conserving _ fun hcontra => ?_) _ _
      cases hcontra
    · refine .notify (hcalled.conserving _ fun _ => ?_) _ _
      obtain ⟨hbooks, hlone, howned⟩ := hhandled.good (decide_eq_false hstatus)
      exact ⟨hbooks, hlone, fun i hi => hall i (howned i hi)⟩
    · exact h

lemma work_conserving (h : Conserving c)
    (hsuitable : c.quit = false → c.error = false → ∀ w ∈ c.queue.head?, Suitable c w a) :
    Conserving (c.work a) := by
  unfold work
  split_ifs with hquit herror
  · exact { h with }
  · exact { h with }
  · exact { h with }
  have herror' : c.error = false := Bool.eq_false_iff.mpr herror
  cases hqueue : c.queue with
  | nil => exact drainHeld_conserving h herror'
  | cons w queue =>
    obtain ⟨hkey, hsub, hending, hfrugal⟩ :=
      hsuitable (Bool.eq_false_iff.mpr hquit) herror' w (by rw [hqueue]; rfl)
    refine process_conserving ?_ herror' ⟨hkey, hsub, hending, hfrugal⟩
    exact { h with }

/-! ## The client -/

lemma claim_unchanged (outs : List Output) (c : Component) :
    ∃ pending, (c.claim outs).1 = { c with pending := pending } := by
  induction outs generalizing c with
  | nil => exact ⟨c.pending, rfl⟩
  | cons o outs ih =>
    obtain ⟨pending, hpending⟩ := ih (c.take o.index)
    exact ⟨pending, hpending⟩

/-- With no picture in the end-of-stream output a flush loses no buffer. -/
lemma flushDecoder_conserving (rc : ℤ) (lastError : String) (h : Conserving c)
    (hdeferred : c.deferred = none) :
    let c' := (c.flushDecoder rc lastError).1
    Balance c'.pool c'.fences (c'.deferred.toList.map Shown.token) ∧ c'.atStop = [] ∧
      (c'.decoder = none → c'.lib.produced = []) ∧
      (c'.error = false → ∀ d, c'.decoder = some d → d.idle ∧ c'.lib.produced = []) := by
  unfold flushDecoder
  cases hdecoder : c.decoder with
  | none =>
    refine ⟨h.balance, h.atStop, fun _ => h.fresh hdecoder, fun _ d hd => ?_⟩
    rw [hdecoder] at hd
    cases hd
  | some d =>
    have hnone : d.deferred = none := (deferred_eq hdecoder).symm.trans hdeferred
    have hbalance : Balance c.pool c.fences [] := by
      have hb := h.balance
      rw [hdeferred] at hb
      exact hb
    rcases hrun : exec (Media.flush rc) (c.machine d lastError) with ⟨r, m⟩
    dsimp only
    rw [onDecoder_called hrun]
    obtain ⟨hok, herr⟩ := flush_spec (m := c.machine d lastError) rc hnone _ rfl
    obtain ⟨hpool, hfences, hnone', hidle⟩ : m.pool = c.pool ∧ m.fences = c.fences ∧
        m.dec.deferred = none ∧ (statusOf r = .ok → m.dec.idle ∧ m.lib.produced = []) := by
      cases r with
      | ok x =>
        obtain ⟨hpool, hfences, -, hidle, hproduced⟩ := hok x m hrun
        refine ⟨hpool, hfences, ?_, fun _ => ⟨hidle, hproduced⟩⟩
        unfold Decoder.deferred
        rw [hidle.2.2.2.2]
        rfl
      | error e =>
        obtain ⟨hpool, hfences, -, hdropped⟩ := herr e m hrun
        refine ⟨hpool, hfences, hdropped, fun hcontra => ?_⟩
        cases e <;> cases hcontra
    have hafter : Balance m.pool m.fences (m.dec.deferred.toList.map Shown.token) := by
      rw [hpool, hfences, hnone']
      exact hbalance
    split_ifs with hstatus
    · obtain ⟨pending, hclaim⟩ := claim_unchanged m.out (Component.fatal { c with
        decoder := some m.dec, lib := m.lib, pool := m.pool, fences := m.fences })
      rw [hclaim]
      refine ⟨hafter, h.atStop, fun hcontra => ?_, fun hcontra => ?_⟩
      · cases hcontra
      · cases hcontra
    · obtain ⟨pending, hclaim⟩ := claim_unchanged m.out { c with
        decoder := some m.dec, lib := m.lib, pool := m.pool, fences := m.fences }
      rw [hclaim]
      refine ⟨hafter, h.atStop, fun hcontra => ?_, fun _ d' hd' => ?_⟩
      · cases hcontra
      · cases hd'
        exact hidle (not_not.mp hstatus)

lemma flushSm_conserving {rc : ℤ} {lastError : String} (h : Conserving c)
    (hdeferred : c.deferred = none) : Conserving (c.flushSm rc lastError) := by
  have hqueue : Conserving { c with queue := [] } := { h with }
  obtain ⟨hbalance, hstop, hfresh, hidle⟩ :=
    flushDecoder_conserving rc lastError hqueue hdeferred
  refine ⟨hbalance, hstop, hfresh, fun herror d hd => ?_⟩
  obtain ⟨hd', hlib⟩ := hidle herror d hd
  exact idle_working hd' hlib []

lemma cleanup_conserving (h : Conserving c) (hdeferred : c.deferred = none) :
    Conserving c.cleanup := by
  have hbalance := h.balance
  rw [hdeferred] at hbalance
  obtain ⟨hblocks, -, -⟩ := hbalance.settled
  refine ⟨⟨hbalance.first, .refl _, ?_, hbalance.returned⟩, ?_, fun _ => rfl, fun _ d hd => ?_⟩
  · have hfetched := hbalance.fetched
    rw [hblocks] at hfetched
    exact hfetched
  · show c.atStop ++ c.pool.blocks = []
    rw [h.atStop, hblocks]
    rfl
  · cases hd

/-- Every item that is handed to the decoder is suitable, and the component is neither flushed nor
stopped while a picture waits for the end of the stream. -/
def Sparing (c : Component) : Action → Prop
  | .work a => c.quit = false → c.error = false → ∀ w ∈ c.queue.head?, Suitable c w a
  | .flushSm _ _ | .join => c.deferred = none
  | .queueNb _ | .resume | .stop => True

lemma step_conserving {a : Action} (h : Conserving c) (hsparing : c.Sparing a)
    (hstep : c.step a = some c') : Conserving c' := by
  obtain ⟨items, -, -, rfl⟩ | ⟨rc, lastError, rfl, rfl⟩ | ⟨answer, rfl, -, rfl⟩ | ⟨-, -, -, rfl⟩ |
    ⟨-, -, -, rfl⟩ | ⟨-, -, rfl⟩ | ⟨-, rfl | rfl⟩ | ⟨rfl, rfl⟩ := step_cases hstep
  · unfold queueNb
    split_ifs
    · exact { h with }
    · exact h
  · exact flushSm_conserving h hsparing
  · exact work_conserving h hsparing
  · exact { h with }
  · exact { h with }
  · exact { h with }
  · exact { h with }
  · exact h
  · exact cleanup_conserving h hsparing

/-! ## Runs -/

/-- Every buffer that was fetched left the map once and before the component was stopped, and every
fence was closed once; only those of the picture that waits for the end of the stream are left. -/
structure Conserved (c : Component) : Prop where
  blocks : c.pool.blocks = c.deferred.toList.map (·.buffer.cookie)
  fetched : (c.pool.left ++ c.deferred.toList.map (·.buffer.cookie)).Perm
    (List.range' 1 (c.pool.nextCookie - 1))
  returned : (c.fences.closed ++ c.deferred.toList.filterMap (·.releaseFence)).Perm
    (List.range c.fences.opened)
  atStop : c.atStop = []

lemma Conserving.conserved (h : Conserving c) : Conserved c := by
  have hblocks : c.pool.blocks = c.deferred.toList.map (·.buffer.cookie) := by
    have hperm := h.balance.blocks
    cases hdeferred : c.deferred with
    | none =>
      rw [hdeferred] at hperm
      exact hperm.eq_nil
    | some s =>
      rw [hdeferred] at hperm
      exact perm_singleton.mp hperm
  refine ⟨hblocks, hblocks ▸ h.balance.fetched, ?_, h.atStop⟩
  have hreturned := h.balance.returned
  rw [filterMap_map] at hreturned
  exact hreturned

theorem buffers_conserved {codec : Codec} {maxWidth maxHeight : ℕ} {actions : List Action}
    {c : Component} (hsparing : Along step Sparing (started codec maxWidth maxHeight) actions)
    (hrun : run step (started codec maxWidth maxHeight) actions = some c) : Conserved c := by
  have hstart : Conserving (started codec maxWidth maxHeight) :=
    ⟨⟨le_refl 1, .refl _, .refl _, .refl _⟩, rfl, fun _ => rfl, fun _ d hd => by cases hd⟩
  exact (run_invariant_along (fun _ _ _ hs hm hstep => step_conserving hs hm hstep) hstart hsparing
    hrun).conserved

instance (u : InputUnit) (a : QueueAnswer) : Decidable (FrugalAnswer u a) :=
  decidable_of_iff (a.config.silent = true ∧ (∀ d ∈ a.resize.csd, d.silent = true) ∧
      ∀ t ∈ a.tries, t.decode.frugal u = true ∧ ∀ d ∈ t.resize.csd, d.silent = true)
    ⟨fun h => ⟨h.1, h.2.1, fun t ht => ⟨(h.2.2 t ht).1, (h.2.2 t ht).2⟩⟩,
      fun h => ⟨h.config, h.resize, fun t ht => ⟨(h.tries t ht).single, (h.tries t ht).silent⟩⟩⟩

instance (c : Component) (w : Work) (a : WorkAnswer) : Decidable (Suitable c w a) :=
  decidable_of_iff (w.index ∉ c.pending.map Work.index ∧ (∀ d ∈ c.decoder, d.eosSubmitted = false) ∧
      (∀ d ∈ c.decoder, d.eosPending = true → w.unit.eos = true) ∧ FrugalAnswer w.unit a.queue)
    ⟨fun h => ⟨h.1, h.2.1, h.2.2.1, h.2.2.2⟩, fun h => ⟨h.key, h.unsubmitted, h.ending, h.frugal⟩⟩

instance (c : Component) : DecidablePred (Sparing c)
  | .work a => inferInstanceAs (Decidable
      (c.quit = false → c.error = false → ∀ w ∈ c.queue.head?, Suitable c w a))
  | .flushSm _ _ => inferInstanceAs (Decidable (c.deferred = none))
  | .join => inferInstanceAs (Decidable (c.deferred = none))
  | .queueNb _ => .isTrue trivial
  | .resume => .isTrue trivial
  | .stop => .isTrue trivial

/-- The last item of a stream. -/
def lastItem (i : ℕ) : Work := ⟨i, ⟨[0], i, true, false⟩⟩

/-- A buffer for the picture that the library returns with the wish `k`, and a fence. -/
def fenced (k : ℕ) : Round := ⟨.pick k, { fetch := .block 0 none, copyOut := .done true }⟩

/-- The unit is taken with `n` pictures. -/
def taken (n : ℕ) (rounds : List Round) : WorkAnswer where
  queue := { tries := [{ decode := .accepted (List.replicate n ⟨8, 64, 64⟩) }], rounds := rounds }

/-- The state of the buffers and the fences. -/
def resources (c : Component) : List ℕ × List ℕ × List ℕ × ℕ × Option Shown :=
  (c.pool.blocks, c.pool.left, c.fences.closed, c.fences.opened, c.deferred)

/-- The last picture of a stream waits for that of the item before it; then the component is
stopped. -/
theorem buffers_conserved_at_stop :
    ∃ c, run step (started .h264 64 64) [.queueNb [item 0, lastItem 1], .work (taken 1 [fenced 1]),
        .work (taken 1 [fenced 1, fenced 0]), .resume, .stop, .work {}, .join] = some c ∧
      Conserved c ∧ c.resources = ([], [2, 1], [1, 0], 2, none) := by
  have hview : (run step (started .h264 64 64) [.queueNb [item 0, lastItem 1],
      .work (taken 1 [fenced 1]), .work (taken 1 [fenced 1, fenced 0]), .resume, .stop, .work {},
      .join]).map resources = some ([], [2, 1], [1, 0], 2, none) := by decide +kernel
  obtain ⟨c, hrun, hc⟩ := exists_run_of_view hview
  exact ⟨c, hrun, buffers_conserved (by decide +kernel) hrun, hc⟩

/-- The second picture of an item finds no item, and its buffer stays. The last picture of a stream
waits for that of the item before it, which finds no buffer; a flush drops it with its buffer and its
fence. -/
theorem buffers_lost :
    (∃ c, run step (started .av1 64 64) [.queueNb [item 0], .work (taken 2 [fenced 0, fenced 0])] =
        some c ∧ c.resources = ([2], [1], [0, 1], 2, none) ∧ ¬ Conserved c) ∧
    ∃ c, run step (started .h264 64 64) [.queueNb [item 0, lastItem 1], .work (taken 1 [fenced 1]),
        .work (taken 1 [fenced 1]), .flushSm 0 ""] = some c ∧
      c.resources = ([1], [], [], 1, none) ∧ ¬ Conserved c := by
  have hlost : ∀ c : Component, c.pool.blocks ≠ [] → c.deferred = none → ¬ Conserved c := by
    intro c hblocks hnone h
    rw [h.blocks, hnone] at hblocks
    exact hblocks rfl
  constructor
  · have hview : (run step (started .av1 64 64) [.queueNb [item 0],
        .work (taken 2 [fenced 0, fenced 0])]).map resources =
          some ([2], [1], [0, 1], 2, none) := by decide +kernel
    obtain ⟨c, hrun, hc⟩ := exists_run_of_view hview
    have hblocks : c.pool.blocks = [2] := congrArg (·.1) hc
    refine ⟨c, hrun, hc, hlost c ?_ (congrArg (·.2.2.2.2) hc)⟩
    rw [hblocks]
    decide
  · have hview : (run step (started .h264 64 64) [.queueNb [item 0, lastItem 1],
        .work (taken 1 [fenced 1]), .work (taken 1 [fenced 1]), .flushSm 0 ""]).map resources =
          some ([1], [], [], 1, none) := by decide +kernel
    obtain ⟨c, hrun, hc⟩ := exists_run_of_view hview
    have hblocks : c.pool.blocks = [1] := congrArg (·.1) hc
    refine ⟨c, hrun, hc, hlost c ?_ (congrArg (·.2.2.2.2) hc)⟩
    rw [hblocks]
    decide

end Component

end NvidiaProlapse.Media
