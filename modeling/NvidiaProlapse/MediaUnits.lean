import NvidiaProlapse.MediaBooks

/-!
# A unit is queued

The library takes a unit, rejects it or asks for another session first. A unit that
was taken is reported at once or waits for its picture; the unit at the end of the
stream waits for all others.
-/
namespace NvidiaProlapse.Media

open Programs List

variable {prior units added : List ℕ} {k : ℕ} {l l₀ : Ledger} {m : Machine}

/-! ## Pictures to come -/

lemma produce_timestamps (lib : Library) (i : ℕ) (formats : List Format) :
    (lib.produce i formats).produced.map (·.picture.timestamp) =
      lib.produced.map (·.picture.timestamp) ++ List.replicate formats.length i := by
  unfold Library.produce
  rw [map_append]
  congr 1
  refine eq_replicate_iff.mpr ⟨by simp, ?_⟩
  intro t ht
  simp only [mem_map, mem_mapIdx] at ht
  obtain ⟨p, ⟨j, hj, rfl⟩, rfl⟩ := ht
  rfl

lemma endOfStream_timestamps (lib : Library) :
    lib.endOfStream.produced.map (·.picture.timestamp) = lib.produced.map (·.picture.timestamp) := by
  unfold Library.endOfStream
  rw [map_map]
  rfl

lemma endOfStream_due (lib : Library) : ∀ p ∈ lib.endOfStream.produced, p.due = true := by
  intro p hp
  obtain ⟨q, -, rfl⟩ := mem_map.mp hp
  rfl

lemma endOfStream_waiting (m : Machine) :
    (m.setLib Library.endOfStream).ledger.waiting = m.ledger.waiting :=
  congrArg (m.dec.held.toList.map Picture.timestamp ++ ·) (endOfStream_timestamps m.lib)

/-- A unit that was not taken before is reported. -/
lemma Advanced.report {o : Output} (h : Advanced prior [] l₀ l) (hfree : ¬ l.Owned prior o.index)
    (ho : o.eos = false) : Advanced prior [o.index] l₀ { l with out := l.out ++ [o] } := by
  have howned := h.owned_nil
  obtain ⟨⟨units, k, hbooks⟩, -, hout, hp, hs, he⟩ := h
  have hunits : o.index ∉ units := fun hi => hfree (.inr (.inl (hbooks.mem_pending hi)))
  refine ⟨⟨units, k, { hbooks with once := ?_, unreported := ?_, eos_unreported := ?_ }⟩, ?_,
    plain_append hout (by simpa using ho), hp, hs, he⟩
  · exact Ledger.reported_once rfl hbooks.once fun ha => hfree (.inl ha)
  · intro i hi
    rw [Ledger.mem_reported_concat (l := l) rfl]
    rintro (hold | rfl)
    · exact hbooks.unreported i hi hold
    · exact hunits hi
  · intro hsub
    rw [Ledger.mem_reported_concat (l := l) rfl]
    rintro (hold | heq)
    · exact hbooks.eos_unreported hsub hold
    · exact hfree (.inr (.inr ⟨hsub, heq.symm⟩))
  · intro i
    rw [← howned i, mem_singleton, Ledger.Owned, Ledger.Owned,
      Ledger.mem_reported_concat (l := l) rfl]
    tauto

variable {ps : List Produced} {u : InputUnit}

/-- A unit with one picture to come. -/
lemma Advanced.wait {i : ℕ} (h : Advanced prior [] l₀ l) (hfree : ¬ l.Owned prior i)
    (hsub : l.eosSubmitted = false) (heos : l.eosPending = true → l.eosIndex ≠ i)
    (hps : ps.map (·.picture.timestamp) = l.produced.map (·.picture.timestamp) ++ [i]) :
    Advanced prior [i] l₀ { l with pending := l.pending ++ [i], produced := ps } := by
  have howned := h.owned_nil
  obtain ⟨⟨units, k, hbooks⟩, -, hout, hp, hs, he⟩ := h
  obtain rfl := hbooks.single hsub
  have hpending := hbooks.pending_open hsub
  have hunits : i ∉ units := fun hi => hfree (.inr (.inl (hbooks.mem_pending hi)))
  have hwait : l.held.toList.map (·.timestamp) ++ ps.map (·.picture.timestamp) = l.waiting ++ [i] := by
    rw [hps, ← append_assoc]
    rfl
  have hnil : ∀ us : List ℕ, us ++ replicate 0 l.eosIndex = us := append_nil
  refine ⟨⟨units ++ [i], 0, ⟨hbooks.once, ?_, ?_, ?_, ?_, ?_, ?_, ?_, ?_, fun _ => rfl⟩⟩, ?_, hout, hp,
    hs, he⟩
  · exact concat_eq_append ▸ List.Nodup.concat hunits hbooks.nodup
  · exact forall_mem_append.mpr ⟨hbooks.unreported,
      forall_mem_singleton.mpr (fun hi => hfree (.inl hi))⟩
  · left
    rw [hpending]
  · have hw := hbooks.waiting
    rw [hnil] at hw
    show (l.held.toList.map Picture.timestamp ++ _).Perm _
    rw [hnil]
    exact hwait ▸ hw.append_right [i]
  · intro hr
    have hw := hbooks.in_order hr
    rw [hnil] at hw
    rw [hnil]
    exact hwait.trans (congrArg (· ++ [i]) hw)
  · intro hpend hmem
    rcases mem_append.mp hmem with hmem | hmem
    · exact hbooks.eos_apart hpend hmem
    · exact heos hpend (mem_singleton.mp hmem)
  · intro hcontra
    exact absurd (hsub.symm.trans hcontra) (by decide)
  · intro hcontra
    exact absurd (hsub.symm.trans hcontra) (by decide)
  · intro j
    rw [← howned j, mem_singleton]
    show _ ∨ j ∈ l.pending ++ [i] ∨ _ ↔ (_ ∨ _) ∨ _
    rw [mem_append, mem_singleton]
    tauto

/-- The pictures become due. -/
lemma Advanced.due (h : Advanced prior added l₀ m.ledger) :
    Advanced prior added l₀ (m.setLib Library.endOfStream).ledger := by
  obtain ⟨⟨units, k, hbooks⟩, howned, hout, hp, hs, he⟩ := h
  refine ⟨⟨units, k, { hbooks with waiting := ?_, in_order := ?_, submitted := ?_ }⟩, howned, hout,
    hp, hs, he⟩
  · rw [endOfStream_waiting]
    exact hbooks.waiting
  · rw [endOfStream_waiting]
    exact hbooks.in_order
  · intro hsub
    exact ⟨(hbooks.submitted hsub).1, endOfStream_due m.lib⟩

/-- The unit was taken, and no end of stream was reported yet. -/
structure Consumed (prior : List ℕ) (u : InputUnit) (l₀ l : Ledger) : Prop where
  books : ∃ units k, Books prior units k l
  still : ∀ i, l₀.Owned prior i → l.Owned prior i
  only : ∀ i, l.Owned prior i → l₀.Owned prior i ∨ i = u.index
  /-- An empty unit is forgotten. -/
  self : u.data ≠ [] ∨ u.eos = true ∨ u.codecConfig = true → l.Owned prior u.index
  out : ∃ new, l.out = l₀.out ++ new ∧ ∀ o ∈ new, o.eos = false
  eosPending : l.eosPending = l₀.eosPending
  eosSubmitted : l.eosSubmitted = u.eos
  eosIndex : l.eosIndex = l₀.eosIndex

lemma Consumed.owned (h : Consumed prior u l₀ l)
    (hdata : u.data ≠ [] ∨ u.eos = true ∨ u.codecConfig = true) (i : ℕ) :
    l.Owned prior i ↔ l₀.Owned prior i ∨ i = u.index := by
  refine ⟨h.only i, ?_⟩
  rintro (hold | rfl)
  · exact h.still i hold
  · exact h.self hdata

lemma Advanced.consumed (h : Advanced prior [u.index] l₀ l) (hsub : l₀.eosSubmitted = u.eos) :
    Consumed prior u l₀ l := by
  have howned : ∀ i, l.Owned prior i ↔ l₀.Owned prior i ∨ i = u.index := by
    intro i
    rw [h.owned i, mem_singleton]
  exact ⟨h.books, fun i hi => (howned i).mpr (.inl hi), fun i hi => (howned i).mp hi,
    fun _ => (howned u.index).mpr (.inr rfl), h.out, h.eosPending, h.eosSubmitted.trans hsub, h.eosIndex⟩

/-- The end-of-stream unit, with any number of pictures to come. -/
lemma Advanced.submit {n : ℕ} {pending : List ℕ} (h : Advanced prior [] l₀ l)
    (hfree : ¬ l.Owned prior u.index) (hsub : l.eosSubmitted = false) (hueos : u.eos = true)
    (heos : l.eosPending = true ∧ l.eosIndex = u.index)
    (hpending : pending = l.pending ∨ pending = l.pending ++ [u.index])
    (hps : ps.map (·.picture.timestamp) = l.produced.map (·.picture.timestamp) ++ List.replicate n u.index)
    (hdue : ∀ p ∈ ps, p.due = true) :
    Consumed prior u l₀ { l with pending := pending, produced := ps, eosSubmitted := true } := by
  have howned := h.owned_nil
  obtain ⟨⟨units, k, hbooks⟩, -, hout, hp, hs, he⟩ := h
  obtain rfl := hbooks.single hsub
  have hunits := hbooks.pending_open hsub
  have hwait : l.held.toList.map (·.timestamp) ++ ps.map (·.picture.timestamp) =
      l.waiting ++ List.replicate n l.eosIndex := by
    rw [hps, heos.2, ← append_assoc]
    rfl
  have hnil : units ++ replicate 0 l.eosIndex = units := append_nil _
  have hall : ∀ i, Ledger.Owned prior
      { l with pending := pending, produced := ps, eosSubmitted := true } i ↔
        l₀.Owned prior i ∨ i = u.index := by
    intro i
    rw [← howned i]
    show i ∈ l.reported prior ∨ i ∈ pending ∨ true = true ∧ i = l.eosIndex ↔
      (i ∈ l.reported prior ∨ i ∈ l.pending ∨ l.eosSubmitted = true ∧ i = l.eosIndex) ∨ i = u.index
    rw [hsub, heos.2]
    rcases hpending with rfl | rfl
    · simp [or_assoc]
    · simp [or_assoc]
  refine ⟨⟨units, n, ⟨hbooks.once, hbooks.nodup, hbooks.unreported, ?_, ?_, ?_, hbooks.eos_apart, ?_, ?_,
    ?_⟩⟩, fun i hi => (hall i).mpr (.inl hi), fun i hi => (hall i).mp hi,
    fun _ => (hall u.index).mpr (.inr rfl), hout, hp, hueos.symm, he⟩
  · rcases hpending with rfl | rfl
    · exact .inl hunits
    · refine .inr ⟨rfl, ?_⟩
      rw [hunits, heos.2]
  · have hw := hbooks.waiting
    rw [hnil] at hw
    show (l.held.toList.map Picture.timestamp ++ _).Perm _
    exact hwait ▸ hw.append_right _
  · intro hr
    have hw := hbooks.in_order hr
    rw [hnil] at hw
    exact hwait.trans (congrArg (· ++ replicate n l.eosIndex) hw)
  · intro _ hi
    rw [show _ = u.index from heos.2] at hi
    exact hfree (.inl hi)
  · intro _
    exact ⟨heos.1, hdue⟩
  · intro hcontra
    cases hcontra

/-- A unit that is not the end of the stream has at most one picture, and none if it was rejected. -/
def Decoded.single (u : InputUnit) : Decoded → Bool
  | .accepted pictures => u.eos || decide (pictures.length ≤ 1)
  | .bitstream pictures => u.eos || pictures.isEmpty
  | _ => true

section Unit

variable {u : InputUnit}

/-- The end of the stream is known before the unit is offered. -/
def Announced (u : InputUnit) (l : Ledger) : Prop :=
  l.eosSubmitted = false ∧ (u.eos = true → l.eosPending = true ∧ l.eosIndex = u.index) ∧
    (u.eos = false → l.eosPending = true → l.eosIndex ≠ u.index)

lemma acceptUnit_consumed {pictures : List Format} (h : Advanced prior [] l₀ m.ledger)
    (hannounced : Announced u l₀) (hfree : ¬ l₀.Owned prior u.index)
    (hconfig : ¬ (u.codecConfig = true ∧ u.eos = false))
    (hsingle : (Decoded.accepted pictures).single u = true) :
    Consumed prior u l₀ (acceptUnit m u pictures).ledger := by
  obtain ⟨hsub, heos, hother⟩ := hannounced
  have hsub' : m.dec.eosSubmitted = false := h.eosSubmitted.trans hsub
  have hfree' := h.free hfree
  cases hueos : u.eos with
  | true =>
    have heos' : m.dec.eosPending = true ∧ m.dec.eosIndex = u.index := by
      obtain ⟨hpend, hindex⟩ := heos hueos
      exact ⟨h.eosPending.trans hpend, h.eosIndex.trans hindex⟩
    have hsubmit := fun pending (hp : pending = m.dec.pending ∨ pending = m.dec.pending ++ [u.index]) made =>
      h.submit hfree' hsub' hueos heos' hp
        ((endOfStream_timestamps _).trans (produce_timestamps m.lib _ made)) (endOfStream_due _)
    by_cases hd : u.data = []
    · convert hsubmit _ (.inl rfl) [] using 1
      simp only [acceptUnit, hd, hueos, if_true]
      rfl
    · convert hsubmit _ (.inr rfl) pictures using 1
      simp only [acceptUnit, hd, hueos, if_true, if_false, or_true]
      rfl
  | false =>
    by_cases hd : u.data = []
    · have hledger : (acceptUnit m u pictures).ledger = m.ledger := by
        simp [acceptUnit, hd, hueos, setLib_produce_nil]
      rw [hledger]
      refine ⟨h.books, fun i hi => (h.owned i).mpr (.inl hi), ?_, ?_, h.out, h.eosPending,
        hsub'.trans hueos.symm, h.eosIndex⟩
      · intro i hi
        simpa using Or.inl ((h.owned i).mp hi)
      rintro (hdata | hcontra | hcsd)
      · exact absurd hd hdata
      · exact absurd (hueos.symm.trans hcontra) (by decide)
      · exact absurd ⟨hcsd, hueos⟩ hconfig
    have hconsumed := fun l (hl : Advanced prior [u.index] l₀ l) => hl.consumed (hsub.trans hueos.symm)
    cases pictures with
    | nil =>
      have hledger : (acceptUnit m u []).ledger =
          { m.ledger with out := m.out ++ [{ index := u.index }] } := by
        simp only [acceptUnit, hd, hueos, if_false, setLib_produce_nil, ne_eq, not_true_eq_false,
          Bool.false_eq_true, or_self]
        rfl
      rw [hledger]
      exact hconsumed _ (h.report (o := { index := u.index }) hfree' rfl)
    | cons f fs =>
      obtain rfl : fs = [] := by
        have hlen : (f :: fs).length ≤ 1 := by simpa [Decoded.single, hueos] using hsingle
        cases fs with
        | nil => rfl
        | cons g gs => simp at hlen
      have hledger : (acceptUnit m u [f]).ledger = { m.ledger with
            pending := m.dec.pending ++ [u.index]
            produced := (m.lib.produce u.index [f]).produced } := by
        simp only [acceptUnit, hd, hueos, if_false, ne_eq, reduceCtorEq, not_false_eq_true, true_or,
          if_true, Bool.false_eq_true]
        rfl
      rw [hledger]
      refine hconsumed _ (h.wait hfree' hsub' ?_ (produce_timestamps _ _ _))
      intro hpend hindex
      exact hother hueos (h.eosPending.symm.trans hpend) (h.eosIndex.symm.trans hindex)

lemma rejectUnit_consumed (pictures : List Format) (endOfStream : ℤ) (hannounced : Announced u l₀)
    (hfree : ¬ l₀.Owned prior u.index) (hsingle : (Decoded.bitstream pictures).single u = true) :
    Spec (fun m => Advanced prior [] l₀ m.ledger) (rejectUnit u pictures endOfStream)
      (fun _ m => Consumed prior u l₀ m.ledger)
      (Halted prior [] l₀) := by
  obtain ⟨hsub, heos, hother⟩ := hannounced
  refine .of_states fun s hs => ?_
  refine .write (fun m => m = s.setLib fun lib =>
    lib.produce u.index (if u.data = [] then [] else pictures)) ?_ ?_
  · rintro _ rfl
    rfl
  refine .branch (fun hueos => .either ?_ ?_) fun hueos => ?_
  · refine fail_spec _ _ ?_
    rintro _ error rfl
    exact .error ⟨hs.faulted.once, hs.faulted.owned⟩
  · refine .of_modify ?_
    rintro _ rfl
    have heos' : s.dec.eosPending = true ∧ s.dec.eosIndex = u.index := by
      obtain ⟨hpend, hindex⟩ := heos hueos
      exact ⟨hs.eosPending.trans hpend, hs.eosIndex.trans hindex⟩
    exact hs.submit (hs.free hfree) (hs.eosSubmitted.trans hsub) hueos heos' (.inl rfl)
      ((endOfStream_timestamps _).trans (produce_timestamps _ _ _)) (endOfStream_due _)
  · refine .of_modify ?_
    rintro _ rfl
    have hueos' : u.eos = false := Bool.eq_false_iff.mpr hueos
    obtain rfl : pictures = [] := by
      simpa [Decoded.single, hueos'] using hsingle
    rw [ite_self, setLib_produce_nil]
    exact (hs.report (o := { index := u.index, corrupt := true }) (hs.free hfree) rfl).consumed
      (hsub.trans hueos'.symm)

/-- The answers of one attempt leave the books alone. -/
structure Try.Plain (u : InputUnit) (t : Try) : Prop where
  single : t.decode.single u = true
  silent : ∀ d ∈ t.resize.csd, d.silent = true

lemma queueTries_consumed (tries : List Try) (hannounced : Announced u l₀)
    (hfree : ¬ l₀.Owned prior u.index) (hconfig : ¬ (u.codecConfig = true ∧ u.eos = false))
    (hplain : ∀ t ∈ tries, t.Plain u) :
    Spec (fun m => Advanced prior [] l₀ m.ledger) (queueTries u tries)
      (fun _ m => Consumed prior u l₀ m.ledger)
      (Halted prior [] l₀) := by
  have hsub := hannounced.1
  have hfaulted : ∀ (m : Machine) (error : String), Advanced prior [] l₀ m.ledger →
      Halted prior [] l₀ .error (m.die error) := fun _ _ h => .error h.faulted
  induction tries with
  | nil => exact fail_spec _ _ hfaulted
  | cons t ts ih =>
    obtain ⟨hsingle, hsilent⟩ := hplain t mem_cons_self
    have hrest := ih fun t' ht' => hplain t' (mem_cons_of_mem _ ht')
    unfold queueTries
    cases hdecode : t.decode with
    | again =>
      refine .read fun s hs => ?_
      refine .seq (((drain_advanced t.rounds hsub).enter hs).after (fun _ _ h => h.1)) fun _ => ?_
      refine .read fun s' hs' => .either ?_ (hrest.enter hs')
      exact .of_throw fun _ h => ⟨fun _ => h ▸ hs', h ▸ hs'.faulted⟩
    | bitstream pictures =>
      rw [hdecode] at hsingle
      exact rejectUnit_consumed pictures t.endOfStream hannounced hfree hsingle
    | resize =>
      refine .next ?_ hrest
      cases t.requiredSize with
      | none => exact fail_spec _ _ hfaulted
      | some size =>
        refine .write (fun m => Advanced prior [] l₀ m.ledger) (fun _ h => h) ?_
        refine .either (fail_spec _ _ hfaulted) ?_
        refine .write (fun m => Advanced prior [] l₀ m.ledger) ?_
          (finishResize_advanced t.resize hsub hsilent)
        exact fun _ h => h.due
    | failed rc => exact fail_spec _ _ hfaulted
    | accepted pictures =>
      rw [hdecode] at hsingle
      exact .of_modify fun m hm => acceptUnit_consumed hm hannounced hfree hconfig hsingle

/-! ## queue -/

/-- The unit is announced if it is the end of the stream. -/
def announce (u : InputUnit) (l : Ledger) : Ledger :=
  { l with
    eosPending := l.eosPending || u.eos
    eosIndex := if u.eos then u.index else l.eosIndex }

lemma owned_announce (hsub : l.eosSubmitted = false) (i : ℕ) :
    (announce u l).Owned prior i ↔ l.Owned prior i := by
  refine or_congr Iff.rfl (or_congr Iff.rfl ?_)
  show l.eosSubmitted = true ∧ _ ↔ l.eosSubmitted = true ∧ _
  rw [hsub]
  simp

lemma Books.announce (h : Books prior units k l) (hsub : l.eosSubmitted = false)
    (hunits : u.index ∉ units) : Books prior units k (announce u l) := by
  obtain rfl := h.single hsub
  refine ⟨h.once, h.nodup, h.unreported, .inl (h.pending_open hsub), h.waiting, h.in_order, ?_, ?_, ?_,
    fun _ => rfl⟩
  · intro hpend
    show (if u.eos then u.index else l.eosIndex) ∉ units
    split_ifs with hueos
    · exact hunits
    · refine h.eos_apart ?_
      have hpend' : (l.eosPending || u.eos) = true := hpend
      simpa [hueos] using hpend'
  all_goals
    intro hcontra
    exact absurd (hsub.symm.trans hcontra) (by decide)

lemma Advanced.announce (h : Advanced prior [] l₀ l) (hsub : l₀.eosSubmitted = false)
    (hfree : ¬ l₀.Owned prior u.index) : Advanced prior [] (announce u l₀) (announce u l) := by
  have hsub' : l.eosSubmitted = false := h.eosSubmitted.trans hsub
  have hfree' := h.free hfree
  obtain ⟨units, k, hbooks⟩ := h.books
  refine ⟨⟨units, k, hbooks.announce hsub' ?_⟩, ?_, h.out, ?_, h.eosSubmitted, ?_⟩
  · exact fun hi => hfree' (.inr (.inl (hbooks.mem_pending hi)))
  · intro i
    rw [owned_announce hsub', owned_announce hsub, h.owned i]
  · exact congrArg (· || u.eos) h.eosPending
  · exact congrArg (fun e => if u.eos then u.index else e) h.eosIndex

lemma Faulted.announced (h : Faulted prior added (announce u l₀) l)
    (hsub : l₀.eosSubmitted = false) : Faulted prior added l₀ l := by
  refine ⟨h.once, fun i hi => ?_⟩
  rw [← owned_announce hsub]
  exact h.owned i hi

lemma Faulted.offered (h : Faulted prior [] l₀ l) : Faulted prior [u.index] l₀ l :=
  ⟨h.once, fun i hi => .inl (by simpa using h.owned i hi)⟩

variable {l₁ : Ledger} {a : QueueAnswer}

lemma Consumed.faulted (h : Consumed prior u l₀ l₁) (h' : Faulted prior [] l₁ l) :
    Faulted prior [u.index] l₀ l := by
  refine ⟨h'.once, fun i hi => ?_⟩
  rw [mem_singleton]
  exact h.only i (by simpa using h'.owned i hi)

/-- The call took the unit. -/
def Queued (prior : List ℕ) (u : InputUnit) (l₀ l : Ledger) : Prop :=
  Consumed prior u (announce u l₀) l ∨
    ∃ l₁, Consumed prior u (announce u l₀) l₁ ∧ l₁.eosSubmitted = true ∧ Ended prior l₁ l

/-- The call did not take the unit. -/
def Retry (prior : List ℕ) (u : InputUnit) (l₀ l : Ledger) : Prop :=
  Advanced prior [] l₀ l ∨ Advanced prior [] (announce u l₀) l

lemma Retry.same (h : Retry prior u l₀ l) (hsub : l₀.eosSubmitted = false) :
    (∃ units k, Books prior units k l) ∧ (∀ i, l.Owned prior i ↔ l₀.Owned prior i) ∧
      ∃ new, l.out = l₀.out ++ new ∧ ∀ o ∈ new, o.eos = false := by
  rcases h with h | h
  · exact ⟨h.books, h.owned_nil, h.out⟩
  · exact ⟨h.books, fun i => (h.owned_nil i).trans (owned_announce hsub i), h.out⟩

/-- What is asked of a unit and of the answers it gets. -/
structure PlainUnit (u : InputUnit) (a : QueueAnswer) : Prop where
  data : u.data ≠ [] ∨ u.eos = true ∨ u.codecConfig = true
  config : a.config.silent = true
  resize : ∀ d ∈ a.resize.csd, d.silent = true
  tries : ∀ t ∈ a.tries, t.Plain u

/-- What is asked of the answers alone. -/
structure PlainAnswer (u : InputUnit) (a : QueueAnswer) : Prop where
  config : a.config.silent = true
  resize : ∀ d ∈ a.resize.csd, d.silent = true
  tries : ∀ t ∈ a.tries, t.Plain u

lemma PlainUnit.answer (h : PlainUnit u a) : PlainAnswer u a :=
  { h with }

lemma queueConfig_advanced (a : Decoded) (hsilent : a.silent = true)
    (hfree : ¬ l₀.Owned prior u.index) :
    Spec (fun m => Advanced prior [] l₀ m.ledger) (queueConfig u a)
      (fun _ m => Advanced prior [u.index] l₀ m.ledger)
      (Halted prior [] l₀) := by
  have hreport : ∀ (o : Output) (m : Machine), Advanced prior [] l₀ m.ledger → o.eos = false →
      o.index = u.index → Advanced prior [u.index] l₀ (m.report o).ledger := by
    intro o m h ho hindex
    rw [← hindex] at hfree ⊢
    exact h.report (h.free hfree) ho
  refine .read fun s hs => .either ?_ ?_
  · cases a with
    | bitstream pictures | accepted pictures =>
      obtain rfl : pictures = [] := isEmpty_iff.mp hsilent
      refine .write (fun m => Advanced prior [] l₀ m.ledger) ?_
        (.of_modify fun m hm => hreport _ m hm rfl rfl)
      rintro _ rfl
      rw [setLib_produce_nil]
      exact hs
    | again | resize | failed rc => exact fail_spec _ _ fun _ _ h => .error (h ▸ hs.faulted)
  · refine .change ?_
    exact hreport _ s hs rfl rfl

lemma Consumed.advance (h : Consumed prior u l₀ l₁) (h' : Advanced prior [] l₁ l) :
    Consumed prior u l₀ l := by
  obtain ⟨new', hnew', hplain'⟩ := h'.out
  have howned := h'.owned_nil
  refine ⟨h'.books, fun i hi => (howned i).mpr (h.still i hi), fun i hi => h.only i ((howned i).mp hi),
    fun hdata => (howned _).mpr (h.self hdata), hnew' ▸ plain_append h.out hplain',
    h'.eosPending.trans h.eosPending, h'.eosSubmitted.trans h.eosSubmitted, h'.eosIndex.trans h.eosIndex⟩

lemma Advanced.refl (h : ∃ units k, Books prior units k l) : Advanced prior [] l l where
  books := h
  owned := by simp
  out := ⟨[], by simp, by simp⟩
  eosPending := rfl
  eosSubmitted := rfl
  eosIndex := rfl

lemma lastDrain_queued (rounds : List Round) (hopen : l₀.eosSubmitted = false) :
    Spec (fun m => Consumed prior u (announce u l₀) m.ledger) (lastDrain rounds)
      (fun _ m => Queued prior u l₀ m.ledger) (OnStop (fun _ => False) (Faulted prior [u.index] l₀)) := by
  refine Spec.of_states fun s hs => ?_
  have hstart := Advanced.refl hs.books
  have hdrain : Spec (s = ·) (drain rounds) (fun _ m => Queued prior u l₀ m.ledger)
      (OnStop (fun m => Queued prior u l₀ m.ledger) (Faulted prior [u.index] l₀)) := by
    cases hsub : s.dec.eosSubmitted with
    | true =>
      refine ((drain_ended rounds hsub).enter hstart).post ?_ ?_
      · exact fun _ m hm => .inr ⟨s.ledger, hs, hsub, hm⟩
      · exact fun _ m hm => ⟨fun he => .inl (hs.advance (hm.1 he)), (hs.faulted hm.2).announced hopen⟩
    | false =>
      refine ((drain_advanced rounds hsub).enter hstart).post ?_ ?_
      · exact fun _ m hm => .inl (hs.advance hm.1)
      · exact fun _ m hm => ⟨fun he => .inl (hs.advance (hm.1 he)), (hs.faulted hm.2).announced hopen⟩
  refine .observe hdrain (fun _ => .ret) fun e => ?_
  cases e with
  | again => exact .of_pure fun _ h => h.1 rfl
  | error =>
    refine .of_throw fun _ h => ⟨?_, h.2⟩
    intro hagain
    cases hagain

lemma queue_queued (hbooks : ∃ units k, Books prior units k m.ledger)
    (hsub : m.dec.eosSubmitted = false) (hfree : ¬ m.ledger.Owned prior u.index)
    (hother : u.eos = false → m.dec.eosPending = true → m.dec.eosIndex ≠ u.index)
    (hplain : PlainAnswer u a) :
    Spec (m = ·) (queue u a) (fun _ t => Queued prior u m.ledger t.ledger)
      (OnStop (fun t => Retry prior u m.ledger t.ledger) (Faulted prior [u.index] m.ledger)) := by
  have hstart := Advanced.refl hbooks
  refine Spec.read fun s hs => ?_
  subst hs
  refine .either ?_ ?_
  · exact .of_throw fun _ h => h ▸ ⟨fun _ => .inl hstart, hstart.faulted.offered⟩
  have hresize : Spec (m = ·) (onlyIf (m.dec.resizing = true) (finishResize a.resize))
      (fun _ t => Advanced prior [] m.ledger t.ledger)
      (OnStop (fun t => Retry prior u m.ledger t.ledger) (Faulted prior [u.index] m.ledger)) := by
    refine .either ?_ (.unchanged hstart)
    exact ((finishResize_advanced a.resize hsub hplain.resize).enter hstart).fallback
      fun _ _ h => ⟨fun he => .inl (h.1 he), h.2.offered⟩
  refine .next hresize (.branch (fun hconfig => ?_) fun hconfig => ?_)
  · -- Parameter sets do not announce anything.
    have hueos : u.eos = false := Bool.eq_false_iff.mpr hconfig.2
    have hsame : announce u m.ledger = m.ledger := by
      simp [announce, hueos]
    refine (queueConfig_advanced a.config hplain.config hfree).post ?_
      fun _ _ h => ⟨fun he => .inl (h.1 he), h.2.offered⟩
    intro _ t ht
    left
    rw [hsame]
    exact ht.consumed (hsub.trans hueos.symm)
  · have hconfig' : ¬ (u.codecConfig = true ∧ u.eos = false) :=
      fun h => hconfig ⟨h.1, Bool.eq_false_iff.mp h.2⟩
    have hannounced : Announced u (announce u m.ledger) := by
      refine ⟨hsub, fun hueos => ?_, fun hueos hpend => ?_⟩
      · simp [announce, hueos]
      · simp only [announce, hueos, Bool.or_false] at hpend ⊢
        exact hother hueos hpend
    have hfree' : ¬ (announce u m.ledger).Owned prior u.index := by
      rw [owned_announce hsub]
      exact hfree
    refine .write (fun t => Advanced prior [] (announce u m.ledger) t.ledger)
      (fun t ht => ht.announce hsub hfree) ?_
    refine .seq ((queueTries_consumed a.tries hannounced hfree' hconfig' hplain.tries).fallback
      fun _ _ h => ⟨fun he => .inr (h.1 he), (h.2.announced hsub).offered⟩) fun _ => ?_
    exact (lastDrain_queued a.rounds hsub).fallback fun _ _ h => ⟨fun he => (h.1 he).elim, h.2⟩

end Unit

end NvidiaProlapse.Media
