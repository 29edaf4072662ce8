import NvidiaProlapse.MediaComponent
import NvidiaProlapse.Runs

/-!
# A flush returns everything that was queued

Each item is in one place at a time: in the queue, with the worker, with the decoder or
returned. A flush empties the queue and what is with the decoder. It does not reach an
item that the worker keeps for another attempt while it is in the listener's callback.
-/
namespace NvidiaProlapse.Media

open Programs Runs List

/-! ## What the log says -/

def queuedIn : List Event → List Work
  | [] => []
  | .queued w :: log => w :: queuedIn log
  | _ :: log => queuedIn log

/-- Items given back to the client, by `onWorkDone` or by a flush. -/
def returnedIn : List Event → List Work
  | [] => []
  | .reported w :: log => w :: returnedIn log
  | .flushed ws :: log => ws ++ returnedIn log
  | _ :: log => returnedIn log

/-- A flush returns all that was queued and not returned, and nothing that was returned is given to
the decoder. -/
def Complete : List Event → Prop
  | [] => True
  | .flushed ws :: log => (∀ w, w ∈ ws ↔ w ∈ queuedIn log ∧ w ∉ returnedIn log) ∧ Complete log
  | .handed w :: log => w ∉ returnedIn log ∧ Complete log
  | _ :: log => Complete log

lemma returnedIn_append (after before : List Event) :
    returnedIn (after ++ before) = returnedIn after ++ returnedIn before := by
  induction after with
  | nil => rfl
  | cons e after ih =>
    cases e with
    | queued w | handed w => exact ih
    | reported w => exact congrArg (w :: ·) ih
    | flushed ws =>
      show ws ++ returnedIn (after ++ before) = ws ++ returnedIn after ++ returnedIn before
      rw [ih, append_assoc]

lemma Complete.of_append {after before : List Event} (h : Complete (after ++ before)) :
    Complete before := by
  induction after with
  | nil => exact h
  | cons e after ih =>
    cases e with
    | queued w | reported w => exact ih h
    | handed w | flushed ws => exact ih h.2

lemma Complete.not_handed {after before : List Event} {w : Work} (h : Complete (after ++ before))
    (hw : w ∈ returnedIn before) : .handed w ∉ after := by
  induction after with
  | nil => exact not_mem_nil
  | cons e after ih =>
    rw [mem_cons, not_or]
    cases e with
    | queued v | reported v => exact ⟨Event.noConfusion, ih h⟩
    | flushed ws => exact ⟨Event.noConfusion, ih h.2⟩
    | handed v =>
      refine ⟨?_, ih h.2⟩
      intro heq
      cases heq
      have hnot : w ∉ returnedIn (after ++ before) := h.1
      rw [returnedIn_append] at hnot
      exact hnot (mem_append_right _ hw)

lemma reported_mem_returnedIn {w : Work} {log : List Event} (h : .reported w ∈ log) :
    w ∈ returnedIn log := by
  obtain ⟨after, before, rfl⟩ := append_of_mem h
  rw [returnedIn_append]
  exact mem_append_right _ mem_cons_self

namespace Component

variable {c c' : Component}

/-- The item the worker keeps for another attempt. -/
def inHand (c : Component) : List Work :=
  match c.phase with
  | .notify (some w) => [w]
  | _ => []

/-- Each item is in one place. -/
structure Custody (c : Component) : Prop where
  items : (queuedIn c.log).Perm (c.queue ++ c.inHand ++ c.pending ++ returnedIn c.log)
  nodup : (queuedIn c.log).Nodup
  keys : (c.pending.map Work.index).Nodup
  complete : Complete c.log
  listener : c.listener = true

/-! ## Outputs -/

variable {w : Work} {log : List Event} {a : WorkAnswer}

lemma find_take_perm {ws : List Work} {i : ℕ} (hkeys : (ws.map Work.index).Nodup)
    (h : ws.find? (·.index = i) = some w) : ws.Perm (w :: ws.filter (·.index ≠ i)) := by
  induction ws with
  | nil => cases h
  | cons v ws ih =>
    rw [map_cons, nodup_cons] at hkeys
    by_cases hv : v.index = i
    · rw [find?_cons_of_pos (by simpa using hv)] at h
      cases h
      have hrest : ws.filter (·.index ≠ i) = ws := by
        rw [filter_eq_self]
        intro u hu
        have hne : u.index ≠ i := by
          rintro rfl
          exact hkeys.1 (hv ▸ mem_map_of_mem hu)
        simpa using hne
      rw [filter_cons_of_neg (by simpa using hv), hrest]
    · rw [find?_cons_of_neg (by simpa using hv)] at h
      rw [filter_cons_of_pos (by simpa using hv)]
      exact ((ih hkeys.2 h).cons v).trans (.swap w v _)

/-- What deliveries do not touch. -/
structure Beside (c c' : Component) : Prop where
  queue : c'.queue = c.queue
  phase : c'.phase = c.phase
  log : c'.log = c.log
  listener : c'.listener = c.listener
  error : c.error = true → c'.error = true

lemma Beside.refl (c : Component) : Beside c c := ⟨rfl, rfl, rfl, rfl, id⟩

lemma Beside.trans {c'' : Component} (h : Beside c c') (h' : Beside c' c'') : Beside c c'' :=
  ⟨h'.queue.trans h.queue, h'.phase.trans h.phase, h'.log.trans h.log, h'.listener.trans h.listener,
    fun he => h'.error (h.error he)⟩

lemma fatal_beside (c : Component) : Beside c c.fatal := ⟨rfl, rfl, rfl, rfl, fun _ => rfl⟩

lemma deliverPicture_spec (c : Component) (w : Work) (o : Output) (s : Shown) (signalled : Bool) :
    Beside c (c.deliverPicture w o s signalled).1 ∧
      (c.deliverPicture w o s signalled).1.pending = c.pending ∧
      (c.deliverPicture w o s signalled).2.work = w := by
  cases hlate : (s.releaseFence.isSome && !signalled) with
  | true =>
    simp only [deliverPicture, hlate, if_true]
    exact ⟨⟨rfl, rfl, rfl, rfl, fun _ => rfl⟩, rfl, trivial⟩
  | false =>
    simp only [deliverPicture, hlate, Bool.false_eq_true, if_false]
    exact ⟨⟨rfl, rfl, rfl, rfl, id⟩, rfl, trivial⟩

/-- The items `done` were pending and are taken. -/
def Gives (c t : Component) (done : List Work) : Prop :=
  Beside c t ∧ (t.pending.map Work.index).Nodup ∧ c.pending.Perm (done ++ t.pending)

lemma deliverOne_spec (c : Component) (o : Output) (signalled : Bool)
    (hkeys : (c.pending.map Work.index).Nodup) :
    Gives c (c.deliverOne o signalled).1 ((c.deliverOne o signalled).2.toList.map (·.work)) := by
  have hfilter : ((c.pending.filter (·.index ≠ o.index)).map Work.index).Nodup :=
    hkeys.sublist (filter_sublist.map _)
  unfold Gives deliverOne
  cases hfind : c.pending.find? (·.index = o.index) with
  | none => exact ⟨⟨rfl, rfl, rfl, rfl, id⟩, hkeys, .refl _⟩
  | some w =>
    have hperm := find_take_perm hkeys hfind
    cases o.shown with
    | none => exact ⟨⟨rfl, rfl, rfl, rfl, id⟩, hfilter, hperm⟩
    | some s =>
      obtain ⟨hbeside, hpending, hwork⟩ := deliverPicture_spec (c.take o.index) w o s signalled
      rw [hpending, Option.toList_some, map_singleton, hwork]
      exact ⟨{ hbeside with }, hfilter, hperm⟩

lemma deliver_spec (outs : List Output) (signalled : List Bool) (c : Component)
    (hkeys : (c.pending.map Work.index).Nodup) :
    Gives c (c.deliver outs signalled).1 ((c.deliver outs signalled).2.map (·.work)) := by
  induction outs generalizing c signalled with
  | nil => exact ⟨.refl c, hkeys, .refl _⟩
  | cons o outs ih =>
    obtain ⟨hbeside, hkeys', hperm⟩ := deliverOne_spec c o (signalled.headD true) hkeys
    obtain ⟨hbeside', hkeys'', hperm'⟩ := ih signalled.tail _ hkeys'
    refine ⟨hbeside.trans hbeside', hkeys'', hperm.trans ?_⟩
    simp only [deliver, map_append, append_assoc]
    exact hperm'.append_left _

lemma claim_beside (outs : List Output) (c : Component) : Beside c (c.claim outs).1 := by
  induction outs generalizing c with
  | nil => exact .refl c
  | cons o outs ih =>
    obtain ⟨hqueue, hphase, hlog, hlistener, herror⟩ := ih (c.take o.index)
    exact ⟨hqueue, hphase, hlog, hlistener, herror⟩

lemma claim_perm (outs : List Output) (c : Component) (hkeys : (c.pending.map Work.index).Nodup) :
    c.pending.Perm ((c.claim outs).2 ++ (c.claim outs).1.pending) := by
  induction outs generalizing c with
  | nil => exact .refl _
  | cons o outs ih =>
    have hfilter : (((c.take o.index).pending).map Work.index).Nodup :=
      hkeys.sublist (filter_sublist.map _)
    show c.pending.Perm ((c.pending.find? (·.index = o.index)).toList ++ _ ++ _)
    rw [append_assoc]
    refine List.Perm.trans ?_ ((ih _ hfilter).append_left _)
    cases hfind : c.pending.find? (·.index = o.index) with
    | none =>
      have hsame : (c.take o.index).pending = c.pending := by
        rw [find?_eq_none] at hfind
        exact filter_eq_self.mpr fun w hw => by simpa using hfind w hw
      rw [hsame]
      exact .refl _
    | some w => exact find_take_perm hkeys hfind

/-! ## The worker -/

lemma queuedIn_reported (rs : List Result) (log : List Event) :
    queuedIn ((rs.map fun r => Event.reported r.work).reverse ++ log) = queuedIn log := by
  induction rs generalizing log with
  | nil => rfl
  | cons r rs ih =>
    rw [map_cons, reverse_cons, append_assoc, ih]
    rfl

lemma returnedIn_reported (rs : List Result) (log : List Event) :
    returnedIn ((rs.map fun r => Event.reported r.work).reverse ++ log) =
      (rs.map (·.work)).reverse ++ returnedIn log := by
  induction rs generalizing log with
  | nil => rfl
  | cons r rs ih =>
    rw [map_cons, reverse_cons, append_assoc, ih, map_cons, reverse_cons, append_assoc]
    rfl

lemma complete_reported (rs : List Result) (h : Complete log) :
    Complete ((rs.map fun r => Event.reported r.work).reverse ++ log) := by
  induction rs generalizing log with
  | nil => exact h
  | cons r rs ih =>
    rw [map_cons, reverse_cons, append_assoc]
    exact @ih (.reported r.work :: log) h

/-- The finished items are reported, and another one is kept for later. -/
lemma notify_custody {done : List Result} {retry : Option Work}
    (hitems : (queuedIn c.log).Perm
      (c.queue ++ retry.toList ++ (done.map (·.work) ++ c.pending) ++ returnedIn c.log))
    (hnodup : (queuedIn c.log).Nodup) (hkeys : (c.pending.map Work.index).Nodup)
    (hcomplete : Complete c.log) (hlistener : c.listener = true) : Custody (c.notify done retry) := by
  unfold notify
  split_ifs with hdone
  · obtain rfl : done = [] := hdone.resolve_right (by simp [hlistener])
    refine ⟨?_, hnodup, hkeys, hcomplete, hlistener⟩
    show (queuedIn c.log).Perm (retry.toList ++ c.queue ++ [] ++ c.pending ++ returnedIn c.log)
    rw [append_nil]
    exact hitems.trans ((perm_append_comm.append_right _).append_right _)
  · have hhand : ({ c with
        log := (done.map fun r => Event.reported r.work).reverse ++ c.log
        phase := .notify retry } : Component).inHand = retry.toList := by
      cases retry with
      | none => rfl
      | some w => rfl
    refine ⟨?_, ?_, hkeys, complete_reported done hcomplete, hlistener⟩
    · rw [hhand]
      rw [queuedIn_reported, returnedIn_reported]
      refine hitems.trans (Multiset.coe_eq_coe.mp ?_)
      simp only [← Multiset.coe_add, Multiset.coe_reverse]
      abel
    · rw [queuedIn_reported]
      exact hnodup

/-- An item that was taken from the queue and is not anywhere else. -/
structure Taken (c : Component) (w : Work) : Prop where
  items : (queuedIn c.log).Perm (w :: (c.queue ++ c.pending ++ returnedIn c.log))
  nodup : (queuedIn c.log).Nodup
  keys : (c.pending.map Work.index).Nodup
  complete : Complete c.log
  listener : c.listener = true

lemma onDecoder_beside (c : Component) (d : Decoder) (lastError : String)
    (p : Prog Machine Stop Unit) :
    Beside c (c.onDecoder d lastError p).2.2 ∧ (c.onDecoder d lastError p).2.2.pending = c.pending :=
  ⟨⟨rfl, rfl, rfl, rfl, id⟩, rfl⟩

/-- The decoder took the item or did not, and finished others. -/
lemma settle_custody {status : Status} {outs : List Output} {signalled : List Bool}
    {before : List Work}
    (hitems : (queuedIn c.log).Perm (c.queue ++ (before ++ [w]) ++ returnedIn c.log))
    (hpending : c.pending = before ++ [w]) (hkeys : (c.pending.map Work.index).Nodup)
    (hnodup : (queuedIn c.log).Nodup) (hcomplete : Complete c.log) (hlistener : c.listener = true) :
    Custody (c.settle w status outs signalled) := by
  have hback : c.pending.filter (·.index ≠ w.index) = before := by
    rw [hpending, map_append, nodup_append] at hkeys
    rw [hpending, filter_append, filter_eq_self.mpr]
    · simp
    intro u hu
    have hne : u.index ≠ w.index :=
      hkeys.2.2 u.index (mem_map_of_mem hu) w.index mem_cons_self
    simpa using hne
  have hretry : ∃ c₁, (if status = .again then c.take w.index else c) = c₁ ∧ Beside c c₁ ∧
      (c₁.pending.map Work.index).Nodup ∧
      (before ++ [w]).Perm ((if status = .again then some w else none).toList ++ c₁.pending) := by
    refine ⟨_, rfl, ?_⟩
    split_ifs with hagain
    · refine ⟨⟨rfl, rfl, rfl, rfl, id⟩, hkeys.sublist (filter_sublist.map _), ?_⟩
      show (before ++ [w]).Perm ([w] ++ c.pending.filter (·.index ≠ w.index))
      rw [hback]
      exact perm_append_comm
    · exact ⟨.refl c, hkeys, hpending ▸ .refl _⟩
  obtain ⟨c₁, hc₁, hbeside₁, hkeys₁, hperm₁⟩ := hretry
  obtain ⟨hbeside₂, hkeys₂, hperm₂⟩ := deliver_spec outs signalled c₁ hkeys₁
  have hbeside := hbeside₁.trans hbeside₂
  have hcustody : ∀ c₂ : Component, Beside (c₁.deliver outs signalled).1 c₂ →
      c₂.pending = (c₁.deliver outs signalled).1.pending →
      Custody (c₂.notify (c₁.deliver outs signalled).2 (if status = .again then some w else none)) := by
    intro c₂ hbeside' hp
    have hlog : c₂.log = c.log := hbeside'.log.trans hbeside.log
    refine notify_custody ?_ ?_ ?_ ?_ ?_
    · rw [hlog, hp, hbeside'.queue, hbeside.queue]
      refine hitems.trans (List.Perm.append_right _ ?_)
      rw [append_assoc]
      exact (hperm₁.trans (hperm₂.append_left _)).append_left _
    · rw [hlog]
      exact hnodup
    · rw [hp]
      exact hkeys₂
    · rw [hlog]
      exact hcomplete
    · rw [hbeside'.listener, hbeside.listener]
      exact hlistener
  unfold settle
  rw [hc₁]
  dsimp only
  by_cases herror : status = .error
  · rw [if_pos herror]
    exact hcustody _ (fatal_beside _) rfl
  · rw [if_neg herror]
    exact hcustody _ (.refl _) rfl

lemma hand_custody {d : Decoder} (h : Taken c w) (hkey : w.index ∉ c.pending.map Work.index) :
    Custody (c.hand d w a) := by
  have hother : c.pending.filter (·.index ≠ w.index) = c.pending := by
    rw [filter_eq_self]
    intro u hu
    have hne : u.index ≠ w.index := fun heq => hkey (heq ▸ mem_map_of_mem hu)
    simpa using hne
  have hput : (c.put w).pending = c.pending ++ [w] := congrArg (· ++ [w]) hother
  have hkeys : ((c.put w).pending.map Work.index).Nodup := by
    rw [hput, map_append, nodup_append]
    refine ⟨h.keys, nodup_singleton _, ?_⟩
    rintro i hi j hj rfl
    exact hkey (mem_singleton.mp hj ▸ hi)
  have hreturned : w ∉ returnedIn c.log := by
    have hnodup := h.items.nodup_iff.mp h.nodup
    rw [nodup_cons, mem_append] at hnodup
    exact fun hw => hnodup.1 (.inr hw)
  refine settle_custody ?_ hput hkeys h.nodup ⟨hreturned, h.complete⟩ h.listener
  refine h.items.trans (Multiset.coe_eq_coe.mp ?_)
  rw [← singleton_append]
  simp only [← Multiset.coe_add]
  show _ = (c.queue : Multiset Work) + ((c.pending : Multiset Work) + ([w] : Multiset Work)) +
    (returnedIn c.log : Multiset Work)
  abel

/-! ## Steps -/

/-- The worker meets no two items of one frame index at a time, and no flush comes while it keeps an
item for another attempt. Nobody stops the component. -/
def Meets (c : Component) : Action → Prop
  | .work _ => ∀ w ∈ c.queue.head?, w.index ∉ c.pending.map Work.index
  | .flushSm _ _ => ∀ w, c.phase ≠ .notify (some w)
  | .queueNb _ => True
  | .resume => True
  | .stop => False
  | .join => False

lemma process_custody (h : Taken c w) (hkey : w.index ∉ c.pending.map Work.index)
    (herror : (c.process w a).error = false) : Custody (c.process w a) := by
  unfold process at herror ⊢
  split_ifs at herror ⊢ with hmap hcsd hcreate
  · cases herror
  · refine notify_custody ?_ h.nodup h.keys h.complete h.listener
    refine h.items.trans (Multiset.coe_eq_coe.mp ?_)
    rw [← singleton_append]
    simp only [← Multiset.coe_add]
    show _ = (c.queue : Multiset Work) + 0 + (([w] : Multiset Work) + (c.pending : Multiset Work)) +
      (returnedIn c.log : Multiset Work)
    abel
  · cases herror
  · dsimp only at herror ⊢
    split_ifs at herror ⊢ with hpool
    · cases herror
    · exact hand_custody { h with } hkey

lemma drainHeld_custody (h : Custody c) (hphase : c.phase = .ready) : Custody (c.drainHeld a) := by
  have hhand : c.inHand = [] := by
    unfold inHand
    rw [hphase]
  have hitems := h.items
  rw [hhand, append_nil] at hitems
  unfold drainHeld
  cases c.decoder with
  | none => exact h
  | some d =>
    obtain ⟨hbeside, hpending⟩ := onDecoder_beside c d a.lastError (Media.drain a.drain)
    have hcustody : ∀ c₁ : Component, Beside c c₁ → c₁.pending = c.pending → ∀ outs,
        Custody ((c₁.deliver outs a.signalled).1.notify (c₁.deliver outs a.signalled).2 none) := by
      intro c₁ hbeside₁ hp outs
      obtain ⟨hbeside₂, hkeys, hperm⟩ := deliver_spec outs a.signalled c₁ (hp ▸ h.keys)
      have hbeside' := hbeside₁.trans hbeside₂
      refine notify_custody ?_ (hbeside'.log ▸ h.nodup) hkeys (hbeside'.log ▸ h.complete)
        (hbeside'.listener ▸ h.listener)
      rw [hbeside'.log, hbeside'.queue, Option.toList_none, append_nil]
      exact hitems.trans (((hp ▸ hperm).append_left _).append_right _)
    dsimp only
    split_ifs with hpool herror
    · exact hcustody _ (hbeside.trans (fatal_beside _)) hpending _
    · exact hcustody _ hbeside hpending _
    · exact h

/-- The worker goes on without an item in its hand. -/
lemma phase_custody {p : Phase} (h : Custody c) (hhand : c.inHand = [])
    (hp : ∀ w, p ≠ .notify (some w)) : Custody { c with phase := p } := by
  have hnone : ({ c with phase := p } : Component).inHand = [] := by
    unfold inHand
    split
    · exact absurd ‹_› (hp _)
    · rfl
  refine { h with items := ?_ }
  rw [hnone, ← hhand]
  exact h.items

lemma work_custody (h : Custody c) (hphase : c.phase = .ready)
    (hkey : ∀ w ∈ c.queue.head?, w.index ∉ c.pending.map Work.index)
    (herror : (c.work a).error = false) : Custody (c.work a) := by
  have hhand : c.inHand = [] := by
    unfold inHand
    rw [hphase]
  have hitems := h.items
  rw [hhand, append_nil] at hitems
  unfold work at herror ⊢
  split_ifs at herror ⊢ with hquit herr hlistener
  · exact phase_custody h hhand nofun
  · exact phase_custody h hhand nofun
  · exact phase_custody h hhand nofun
  cases hqueue : c.queue with
  | nil => exact drainHeld_custody h hphase
  | cons w queue =>
    rw [hqueue] at herror hitems hkey
    exact process_custody { h with items := hitems } (hkey w rfl) herror

lemma resume_custody {retry : Option Work} (h : Custody c) (hphase : c.phase = .notify retry) :
    Custody (c.proceed retry) := by
  have hhand : c.inHand = retry.toList := by
    unfold inHand
    rw [hphase]
    cases retry with
    | none => rfl
    | some w => rfl
  have hitems := h.items
  rw [hhand] at hitems
  refine { h with items := ?_ }
  show (queuedIn c.log).Perm (retry.toList ++ c.queue ++ [] ++ c.pending ++ returnedIn c.log)
  rw [append_nil]
  exact hitems.trans ((perm_append_comm.append_right _).append_right _)

lemma queuedIn_queued (items : List Work) (log : List Event) :
    queuedIn ((items.map Event.queued).reverse ++ log) = items.reverse ++ queuedIn log := by
  induction items generalizing log with
  | nil => rfl
  | cons w items ih =>
    rw [map_cons, reverse_cons, append_assoc, ih, reverse_cons, append_assoc]
    rfl

lemma returnedIn_queued (items : List Work) (log : List Event) :
    returnedIn ((items.map Event.queued).reverse ++ log) = returnedIn log := by
  induction items generalizing log with
  | nil => rfl
  | cons w items ih =>
    rw [map_cons, reverse_cons, append_assoc, ih]
    rfl

lemma complete_queued (items : List Work) (h : Complete log) :
    Complete ((items.map Event.queued).reverse ++ log) := by
  induction items generalizing log with
  | nil => exact h
  | cons w items ih =>
    rw [map_cons, reverse_cons, append_assoc]
    exact @ih (.queued w :: log) h

lemma mem_queuedIn (h : w ∈ queuedIn log) : .queued w ∈ log := by
  induction log with
  | nil => cases h
  | cons e log ih =>
    cases e with
    | queued v =>
      rcases mem_cons.mp h with rfl | h
      · exact mem_cons_self
      · exact mem_cons_of_mem _ (ih h)
    | handed v | reported v | flushed ws => exact mem_cons_of_mem _ (ih h)

lemma queueNb_custody {items : List Work} (h : Custody c) (hnew : c.isNew items = true) :
    Custody (c.queueNb items) := by
  unfold queueNb
  split_ifs with hrunning
  · have hhand : ({ c with
        queue := c.queue ++ items
        log := (items.map Event.queued).reverse ++ c.log } : Component).inHand = c.inHand := rfl
    unfold isNew at hnew
    rw [Bool.and_eq_true, decide_eq_true_eq, all_eq_true] at hnew
    refine ⟨?_, ?_, h.keys, complete_queued items h.complete, h.listener⟩
    · rw [hhand]
      rw [queuedIn_queued, returnedIn_queued]
      refine (h.items.append_left _).trans (Multiset.coe_eq_coe.mp ?_)
      simp only [← Multiset.coe_add, Multiset.coe_reverse]
      abel
    · rw [queuedIn_queued, nodup_append]
      refine ⟨nodup_reverse.mpr hnew.1, h.nodup, ?_⟩
      rintro w hw v hv rfl
      have hnot := hnew.2 w (mem_reverse.mp hw)
      rw [decide_eq_true_eq] at hnot
      exact hnot (mem_queuedIn hv)
  · exact h

lemma flushDecoder_beside (c : Component) (rc : ℤ) (lastError : String) :
    Beside c (c.flushDecoder rc lastError).1 := by
  unfold flushDecoder
  cases c.decoder with
  | none => exact .refl _
  | some d =>
    obtain ⟨hbeside, -⟩ := onDecoder_beside c d lastError (Media.flush rc)
    dsimp only
    split_ifs with hstatus
    · exact (hbeside.trans (fatal_beside _)).trans (claim_beside _ _)
    · exact hbeside.trans (claim_beside _ _)

lemma flushDecoder_perm (c : Component) (rc : ℤ) (lastError : String)
    (hkeys : (c.pending.map Work.index).Nodup) :
    c.pending.Perm ((c.flushDecoder rc lastError).2 ++ (c.flushDecoder rc lastError).1.pending) := by
  unfold flushDecoder
  cases c.decoder with
  | none => exact .refl _
  | some d =>
    dsimp only
    split_ifs with hstatus
    · exact claim_perm _ (c.onDecoder d lastError (Media.flush rc)).2.2.fatal hkeys
    · exact claim_perm _ (c.onDecoder d lastError (Media.flush rc)).2.2 hkeys

lemma flushSm_custody {rc : ℤ} {lastError : String} (h : Custody c)
    (hphase : ∀ w, c.phase ≠ .notify (some w)) : Custody (c.flushSm rc lastError) := by
  have hhand : ∀ c' : Component, c'.phase = c.phase → c'.inHand = [] := by
    intro c' hc'
    unfold inHand
    split
    · rename_i w hw
      exact absurd (hc'.symm.trans hw) (hphase w)
    · rfl
  have hbeside := flushDecoder_beside { c with queue := [] } rc lastError
  have hperm := flushDecoder_perm { c with queue := [] } rc lastError h.keys
  have hnone : (c.flushSm rc lastError).inHand = [] := hhand _ hbeside.phase
  have hitems := h.items
  rw [hhand c rfl, append_nil] at hitems
  have hlog := hbeside.log
  unfold flushSm at hnone ⊢
  generalize ({ c with queue := [] } : Component).flushDecoder rc lastError = flushed at *
  have hreturned : (queuedIn c.log).Perm (c.queue ++ flushed.2 ++ flushed.1.pending ++
      returnedIn c.log) := by
    refine hitems.trans (List.Perm.append_right _ ?_)
    rw [append_assoc c.queue]
    exact hperm.append_left _
  refine ⟨?_, ?_, nodup_nil, ?_, hbeside.listener.trans h.listener⟩
  · rw [hnone]
    show (queuedIn flushed.1.log).Perm (flushed.1.queue ++ [] ++ [] ++ (_ ++ returnedIn flushed.1.log))
    rw [hlog, hbeside.queue]
    exact hreturned
  · show (queuedIn flushed.1.log).Nodup
    rw [hlog]
    exact h.nodup
  · refine ⟨?_, hlog ▸ h.complete⟩
    rw [hlog]
    intro w
    constructor
    · intro hw
      have hnodup := hreturned.nodup_iff.mp h.nodup
      rw [nodup_append] at hnodup
      exact ⟨hreturned.mem_iff.mpr (mem_append_left _ hw), fun hret => hnodup.2.2 w hw w hret rfl⟩
    · rintro ⟨hw, hnot⟩
      rcases mem_append.mp (hreturned.mem_iff.mp hw) with hmem | hmem
      · exact hmem
      · exact absurd hmem hnot

/-! ## Runs -/

/-- What a step does. -/
lemma step_cases {a : Action} (hstep : c.step a = some c') :
    (∃ items, a = .queueNb items ∧ c.isNew items = true ∧ c' = c.queueNb items) ∨
    (∃ rc lastError, a = .flushSm rc lastError ∧ c' = c.flushSm rc lastError) ∨
    (∃ answer, a = .work answer ∧ c.phase = .ready ∧ c' = c.work answer) ∨
    (∃ answer, a = .work answer ∧ c.phase = .halted ∧ c' = { c with phase := .ended }) ∨
    (∃ retry, a = .resume ∧ c.phase = .notify retry ∧ c' = c.proceed retry) ∨
    (a = .resume ∧ c.phase = .onError ∧ c' = { c with phase := .halted }) ∨
    (a = .stop ∧ (c' = { c with quit := true } ∨ c' = c)) ∨ (a = .join ∧ c' = c.cleanup) := by
  cases a <;> simp only [step] at hstep <;> grind

/-- The component does not recover from an error. -/
lemma step_error {a : Action} (hstep : c.step a = some c') (herror : c.error = true) :
    c'.error = true := by
  obtain ⟨items, -, -, rfl⟩ | ⟨rc, lastError, -, rfl⟩ | ⟨answer, -, -, rfl⟩ | ⟨-, -, -, rfl⟩ |
    ⟨-, -, -, rfl⟩ | ⟨-, -, rfl⟩ | ⟨-, rfl | rfl⟩ | ⟨-, rfl⟩ := step_cases hstep
  case inr.inl => exact (flushDecoder_beside { c with queue := [] } rc lastError).error herror
  all_goals grind [queueNb, work, proceed, cleanup]

lemma step_custody {a : Action} (h : Custody c) (hmeets : c.Meets a) (hstep : c.step a = some c')
    (herror : c'.error = false) : Custody c' := by
  obtain ⟨items, rfl, hnew, rfl⟩ | ⟨rc, lastError, rfl, rfl⟩ | ⟨answer, rfl, hphase, rfl⟩ |
    ⟨answer, rfl, hphase, rfl⟩ | ⟨retry, rfl, hphase, rfl⟩ | ⟨rfl, hphase, rfl⟩ | ⟨rfl, -⟩ |
    ⟨rfl, -⟩ := step_cases hstep
  · exact queueNb_custody h hnew
  · exact flushSm_custody h hmeets
  · exact work_custody h hphase hmeets herror
  · exact phase_custody h (by simp [inHand, hphase]) nofun
  · exact resume_custody h hphase
  · exact phase_custody h (by simp [inHand, hphase]) nofun
  · exact hmeets.elim
  · exact hmeets.elim

/-- Items are returned once, a flush returns all that were not returned before, and none of them is
seen afterwards. -/
structure Returned (c : Component) : Prop where
  once : (returnedIn c.log).Nodup
  complete : ∀ before ws after, c.log = after ++ .flushed ws :: before →
    ∀ w, w ∈ ws ↔ w ∈ queuedIn before ∧ w ∉ returnedIn before
  finished : ∀ before ws after, c.log = after ++ .flushed ws :: before →
    ∀ w ∈ ws, .handed w ∉ after ∧ .reported w ∉ after
  accounted : (queuedIn c.log).Perm (c.queue ++ c.inHand ++ c.pending ++ returnedIn c.log)

lemma Custody.returned (h : Custody c) : Returned c := by
  have hnodup := h.items.nodup_iff.mp h.nodup
  rw [nodup_append] at hnodup
  refine ⟨hnodup.2.1, ?_, ?_, h.items⟩
  · intro before ws after hlog
    have hcomplete := h.complete
    rw [hlog] at hcomplete
    exact hcomplete.of_append.1
  · intro before ws after hlog w hw
    have hcomplete := h.complete
    have honce := hnodup.2.1
    rw [hlog] at hcomplete honce
    have hret : w ∈ returnedIn (.flushed ws :: before) := mem_append_left _ hw
    refine ⟨hcomplete.not_handed hret, fun hrep => ?_⟩
    rw [returnedIn_append, nodup_append] at honce
    exact honce.2.2 w (reported_mem_returnedIn hrep) w hret rfl

/-- A component that was just started, with a listener. -/
def started (codec : Codec) (maxWidth maxHeight : ℕ) : Component :=
  { codec := codec, maxWidth := maxWidth, maxHeight := maxHeight }

theorem flush_returns_all {codec : Codec} {maxWidth maxHeight : ℕ} {actions : List Action}
    {c : Component} (hmeets : Along step Meets (started codec maxWidth maxHeight) actions)
    (hrun : run step (started codec maxWidth maxHeight) actions = some c) (herror : c.error = false) :
    Returned c := by
  have hstart : Custody (started codec maxWidth maxHeight) :=
    ⟨.refl _, nodup_nil, nodup_nil, trivial, rfl⟩
  have hcustody : c.error = false → Custody c := by
    refine @run_invariant_along _ _ step Meets (fun c => c.error = false → Custody c) ?_ _ _ _
      (fun _ => hstart) hmeets hrun
    intro s a s' hs hm hstep hs'
    refine step_custody (hs ?_) hm hstep hs'
    by_contra hcontra
    have htrue := step_error hstep (Bool.not_eq_false _ ▸ hcontra)
    rw [hs'] at htrue
    cases htrue
  exact (hcustody herror).returned

/-- An item with a frame of data. -/
def item (i : ℕ) : Work := ⟨i, ⟨[0], i, false, false⟩⟩

instance (c : Component) : DecidablePred (Meets c)
  | .work _ => inferInstanceAs (Decidable (∀ w ∈ c.queue.head?, w.index ∉ c.pending.map Work.index))
  | .flushSm _ _ =>
    match h : c.phase with
    | .notify (some w) => .isFalse fun hmeets => hmeets w h
    | .notify none | .ready | .onError | .halted | .ended => .isTrue fun w hw => by cases h.symm.trans hw
  | .queueNb _ => .isTrue trivial
  | .resume => .isTrue trivial
  | .stop => .isFalse id
  | .join => .isFalse id

/-- The unit is taken with one picture; then the pool has `buffers` buffers. -/
def onePicture (buffers : ℕ) : WorkAnswer where
  queue :=
    { tries := [{ decode := .accepted [⟨8, 64, 64⟩] }]
      rounds := List.replicate buffers ⟨.pick 0, { fetch := .block 0 none }⟩ }

/-- The decoder is full: one picture is copied out, but it is still full. -/
def stillFull : WorkAnswer where
  queue :=
    { tries := [{ decode := .again, rounds := [⟨.pick 0, { fetch := .block 0 none }⟩] },
        { decode := .again }] }

/-- The first item waits for a buffer when both are flushed. -/
theorem flush_returns_all_pending :
    ∃ c, run step (started .vp9 64 64) [.queueNb [item 0, item 1], .work (onePicture 0),
        .flushSm 0 ""] = some c ∧
      Returned c ∧ c.log.head? = some (.flushed [item 1, item 0]) := by
  have hview : (run step (started .vp9 64 64) [.queueNb [item 0, item 1], .work (onePicture 0),
      .flushSm 0 ""]).map (fun c => (c.error, c.log.head?)) =
        some (false, some (.flushed [item 1, item 0])) := by decide +kernel
  obtain ⟨c, hrun, hc⟩ := exists_run_of_view hview
  obtain ⟨herror, hlog⟩ := Prod.ext_iff.mp hc
  exact ⟨c, hrun, flush_returns_all (by decide +kernel) hrun herror, hlog⟩

/-- While the first item is reported the second waits for another attempt. The flush in that
callback does not return it, and it is decoded and reported afterwards. -/
theorem flush_misses_retry :
    ∃ c, run step (started .vp9 64 64) [.queueNb [item 0, item 1], .work (onePicture 0),
        .work stillFull, .flushSm 0 "", .resume, .work (onePicture 1)] = some c ∧
      c.error = false ∧
      c.log = [.reported (item 1), .handed (item 1), .flushed [], .reported (item 0),
        .handed (item 1), .handed (item 0), .queued (item 1), .queued (item 0)] ∧ ¬ Returned c := by
  have hview : (run step (started .vp9 64 64) [.queueNb [item 0, item 1], .work (onePicture 0),
      .work stillFull, .flushSm 0 "", .resume, .work (onePicture 1)]).map (fun c => (c.error, c.log)) =
        some (false, [.reported (item 1), .handed (item 1), .flushed [], .reported (item 0),
          .handed (item 1), .handed (item 0), .queued (item 1), .queued (item 0)]) := by decide +kernel
  obtain ⟨c, hrun, hc⟩ := exists_run_of_view hview
  obtain ⟨herror, hlog⟩ := Prod.ext_iff.mp hc
  refine ⟨c, hrun, herror, hlog, fun h => ?_⟩
  have hcomplete := h.complete [.reported (item 0), .handed (item 1), .handed (item 0),
    .queued (item 1), .queued (item 0)] [] [.reported (item 1), .handed (item 1)] hlog
  exact not_mem_nil ((hcomplete (item 1)).mpr (by decide))

end Component

end NvidiaProlapse.Media
