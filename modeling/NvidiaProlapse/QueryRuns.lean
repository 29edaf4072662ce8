import NvidiaProlapse.Queries

/-!
# Query results over every interleaving

What a context has submitted and recorded of a query is followed through the queue. While a query
is between its reports, its own commands decide what the two reports will differ by, if no
other context's batch comes in between.
-/
namespace NvidiaProlapse.Queries
open BatchQueue Runs List Screen Context

/-- What the channel holds of a query: while it is active the counter is its count beyond the begin
report, later the end report is. -/
def Good (enabled : Bool) (slot : Slot) (q : Query) (ch : Channel) : Prop :=
  if q.active then
    UInt64.ofNat (ch.counter q.type q.index) = (ch.reports slot).2 + UInt64.ofNat q.count ∧
      (q.type.isOcclusion → ch.zpassEnabled = enabled)
  else (ch.reports slot).1 = (ch.reports slot).2 + UInt64.ofNat q.count

variable {ctx : Context} {slot : Slot} {q : Query} {ch : Channel}

variable {d : Draw} {isEnd enable enabled : Bool} {q' : Query} {cmds : List Command} {s' : Screen}

lemma good_draw (hcounted : ctx.queriesEnabled ∨ (q.active → q.type.isOcclusion))
    (h : Good ctx.queriesEnabled slot q ch) :
    Good ctx.queriesEnabled slot (ctx.tally d q) (exec ch (.draw d)) := by
  obtain ⟨type, index, active, flushSeq, begun, count⟩ := q
  cases active with
  | false => simpa [Good, tally, exec] using h
  | true =>
    cases henabled' : ctx.queriesEnabled <;> cases type <;>
      simp_all [Good, tally, share, exec, Channel.counter, QueryType.isOcclusion, UInt64.add_assoc]

variable {seq k : ℕ} {ctx' : Context} {s : Screen}

lemma good_begin : Good ctx.queriesEnabled slot
    { q with active := true, begun := some seq, count := 0 }
    ((ctx.queryReport slot q false).foldl exec ch) := by
  cases htype : q.type <;> simp [Good, queryReport, exec, htype, QueryType.isOcclusion, Channel.counter]

lemma good_end (hactive : q.active) (h : Good ctx.queriesEnabled slot q ch) :
    Good ctx.queriesEnabled slot { q with active := false, flushSeq := seq }
      ((ctx.queryReport slot q true).foldl exec ch) := by
  cases htype : q.type <;> simp_all [Good, queryReport, exec, QueryType.isOcclusion, Channel.counter]

lemma good_other {slot' : Slot} (hne : slot' ≠ slot)
    (hsingle : q.active → q.type.isOcclusion → ¬ q'.type.isOcclusion)
    (h : Good ctx.queriesEnabled slot q ch) :
    Good ctx.queriesEnabled slot q ((ctx.queryReport slot' q' isEnd).foldl exec ch) := by
  cases htype' : q'.type.isOcclusion <;> cases hactive : q.active <;>
    cases htype : q.type <;> simp_all [Good, queryReport, exec, QueryType.isOcclusion, Channel.counter,
      Function.update_of_ne hne.symm]

lemma good_enable (h : Good ctx.queriesEnabled slot q ch) :
    Good enable slot q (exec ch (.setZpassPixelCount enable)) := by
  cases hactive : q.active <;> cases htype : q.type <;> simp_all [Good, exec, Channel.counter]

lemma good_inactive {enabled' : Bool} (hactive : ¬ q.active) :
    Good enabled slot q ch ↔ Good enabled' slot q ch := by simp [Good, hactive]

/-- A query that began at sequence number `b`. If its begin report is not submitted, its own commands
decide what is counted, whatever the channel holds before; once its end report is submitted, only
batches up to the token of that flush write its buffer. -/
structure Followed (Q : Queue Command Channel) (ctx : Context) (slot : Slot) (q : Query) (b : ℕ) :
    Prop where
  begun : b ≤ ctx.flushSeq
  ended : ¬ q.active → b ≤ q.flushSeq ∧ q.flushSeq ≤ ctx.flushSeq
  fresh : b = ctx.flushSeq → ∀ ch, Good ctx.queriesEnabled slot q (ctx.recording.foldl exec ch)
  unended : q.active ∨ q.flushSeq = ctx.flushSeq →
    Good ctx.queriesEnabled slot q (ctx.recording.foldl exec (Q.settled exec))
  closed : ¬ q.active → q.flushSeq < ctx.flushSeq → Good ctx.queriesEnabled slot q (Q.settled exec) ∧
    (∀ cmd ∈ ctx.recording, cmd.target ≠ some slot) ∧ ∀ batch ∈ Q.waiting, ∀ cmd ∈ batch.commands,
      cmd.target = some slot → batch.token ≤ ctx.seqTokens.getD q.flushSeq 0

structure Tracked (Q : Queue Command Channel) (c : ℕ) (ctx : Context) : Prop where
  length : ctx.seqTokens.length = ctx.flushSeq
  sorted : ctx.seqTokens.Pairwise (· ≤ ·)
  last : ∀ t ∈ ctx.seqTokens, t ≤ ctx.lastToken
  issued : ctx.lastToken ≤ Q.issued
  own : ∀ cmd ∈ ctx.recording, ∀ slot, cmd.target = some slot → slot.context = c
  sent : ∀ batch ∈ Q.waiting, ∀ cmd ∈ batch.commands, ∀ slot, cmd.target = some slot → slot.context = c →
    batch.token ≤ ctx.lastToken
  single : ∀ (k : ℕ) (q : Query), ctx.queries[k]? = some q → q.active → q.type.isOcclusion →
    ctx.occlusionQuery = some k
  query : ∀ (k : ℕ) (q : Query) (b : ℕ), ctx.queries[k]? = some q → q.begun = some b →
    Followed Q ctx ⟨c, k⟩ q b

variable {Q : Queue Command Channel} {c b : ℕ}

/-- Recorded commands that carry a query from `q` to `q'`. -/
lemma Followed.record (h : Followed Q ctx slot q b) (cmds : List Command)
    (hrec : ctx'.recording = ctx.recording ++ cmds) (hseq : ctx'.flushSeq = ctx.flushSeq)
    (htok : ctx'.seqTokens = ctx.seqTokens)
    (hgood : ∀ ch, Good ctx.queriesEnabled slot q ch → Good ctx'.queriesEnabled slot q' (cmds.foldl exec ch))
    (hopen : q'.active → q.active)
    (hclosed : ¬ q'.active → (q' = q ∧ ∀ cmd ∈ cmds, cmd.target ≠ some slot) ∨ (q.active ∧ q'.flushSeq = ctx.flushSeq)) :
    Followed Q ctx' slot q' b where
  begun := hseq ▸ h.begun
  ended := by
    have := h.ended
    have := h.begun
    grind
  fresh := by
    intro hb ch
    rw [hrec, foldl_append]
    exact hgood _ (h.fresh (hb.trans hseq) ch)
  unended := by
    intro hq
    rw [hrec, foldl_append]
    exact hgood _ (h.unended (by grind))
  closed := by
    intro hq hlt
    obtain ⟨rfl, hcmds⟩ : q' = q ∧ ∀ cmd ∈ cmds, cmd.target ≠ some slot := by grind
    obtain ⟨hg, hr, hw⟩ := h.closed hq (hseq ▸ hlt)
    rw [hrec, htok]
    exact ⟨(good_inactive hq).mp hg, by grind, hw⟩

lemma Tracked.draw (h : Tracked Q c ctx)
    (hcounted : ctx.queriesEnabled ∨ ∀ q ∈ ctx.queries, q.active → q.type.isOcclusion) :
    Tracked Q c (ctx.draw d) := by
  have htally : ∀ q, (ctx.tally d q).active = q.active ∧ (ctx.tally d q).type = q.type ∧
      (ctx.tally d q).begun = q.begun ∧ (¬ q.active → ctx.tally d q = q) := by
    intro q
    rw [tally]
    split <;> grind
  refine { h with own := ?_, single := ?_, query := ?_ }
  · have := h.own
    grind [draw, record, Command.target]
  · have := h.single
    grind [draw, record]
  intro k q' b hq' hb
  obtain ⟨q, hq, rfl⟩ : ∃ q, ctx.queries[k]? = some q ∧ ctx.tally d q = q' := by
    simpa [Context.draw, Context.record] using hq'
  have hmem := mem_of_getElem? hq
  have hshare := hcounted.imp_right fun hocc => hocc q hmem
  refine (h.query k q b hq (by grind)).record [.draw d] rfl rfl rfl
    (fun ch hg => good_draw hshare hg) (by grind) ?_
  exact fun hq' => .inl ⟨by grind, by simp [Command.target]⟩

lemma Tracked.createQuery (h : Tracked Q c ctx) {type : QueryType} {index : Fin 4} :
    Tracked Q c { ctx with queries := ctx.queries ++ [⟨type, index, false, 0, none, 0⟩] } := by
  have hsingle := h.single
  refine { h with single := by grind, query := ?_ }
  intro k q b hq hb
  exact { h.query k q b (by grind) hb with }

lemma Tracked.setActiveQueryState (h : Tracked Q c ctx) :
    Tracked Q c (ctx.setActiveQueryState enable) := by
  have hown := h.own
  rw [Context.setActiveQueryState]
  split
  · rename_i hnone
    refine { h with query := fun k q b hq hb => ?_ }
    -- Without an active occlusion query the switch of the channel does not matter.
    have hsingle : q.active → ¬ q.type.isOcclusion := by
      have := h.single k q hq
      grind
    refine (h.query k q b hq hb).record [] (by simp) rfl rfl ?_ id fun _ => .inl ⟨rfl, by simp⟩
    intro ch hg
    simp only [Good] at *
    grind
  · refine { h with own := ?_, query := fun k q b hq hb => ?_ }
    · simp only [record, mem_append, mem_singleton]
      grind [Command.target]
    · exact (h.query k q b hq hb).record [.setZpassPixelCount enable] rfl rfl rfl
        (fun ch hg => good_enable hg) id fun _ => .inl ⟨rfl, by simp [Command.target]⟩

lemma target_queryReport {slot : Slot} {cmd : Command} (h : cmd ∈ ctx.queryReport slot q isEnd) :
    cmd.target = none ∨ cmd.target = some slot := by
  rw [queryReport] at h
  split at h <;> grind [Command.target]

lemma Tracked.beginQuery (h : Tracked Q c ctx) (hq : ctx.queries[k]? = some q)
    (hbegin : ctx.beginQuery ⟨c, k⟩ q = some ctx') : Tracked Q c ctx' := by
  have hsingle := h.single
  rw [Context.beginQuery] at hbegin
  split_ifs at hbegin with hsecond
  all_goals
    cases hbegin
    refine { h with own := ?_, single := ?_, query := ?_ }
    · intro cmd hcmd slot hslot
      rcases mem_append.mp hcmd with hcmd | hcmd
      · exact h.own cmd hcmd slot hslot
      · have := target_queryReport hcmd
        grind
    · intro k' q' hq' hactive hocc
      grind
    · intro k' q' b hq' hb
      simp only [getElem?_set] at hq'
      split_ifs at hq' with hk
      · subst hk
        cases hq'
        cases hb
        refine ⟨le_rfl, nofun, fun _ ch => ?_, fun _ => ?_, nofun⟩
        all_goals
          rw [record, foldl_append]
          exact good_begin
      · refine (h.query k' q' b hq' hb).record (ctx.queryReport ⟨c, k⟩ q false) rfl rfl rfl
          (fun ch hg => good_other (by grind) (by grind) hg) id fun _ => .inl ⟨rfl, fun cmd hcmd => ?_⟩
        have := target_queryReport hcmd
        grind

lemma Tracked.endQuery (h : Tracked Q c ctx) (hq : ctx.queries[k]? = some q)
    (hend : ctx.endQuery ⟨c, k⟩ q = some ctx') : Tracked Q c ctx' := by
  have hsingle := h.single
  rw [Context.endQuery] at hend
  split_ifs at hend with hactive
  all_goals
    cases hend
    refine { h with own := ?_, single := ?_, query := ?_ }
    · intro cmd hcmd slot hslot
      rcases mem_append.mp hcmd with hcmd | hcmd
      · exact h.own cmd hcmd slot hslot
      · have := target_queryReport hcmd
        grind
    · intro k' q' hq' hactive' hocc
      grind
    · intro k' q' b hq' hb
      simp only [getElem?_set] at hq'
      split_ifs at hq' with hk
      · subst hk
        cases hq'
        exact (h.query k q b hq hb).record _ rfl rfl rfl (fun ch hg => good_end hactive hg)
          nofun fun _ => .inr ⟨hactive, rfl⟩
      · refine (h.query k' q' b hq' hb).record (ctx.queryReport ⟨c, k⟩ q true) rfl rfl rfl
          (fun ch hg => good_other (by grind) (by grind) hg) id fun _ => .inl ⟨rfl, fun cmd hcmd => ?_⟩
        have := target_queryReport hcmd
        grind

/-! ### Submission and execution -/

/-- What is waiting gets less, and nothing else changes. -/
lemma Tracked.wait (h : Tracked Q c ctx) (hQ : Q.Ordered) (t : ℕ) :
    Tracked (Q.wait exec t) c ctx := by
  have hsub : ∀ batch ∈ (Q.wait exec t).waiting, batch ∈ Q.waiting :=
    fun batch hbatch => (Queue.mem_waiting_wait hQ hbatch).1
  refine { h with
    issued := h.issued.trans_eq (Queue.issued_wait hQ t).symm
    sent := fun batch hbatch => h.sent batch (hsub batch hbatch)
    query := fun k q b hq hb => ?_ }
  obtain ⟨h1, h2, h3, h4, h5⟩ := h.query k q b hq hb
  refine ⟨h1, h2, h3, by simpa using h4, fun ha hlt => ?_⟩
  obtain ⟨hg, hr, hw⟩ := h5 ha hlt
  exact ⟨by simpa using hg, hr, fun batch hbatch => hw batch (hsub batch hbatch)⟩

/-- A buffer that no command of a list writes. -/
lemma good_foldl (hactive : ¬ q.active) (hcmds : ∀ cmd ∈ cmds, cmd.target ≠ some slot)
    (h : Good enabled slot q ch) : Good enabled slot q (cmds.foldl exec ch) := by
  have hview : (cmds.foldl exec ch).reports slot = ch.reports slot := by
    refine Queue.foldl_view (fun ch => ch.reports slot) (fun cmd hcmd ch => ?_) ch
    cases cmd with
    | draw | setZpassPixelCount => rfl
    | report slot' type index isEnd =>
      exact Function.update_of_ne (by grind [Command.target]) _ _
  simpa [Good, hactive, hview] using h

/-- Another context's batch: it changes neither what is recorded here nor the buffers that are closed. -/
lemma Tracked.other (h : Tracked Q c ctx) {c' : ℕ} (hne : c ≠ c')
    (hown : ∀ cmd ∈ cmds, ∀ slot, cmd.target = some slot → slot.context = c')
    (halone : ∀ q ∈ ctx.queries, ¬ q.Straddles ctx.flushSeq) : Tracked (Q.submit cmds) c ctx := by
  have hapart : ∀ k, ∀ cmd ∈ cmds, cmd.target ≠ some ⟨c, k⟩ := by grind
  refine { h with issued := h.issued.trans (Nat.le_succ _), sent := ?_, query := fun k q b hq hb => ?_ }
  · have := h.sent
    simp only [Queue.submit]
    grind
  obtain ⟨h1, h2, h3, h4, h5⟩ := h.query k q b hq hb
  have hstraddle := halone q (mem_of_getElem? hq)
  simp only [Query.Straddles, hb, Option.any_some, decide_eq_true_eq] at hstraddle
  refine ⟨h1, h2, h3, fun hopen => h3 (by grind) _, fun ha hlt => ?_⟩
  obtain ⟨hg, hr, hw⟩ := h5 ha hlt
  rw [Queue.settled_submit]
  refine ⟨good_foldl ha (hapart k) hg, hr, ?_⟩
  simp only [Queue.submit]
  grind

/-- The context's own flush closes the queries that ended in it. -/
lemma Tracked.flush (h : Tracked Q c ctx) (token : ℕ) {Q' : Queue Command Channel}
    (htoken : ctx.lastToken ≤ token) (hissued : token ≤ Q'.issued)
    (hsettled : Q'.settled exec = ctx.recording.foldl exec (Q.settled exec))
    (hwaiting : ∀ batch ∈ Q'.waiting, batch ∈ Q.waiting ∨ batch = ⟨token, ctx.recording⟩) :
    Tracked Q' c { ctx with
      recording := [], lastToken := token, seqTokens := ctx.seqTokens ++ [token]
      flushSeq := ctx.flushSeq + 1 } := by
  have hlen := h.length
  refine { h with length := by simp [hlen], sorted := ?_, last := ?_, issued := hissued, own := nofun, sent := ?_, query := fun k q b hq hb => ?_ }
  · refine pairwise_append.mpr ⟨h.sorted, pairwise_singleton _ _, ?_⟩
    have := h.last
    grind
  · have := h.last
    grind
  · have := h.sent
    grind
  obtain ⟨h1, h2, h3, h4, h5⟩ := h.query k q b hq hb
  have hsent := h.sent
  refine ⟨by grind, by grind, by grind, fun hopen => ?_, fun ha hlt => ?_⟩
  · have hgood := h4 (by grind)
    simpa [hsettled] using hgood
  rw [hsettled]
  by_cases hnow : q.flushSeq = ctx.flushSeq
  · refine ⟨h4 (.inr hnow), nofun, ?_⟩
    grind
  · obtain ⟨hg, hr, hw⟩ := h5 ha (by simp only at hlt; omega)
    refine ⟨good_foldl ha hr hg, nofun, ?_⟩
    grind

/-- An answer is the count, and only a call that does not wait is told to come back. -/
def Output.Right (o : Output) : Prop :=
  match o.result with
  | none => o.wait = false
  | some result => result = Screen.decode o.type (UInt64.ofNat o.count)

structure Sound (s : Screen) : Prop where
  ordered : s.queue.Ordered
  tracked : ∀ (c : ℕ) (ctx : Context), s.contexts[c]? = some ctx → Tracked s.queue c ctx
  outputs : ∀ o ∈ s.outputs, o.Right

lemma Sound.update (h : Sound s) {body : Context → Option Context}
    (hbody : ∀ ctx ctx', s.contexts[c]? = some ctx → body ctx = some ctx' → Tracked s.queue c ctx → Tracked s.queue c ctx')
    (hstep : s.update c body = some s') : Sound s' := by
  have htracked := h.tracked
  rw [Screen.update] at hstep
  split at hstep
  · exact nomatch hstep
  split at hstep
  · exact nomatch hstep
  · cases hstep
    exact { h with tracked := by grind }

lemma Sound.flush (h : Sound s) (hctx : s.contexts[c]? = some ctx)
    (halone : ctx.recording ≠ [] → s.Alone c) : Sound (s.flush c ctx) := by
  have htracked := h.tracked
  have hown := h.tracked c ctx hctx
  have hlast := hown.issued
  rw [Screen.flush]
  split
  · rename_i hnil
    have hflush := hown.flush ctx.lastToken le_rfl hlast (by simp [hnil]) fun _ hbatch => .inl hbatch
    refine { h with tracked := fun d other hd => ?_ }
    simp only [getElem?_set] at hd
    split_ifs at hd
    · cases hd
      grind
    · exact htracked d other hd
  · rename_i hne
    have hflush : Tracked (s.queue.submit ctx.recording) c _ :=
      hown.flush (s.queue.issued + 1) (by omega) le_rfl (Queue.settled_submit _ _) (by simp [Queue.submit])
    refine ⟨h.ordered.submit _, fun d other hd => ?_, h.outputs⟩
    simp only [getElem?_set] at hd
    split_ifs at hd with hdc
    · cases hd
      exact hdc ▸ hflush
    · have hmem := mem_eraseIdx_iff_getElem?.mpr ⟨d, Ne.symm hdc, hd⟩
      exact (htracked d other hd).other (Ne.symm hdc) hown.own (halone hne other hmem)

lemma Tracked.le_seqToken (h : Tracked Q c ctx) (hseq : seq < ctx.flushSeq) :
    ctx.seqTokens.getD seq 0 ≤ ctx.seqToken seq := by
  have hlen := h.length
  have hsorted := pairwise_iff_getElem.mp h.sorted
  rw [seqToken]
  split
  · have hring : seqRing = 64 := rfl
    simp only [getD_eq_getElem?_getD]
    rw [getElem?_eq_getElem (by omega), getElem?_eq_getElem (by omega)]
    exact hsorted seq _ (by omega) (by omega) (by omega)
  · exact le_rfl

/-- The wait for the token of the end report leaves no batch that writes the buffer. -/
lemma Sound.readResult (h : Sound s) {b : ℕ} {wait : Bool} (hctx : s.contexts[c]? = some ctx)
    (hq : ctx.queries[k]? = some q) (hb : q.begun = some b) (hactive : ¬ q.active)
    (hseq : q.flushSeq < ctx.flushSeq) : Sound (s.readResult ⟨c, k⟩ ctx q wait) := by
  have hown := h.tracked c ctx hctx
  have houtputs := h.outputs
  rw [Screen.readResult]
  split
  · exact { h with outputs := by grind [Output.Right] }
  obtain ⟨hgood, -, hwaiting⟩ := (hown.query k q b hq hb).closed hactive hseq
  have hle := hown.le_seqToken hseq
  have hview : (s.queue.settled exec).reports ⟨c, k⟩ =
      (s.queue.wait exec (ctx.seqToken q.flushSeq)).state.reports ⟨c, k⟩ := by
    rw [← Queue.settled_wait s.queue (ctx.seqToken q.flushSeq)]
    refine Queue.settled_view (fun ch : Channel => ch.reports ⟨c, k⟩) fun batch hbatch cmd hcmd ch => ?_
    obtain ⟨hold, hlater⟩ := Queue.mem_waiting_wait h.ordered hbatch
    cases cmd with
    | draw | setZpassPixelCount => rfl
    | report slot type index isEnd =>
      refine Function.update_of_ne ?_ _ _
      rintro rfl
      have := hwaiting batch hold _ hcmd rfl
      omega
  refine ⟨h.ordered.wait _, fun d other hd => (h.tracked d other hd).wait h.ordered _, ?_⟩
  refine forall_mem_append.mpr ⟨houtputs, forall_mem_singleton.mpr ?_⟩
  rw [Good, if_neg hactive, hview] at hgood
  congr 1
  grind

lemma step_sound {a : Action} (h : Sound s) (hmeets : Meets s a) (hstep : step s a = some s') :
    Sound s' := by
  unfold step at hstep
  cases a with
  | createQuery c type index =>
    refine h.update (fun ctx ctx' _ hbody ht => ?_) hstep
    cases hbody
    exact ht.createQuery
  | beginQuery slot | endQuery slot =>
    refine h.update (fun ctx ctx' _ hbody ht => ?_) hstep
    split at hbody
    · exact nomatch hbody
    · first | exact ht.beginQuery ‹_› hbody | exact ht.endQuery ‹_› hbody
  | setActiveQueryState c enable =>
    refine h.update (fun ctx ctx' _ hbody ht => ?_) hstep
    cases hbody
    exact ht.setActiveQueryState
  | draw c d =>
    refine h.update (fun ctx ctx' hctx hbody ht => ?_) hstep
    cases hbody
    exact ht.draw (hmeets ctx hctx)
  | flush c =>
    dsimp only at hstep
    split at hstep
    · exact nomatch hstep
    · cases hstep
      exact h.flush ‹_› (hmeets _ ‹_›)
  | getQueryResult slot wait =>
    obtain ⟨c, k⟩ := slot
    dsimp only at hstep
    split at hstep
    · exact nomatch hstep
    rename_i ctx hctx
    split at hstep
    · exact nomatch hstep
    rename_i q hq
    rw [getQueryResult] at hstep
    split_ifs at hstep with hbad hnow
    all_goals obtain ⟨hactive, hbegun⟩ := not_or.mp hbad
    all_goals obtain ⟨b, hb⟩ := Option.ne_none_iff_exists'.mp hbegun
    · dsimp only at hstep
      split at hstep
      · exact nomatch hstep
      rename_i ctx' hctx'
      cases hstep
      have hsame : ctx'.queries = ctx.queries ∧ ctx'.flushSeq = ctx.flushSeq + 1 := by
        simp only [flush] at hctx'
        split at hctx' <;> grind
      exact (h.flush hctx fun _ => hmeets ctx hctx q hq hnow).readResult hctx' (by rw [hsame.1]; exact hq) hb hactive (by omega)
    · cases hstep
      have := ((h.tracked c ctx hctx).query k q b hq hb).ended hactive
      exact h.readResult hctx hq hb hactive (by omega)
  | progress t =>
    cases hstep
    exact { h with
      ordered := h.ordered.wait t
      tracked := fun c ctx hctx => (h.tracked c ctx hctx).wait h.ordered t }

lemma new_sound (contexts : ℕ) : Sound (Screen.new contexts) := by
  refine ⟨⟨by simp [new], by simp [new], by simp [new], le_rfl⟩, ?_, by simp [new]⟩
  intro c ctx hctx
  obtain rfl : ctx = {} := eq_of_mem_replicate (mem_of_getElem? hctx)
  constructor <;> simp [new]

/-- If batches are submitted only while no other context is between the two reports of a query, and
nothing is drawn under an active primitive query while counting is suspended, then every answer of
`nvrm_get_query_result` is the count of the context's own draws. -/
theorem query_counts_own_work {contexts : ℕ} {actions : List Action} {s : Screen}
    (hmeets : Along step Meets (Screen.new contexts) actions)
    (hrun : run step (Screen.new contexts) actions = some s) :
    ∀ o ∈ s.outputs, o.Right :=
  (run_invariant_along (fun _ _ _ => step_sound) (new_sound contexts) hmeets hrun).outputs

def drawing (samples generated : ℕ) : Draw := ⟨samples, generated, fun _ => 0⟩

local instance neZeroFour : NeZero 4 := ⟨by decide⟩

/-- Two contexts that take turns: each ends and submits its query before the other submits. -/
def takingTurns : List Action :=
  [.createQuery 0 .occlusionCounter 0, .createQuery 1 .primitivesGenerated 0,
    .beginQuery ⟨0, 0⟩, .draw 0 (drawing 5 1), .flush 0, .beginQuery ⟨1, 0⟩, .draw 1 (drawing 7 3),
    .setActiveQueryState 0 false, .draw 0 (drawing 100 1), .setActiveQueryState 0 true,
    .draw 0 (drawing 2 1), .endQuery ⟨0, 0⟩, .getQueryResult ⟨0, 0⟩ false, .getQueryResult ⟨0, 0⟩ true,
    .endQuery ⟨1, 0⟩, .getQueryResult ⟨1, 0⟩ true]

theorem query_counts_own_work_in_turns : Along step Meets (Screen.new 2) takingTurns ∧
    ∃ s, run step (Screen.new 2) takingTurns = some s ∧
      s.outputs.map Output.result = [none, some (.count 7), some (.count 3)] ∧
      ∀ o ∈ s.outputs, o.Right := by
  have hmeets : Along step Meets (Screen.new 2) takingTurns := by decide +kernel
  have hview : (run step (new 2) takingTurns).map (fun s => s.outputs.map Output.result) =
      some [none, some (.count 7), some (.count 3)] := by decide +kernel
  obtain ⟨s, hrun, hview⟩ := exists_run_of_view hview
  exact ⟨hmeets, s, hrun, hview, query_counts_own_work hmeets hrun⟩

/-- Context 1 draws while the query of context 0 has its begin report submitted. -/
def sharedChannel : List Action :=
  [.createQuery 0 .occlusionCounter 0, .beginQuery ⟨0, 0⟩, .draw 0 (drawing 5 1), .flush 0,
    .draw 1 (drawing 7 1), .flush 1, .endQuery ⟨0, 0⟩, .getQueryResult ⟨0, 0⟩ true]

/-- The 7 samples of the other context are counted. -/
theorem query_counts_other_context : ∃ s, run step (Screen.new 2) sharedChannel = some s ∧
    s.outputs = [⟨.occlusionCounter, true, some (.count 12), 5⟩] ∧ ∃ o ∈ s.outputs, ¬ o.Right := by
  have hview : (run step (new 2) sharedChannel).map outputs =
      some [⟨.occlusionCounter, true, some (.count 12), 5⟩] := by decide +kernel
  obtain ⟨s, hrun, hview⟩ := exists_run_of_view hview
  exact ⟨s, hrun, hview, _, by rw [hview]; exact mem_singleton_self _, by simp only [Output.Right]; decide⟩

end NvidiaProlapse.Queries
