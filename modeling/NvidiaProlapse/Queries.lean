import NvidiaProlapse.Runs
import NvidiaProlapse.BatchQueue

/-!
# Queries on a shared channel

Occlusion and primitive queries (nvrm_query.c). A query is the difference of two reports of a
counter of the channel, which all contexts of the screen share: the counters run on under
whatever draws execute, and whether samples are counted is a switch of the channel. A
context's own sequence number tells which of its flushes submitted a report.
-/
namespace NvidiaProlapse.Queries
open BatchQueue

/-- `NVRM_SEQ_RING`. -/
def seqRing : ℕ := 64

inductive QueryType where
  | occlusionCounter
  | occlusionPredicate
  | occlusionPredicateConservative
  | primitivesGenerated
  | primitivesEmitted
  deriving DecidableEq, Repr

/-- `nvrm_is_occlusion`. -/
def QueryType.isOcclusion : QueryType → Bool
  | .occlusionCounter | .occlusionPredicate | .occlusionPredicateConservative => true
  | .primitivesGenerated | .primitivesEmitted => false

/-- What a draw produces: samples that pass, primitives, and primitives captured on each stream. -/
structure Draw where
  samples : ℕ
  generated : ℕ
  emitted : Fin 4 → ℕ
  deriving DecidableEq

/-- The buffer of a query: the context that created it and its number there. -/
structure Slot where
  context : ℕ
  query : ℕ
  deriving DecidableEq, Repr

inductive Command where
  | draw (d : Draw)
  | setZpassPixelCount (enable : Bool)
  | report (slot : Slot) (type : QueryType) (index : Fin 4) (isEnd : Bool)
  deriving DecidableEq

/-- `reports` holds the end and the begin report of each query buffer. -/
structure Channel where
  zpassEnabled : Bool := false
  zpass : ℕ := 0
  generated : ℕ := 0
  emitted : Fin 4 → ℕ := fun _ => 0
  reports : Slot → UInt64 × UInt64 := fun _ => (0, 0)

def Channel.counter (ch : Channel) : QueryType → Fin 4 → ℕ
  | .primitivesGenerated, _ => ch.generated
  | .primitivesEmitted, index => ch.emitted index
  | _, _ => ch.zpass

def exec (ch : Channel) : Command → Channel
  | .draw d => { ch with
      zpass := if ch.zpassEnabled then ch.zpass + d.samples else ch.zpass
      generated := ch.generated + d.generated
      emitted := fun index => ch.emitted index + d.emitted index }
  | .setZpassPixelCount enable => { ch with zpassEnabled := enable }
  | .report slot type index isEnd =>
    let value := UInt64.ofNat (ch.counter type index)
    let report := if isEnd then (value, (ch.reports slot).2) else ((ch.reports slot).1, value)
    { ch with reports := Function.update ch.reports slot report }

/-- The query buffer a command writes. -/
def Command.target : Command → Option Slot
  | .report slot _ _ _ => some slot
  | _ => none

/-- `begun` is the sequence number of the begin report, `count` what the query is to count: both are
histories. -/
structure Query where
  type : QueryType
  index : Fin 4
  active : Bool := false
  flushSeq : ℕ := 0
  begun : Option ℕ := none
  count : ℕ := 0
  deriving DecidableEq, Repr

/-- `recording` is the batch that is being recorded; `seqTokens` has the token of every flush so far,
of which the code keeps the last `seqRing`. -/
structure Context where
  queriesEnabled : Bool := true
  occlusionQuery : Option ℕ := none
  recording : List Command := []
  flushSeq : ℕ := 0
  lastToken : ℕ := 0
  seqTokens : List ℕ := []
  queries : List Query := []
  deriving DecidableEq

inductive Result where
  | passed (b : Bool)
  | count (n : UInt64)
  deriving DecidableEq, Repr

/-- What `nvrm_get_query_result` returned for a query that was to count `count`. -/
structure Output where
  type : QueryType
  wait : Bool
  result : Option Result
  count : ℕ
  deriving DecidableEq, Repr

structure Screen where
  contexts : List Context
  queue : Queue Command Channel
  outputs : List Output := []

namespace Context

variable (ctx : Context)

/-- `nvrm_query_report`. -/
def queryReport (slot : Slot) (q : Query) (isEnd : Bool) : List Command :=
  if q.type.isOcclusion then
    [.setZpassPixelCount (!isEnd && ctx.queriesEnabled), .report slot q.type q.index isEnd]
  else [.report slot q.type q.index isEnd]

def record (commands : List Command) : Context :=
  { ctx with recording := ctx.recording ++ commands }

/-- `nvrm_begin_query`; a second occlusion query aborts. -/
def beginQuery (slot : Slot) (q : Query) : Option Context :=
  if q.type.isOcclusion ∧ ctx.occlusionQuery ≠ none then none
  else
    let next := ctx.record (ctx.queryReport slot q false)
    some { next with
      occlusionQuery := if q.type.isOcclusion then some slot.query else ctx.occlusionQuery
      queries := ctx.queries.set slot.query
        { q with active := true, begun := some ctx.flushSeq, count := 0 } }

/-- `nvrm_end_query`. -/
def endQuery (slot : Slot) (q : Query) : Option Context :=
  if ¬ q.active then none
  else
    let next := ctx.record (ctx.queryReport slot q true)
    some { next with
      occlusionQuery := if ctx.occlusionQuery = some slot.query then none else ctx.occlusionQuery
      queries := ctx.queries.set slot.query { q with active := false, flushSeq := ctx.flushSeq } }

/-- `nvrm_set_active_query_state`. -/
def setActiveQueryState (enable : Bool) : Context :=
  let next := { ctx with queriesEnabled := enable }
  if ctx.occlusionQuery = none then next else next.record [.setZpassPixelCount enable]

/-- What a draw adds to a query of its context that is not suspended. -/
def share (d : Draw) : QueryType → Fin 4 → ℕ
  | .primitivesGenerated, _ => d.generated
  | .primitivesEmitted, index => d.emitted index
  | _, _ => d.samples

def tally (d : Draw) (q : Query) : Query :=
  if q.active ∧ ctx.queriesEnabled then { q with count := q.count + share d q.type q.index } else q

def draw (d : Draw) : Context :=
  { ctx.record [.draw d] with queries := ctx.queries.map (ctx.tally d) }

/-- `nvrm_seq_token`. -/
def seqToken (seq : ℕ) : ℕ :=
  ctx.seqTokens.getD (if seq + seqRing < ctx.flushSeq then ctx.flushSeq - seqRing else seq) 0

end Context

namespace Screen

/-- `nvrm_flush` of a context: an empty batch is not submitted, but the flush is numbered. -/
def flush (s : Screen) (c : ℕ) (ctx : Context) : Screen :=
  if ctx.recording = [] then
    { s with contexts := s.contexts.set c { ctx with
        seqTokens := ctx.seqTokens ++ [ctx.lastToken]
        flushSeq := ctx.flushSeq + 1 } }
  else
    { s with
      queue := s.queue.submit ctx.recording
      contexts := s.contexts.set c { ctx with
        recording := []
        lastToken := s.queue.issued + 1
        seqTokens := ctx.seqTokens ++ [s.queue.issued + 1]
        flushSeq := ctx.flushSeq + 1 } }

/-- The value `nvrm_get_query_result` makes of the two reports. -/
def decode (type : QueryType) (diff : UInt64) : Result :=
  match type with
  | .occlusionPredicate | .occlusionPredicateConservative => .passed (diff ≠ 0)
  | _ => .count diff

/-- The second part of `nvrm_get_query_result`, after the flush of an unsubmitted report. -/
def readResult (s : Screen) (slot : Slot) (ctx : Context) (q : Query) (wait : Bool) : Screen :=
  let token := ctx.seqToken q.flushSeq
  if ¬ wait ∧ s.queue.done < token then
    { s with outputs := s.outputs ++ [⟨q.type, wait, none, q.count⟩] }
  else
    let queue := s.queue.wait exec token
    let reports := queue.state.reports slot
    { s with
      queue := queue
      outputs := s.outputs ++ [⟨q.type, wait, some (decode q.type (reports.1 - reports.2)), q.count⟩] }

def getQueryResult (s : Screen) (slot : Slot) (ctx : Context) (q : Query) (wait : Bool) :
    Option Screen :=
  if q.active ∨ q.begun = none then none
  else if q.flushSeq = ctx.flushSeq then
    let s := s.flush slot.context ctx
    match s.contexts[slot.context]? with
    | none => none
    | some ctx => some (s.readResult slot ctx q wait)
  else some (s.readResult slot ctx q wait)

def new (contexts : ℕ) : Screen where
  contexts := List.replicate contexts {}
  queue := { state := {} }

end Screen

/-- `progress` lets the channel run up to a token. -/
inductive Action where
  | createQuery (c : ℕ) (type : QueryType) (index : Fin 4)
  | beginQuery (slot : Slot)
  | endQuery (slot : Slot)
  | setActiveQueryState (c : ℕ) (enable : Bool)
  | draw (c : ℕ) (d : Draw)
  | flush (c : ℕ)
  | getQueryResult (slot : Slot) (wait : Bool)
  | progress (t : ℕ)
  deriving DecidableEq

namespace Screen

/-- A context of the screen records. -/
def update (s : Screen) (c : ℕ) (body : Context → Option Context) : Option Screen :=
  match s.contexts[c]? with
  | none => none
  | some ctx =>
    match body ctx with
    | none => none
    | some ctx' => some { s with contexts := s.contexts.set c ctx' }

/-- A context of the screen records for one of its queries. -/
def updateQuery (s : Screen) (slot : Slot) (body : Context → Query → Option Context) :
    Option Screen :=
  s.update slot.context fun ctx =>
    match ctx.queries[slot.query]? with
    | none => none
    | some q => body ctx q

end Screen

def step (s : Screen) : Action → Option Screen
  | .createQuery c type index => s.update c fun ctx =>
      some { ctx with queries := ctx.queries ++ [⟨type, index, false, 0, none, 0⟩] }
  | .beginQuery slot => s.updateQuery slot fun ctx q => ctx.beginQuery slot q
  | .endQuery slot => s.updateQuery slot fun ctx q => ctx.endQuery slot q
  | .setActiveQueryState c enable => s.update c fun ctx => some (ctx.setActiveQueryState enable)
  | .draw c d => s.update c fun ctx => some (ctx.draw d)
  | .flush c =>
    match s.contexts[c]? with
    | none => none
    | some ctx => some (s.flush c ctx)
  | .getQueryResult slot wait =>
    match s.contexts[slot.context]? with
    | none => none
    | some ctx =>
      match ctx.queries[slot.query]? with
      | none => none
      | some q => s.getQueryResult slot ctx q wait
  | .progress t => some { s with queue := s.queue.wait exec t }

/-- The begin report is submitted and the end report is not. -/
def Query.Straddles (q : Query) (flushSeq : ℕ) : Prop :=
  (q.begun.any fun b => decide (b < flushSeq)) ∧ (q.active ∨ q.flushSeq = flushSeq)

instance (q : Query) (flushSeq : ℕ) : Decidable (q.Straddles flushSeq) :=
  inferInstanceAs (Decidable (_ ∧ _))

/-- No other context has a query with one report submitted. -/
def Screen.Alone (s : Screen) (c : ℕ) : Prop :=
  ∀ ctx ∈ s.contexts.eraseIdx c, ∀ q ∈ ctx.queries, ¬ q.Straddles ctx.flushSeq

instance (s : Screen) (c : ℕ) : Decidable (s.Alone c) :=
  inferInstanceAs (Decidable (∀ ctx ∈ s.contexts.eraseIdx c, ∀ q ∈ ctx.queries, _))

/-- A batch is submitted only while no other context is between its two reports, and draws with counting
suspended are made only while no primitive query of the context is active. -/
def Meets (s : Screen) : Action → Prop
  | .flush c => ∀ ctx ∈ s.contexts[c]?, ctx.recording ≠ [] → s.Alone c
  | .getQueryResult slot _ => ∀ ctx ∈ s.contexts[slot.context]?, ∀ q ∈ ctx.queries[slot.query]?,
      q.flushSeq = ctx.flushSeq → s.Alone slot.context
  | .draw c _ => ∀ ctx ∈ s.contexts[c]?, ctx.queriesEnabled ∨
      ∀ q ∈ ctx.queries, q.active → q.type.isOcclusion
  | _ => True

instance (s : Screen) (a : Action) : Decidable (Meets s a) :=
  match a with
  | .flush c => inferInstanceAs (Decidable (∀ ctx ∈ s.contexts[c]?, _))
  | .getQueryResult slot _ => inferInstanceAs (Decidable (∀ ctx ∈ s.contexts[slot.context]?, _))
  | .draw c _ => inferInstanceAs (Decidable (∀ ctx ∈ s.contexts[c]?, _))
  | .createQuery .. | .beginQuery _ | .endQuery _ | .setActiveQueryState .. | .progress _ =>
    .isTrue trivial

end NvidiaProlapse.Queries
