import NvidiaProlapse.Runs

/-!
# The Vulkan queue context

`rm_ctx_wait`, `rm_ctx_exec`, `rm_ctx_signal` and `rm_ctx_flush` of nvkmd_rm.c on a
context with a GPU channel. Pushes and waits are collected on the context and handed to
`nv_rm_submit_batch` in chunks. What the Rust side answers to each of its calls is given
with the context, oldest first.
-/
namespace NvidiaProlapse.QueueContext
open List

/-- `NvRmExec`, with its two flags. -/
structure Exec where
  address : ℕ
  size : ℕ
  noPrefetch : Bool
  incomplete : Bool
  deriving DecidableEq, Repr

/-- `NvRmSyncPoint`. -/
structure SyncPoint where
  sync : ℕ
  value : ℕ
  deriving DecidableEq, Repr

/-- `vk_sync_wait` and `vk_sync_signal`: the payload, its type, and the value. -/
structure SyncArg where
  sync : ℕ
  timeline : Bool
  native : Bool
  value : ℕ
  deriving DecidableEq, Repr

inductive VkResult where
  | success
  | unsupported (text : String)
  | outOfHostMemory
  | failed (status : ℤ) (text : String)
  deriving DecidableEq, Repr

/-- What one call of `nv_rm_submit_batch` returns; after `VK_NOT_READY` the status of
`nv_rm_wait` on the oldest batch follows. -/
inductive Answer where
  | queued (token : ℕ)
  | notReady (wait : Option ℤ)
  | failed (status : ℤ)
  deriving DecidableEq, Repr

/-- A batch the Rust side has accepted. -/
structure Batch where
  pushes : List Exec
  waits : List SyncPoint
  signals : List SyncPoint
  deriving DecidableEq, Repr

/-- `recorded` are the pushes that were appended, `waited` the waits and `signalled` the points
of the successful signals, each with the number of pushes recorded before it. -/
structure Context where
  answers : List Answer
  pending : List Exec := []
  waits : List SyncPoint := []
  lastToken : ℕ := 0
  accepted : List Batch := []
  recorded : List Exec := []
  waited : List (SyncPoint × ℕ) := []
  signalled : List (List SyncPoint × ℕ) := []
  deriving DecidableEq, Repr

/-- The `for (;;)` of `rm_ctx_submit`: ring pressure is waited out and the batch offered again.
When the answers are used up the device is lost. -/
def offer : List Answer → Except ℤ ℕ × List Answer
  | [] => (.error (-4), [])
  | .queued token :: rest => (.ok token, rest)
  | .failed status :: rest => (.error status, rest)
  | .notReady (some status) :: rest => (.error status, rest)
  | .notReady none :: rest => offer rest

def maxEntries : ℕ := 1000

/-- Step back from `count` while the last entry continues into the next one. -/
def shrink (pushes : List Exec) : ℕ → ℕ
  | 0 => 0
  | count + 1 =>
    if (pushes[count]?).any Exec.incomplete then shrink pushes count else count + 1

variable (pushes : List Exec)

/-- The number of entries the next chunk takes from the pushes that are left. -/
def cut : ℕ := shrink pushes (min pushes.length maxEntries)

/-- The first loop of `rm_ctx_flush_signals`; it runs at most once for each push. -/
def boundaries : ℕ → List Exec → Bool
  | 0, _ => true
  | n + 1, pushes =>
    if pushes = [] then true
    else if cut pushes = 0 then false
    else boundaries n (pushes.drop (cut pushes))

namespace Context

def submit (pushes : List Exec) (signals : List SyncPoint) (ctx : Context) : VkResult × Context :=
  match offer ctx.answers with
  | (.error status, rest) =>
    (.failed status "submit asynchronous work", { ctx with answers := rest })
  | (.ok token, rest) =>
    (.success, { ctx with
      answers := rest
      waits := []
      lastToken := token
      accepted := ctx.accepted ++ [⟨pushes, ctx.waits, signals⟩] })

/-- The second loop of `rm_ctx_flush_signals`. It returns the pushes that were not accepted. -/
def submitChunks (signals : List SyncPoint) :
    ℕ → List Exec → Context → VkResult × List Exec × Context
  | 0, pushes, ctx => (.success, pushes, ctx)
  | n + 1, pushes, ctx =>
    if pushes = [] then (.success, pushes, ctx)
    else
      match ctx.submit (pushes.take (cut pushes))
          (if cut pushes = pushes.length then signals else []) with
      | (.success, ctx) => submitChunks signals n (pushes.drop (cut pushes)) ctx
      | (result, ctx) => (result, pushes, ctx)

def flushSignals (signals : List SyncPoint) (ctx : Context) : VkResult × Context :=
  let pushes := ctx.pending
  if ¬ boundaries pushes.length pushes then
    (.unsupported "push continuation chain exceeding 1000 entries", ctx)
  else if pushes = [] then
    if signals ≠ [] ∨ ctx.waits ≠ [] then ctx.submit [] signals else (.success, ctx)
  else
    match ctx.submitChunks signals pushes.length pushes with
    | (result, rest, ctx) => (result, { ctx with pending := rest })

def flush (ctx : Context) : VkResult × Context := ctx.flushSignals []

/-- The loop of `rm_ctx_wait`: points are appended up to the first payload of another type. -/
def addWaits : List SyncArg → Context → VkResult × Context
  | [], ctx => (.success, ctx)
  | arg :: args, ctx =>
    if arg.timeline ∧ arg.value = 0 then addWaits args ctx
    else if ¬ arg.native then (.unsupported "non-RM synchronization payload", ctx)
    else addWaits args { ctx with
      waits := ctx.waits ++ [⟨arg.sync, arg.value⟩]
      waited := ctx.waited ++ [(⟨arg.sync, arg.value⟩, ctx.recorded.length)] }

def wait (args : List SyncArg) (ctx : Context) : VkResult × Context :=
  match if ctx.pending ≠ [] then ctx.flush else (.success, ctx) with
  | (.success, ctx) => ctx.addWaits args
  | (result, ctx) => (result, ctx)

/-- The range `rm_ctx_exec` accepts. -/
def validRange (exec : Exec) : Bool :=
  exec.address % 4 = 0 ∧ exec.size % 4 = 0 ∧ exec.size ≠ 0 ∧ exec.size < 2 ^ 23

def exec : List Exec → Context → VkResult × Context
  | [], ctx => (.success, ctx)
  | push :: pushes, ctx =>
    if ¬ validRange push then (.unsupported "invalid push range", ctx)
    else exec pushes { ctx with
      pending := ctx.pending ++ [push]
      recorded := ctx.recorded ++ [push] }

/-- `rm_ctx_signal`; `allocated` is whether its array of points could be allocated. -/
def signal (args : List SyncArg) (allocated : Bool) (ctx : Context) : VkResult × Context :=
  if args = [] then ctx.flush
  else if ¬ allocated then (.outOfHostMemory, ctx)
  else if args.any fun arg => !arg.native then
    (.unsupported "non-RM synchronization signal", ctx)
  else
    let points := args.map fun arg => ⟨arg.sync, arg.value⟩
    match ctx.flushSignals points with
    | (.success, ctx) =>
      (.success, { ctx with signalled := ctx.signalled ++ [(points, ctx.recorded.length)] })
    | (result, ctx) => (result, ctx)

end Context

inductive Call where
  | wait (args : List SyncArg)
  | exec (pushes : List Exec)
  | signal (args : List SyncArg) (allocated : Bool)
  | flush
  deriving DecidableEq, Repr

def Context.call (ctx : Context) : Call → VkResult × Context
  | .wait args => ctx.wait args
  | .exec pushes => ctx.exec pushes
  | .signal args allocated => ctx.signal args allocated
  | .flush => ctx.flush

def Context.step (ctx : Context) (call : Call) : Option Context := some (ctx.call call).2

/-- The pushes a call records: those before the first range it refuses. -/
def Call.recorded : Call → List Exec
  | .exec pushes => pushes.takeWhile Context.validRange
  | _ => []

/-- What the batches hold, batch by batch. `place` is told the number of pushes in the batches
before. -/
def located {α : Type} (place : ℕ → Batch → List α) : ℕ → List Batch → List α
  | _, [] => []
  | n, batch :: batches => place n batch ++ located place (n + batch.pushes.length) batches

/-- The waits of a batch, each with the number of pushes accepted in earlier batches. -/
def waitsOf (n : ℕ) (batch : Batch) : List (SyncPoint × ℕ) := batch.waits.map (·, n)

/-- The points a batch signals, with the number of pushes accepted up to and with it. -/
def signalsOf (n : ℕ) (batch : Batch) : List (List SyncPoint × ℕ) :=
  if batch.signals = [] then [] else [(batch.signals, n + batch.pushes.length)]

/-- A batch the channel may take: not too long and not broken off inside a continuation. -/
def Batch.Whole (batch : Batch) : Prop :=
  batch.pushes.length ≤ maxEntries ∧ ∀ last ∈ batch.pushes.getLast?, last.incomplete = false

lemma located_append {α : Type} (place : ℕ → Batch → List α) (n : ℕ) (batches : List Batch)
    (batch : Batch) :
    located place n (batches ++ [batch]) =
      located place n batches ++ place (n + (batches.flatMap Batch.pushes).length) batch := by
  induction batches generalizing n with
  | nil => simp [located]
  | cons first batches ih => simp [located, ih, Nat.add_assoc]

lemma shrink_le (count : ℕ) : shrink pushes count ≤ count := by
  induction count with
  | zero => rfl
  | succ count ih =>
    rw [shrink]
    split
    · omega
    · rfl

lemma cut_le : cut pushes ≤ min pushes.length maxEntries :=
  shrink_le _ _

/-- Where the shrinking stops, the entry before does not continue. -/
lemma shrink_complete (count : ℕ) (exec : Exec)
    (h : pushes[shrink pushes count - 1]? = some exec) (hpos : shrink pushes count ≠ 0) :
    exec.incomplete = false := by
  induction count with
  | zero => exact absurd rfl hpos
  | succ count ih =>
    by_cases hinc : (pushes[count]?).any Exec.incomplete
    · rw [shrink, if_pos hinc] at h hpos
      exact ih h hpos
    · rw [shrink, if_neg hinc, Nat.add_sub_cancel] at h
      simpa [h] using hinc

lemma whole_take_cut (waits signals : List SyncPoint) :
    Batch.Whole ⟨pushes.take (cut pushes), waits, signals⟩ := by
  have hle := cut_le pushes
  have hlen : (pushes.take (cut pushes)).length = cut pushes := by
    rw [length_take]
    omega
  refine ⟨by rw [hlen]; omega, ?_⟩
  intro last hlast
  have hlast : (pushes.take (cut pushes))[cut pushes - 1]? = some last := by
    have hget : (pushes.take (cut pushes)).getLast? = _ := getLast?_eq_getElem?
    rw [hlen] at hget
    exact hget.symm.trans hlast
  have hpos : cut pushes ≠ 0 := by
    intro h
    simp [h] at hlast
  rw [getElem?_take, if_pos (by omega)] at hlast
  exact shrink_complete pushes _ last hlast hpos

lemma whole_nil (waits signals : List SyncPoint) : Batch.Whole ⟨[], waits, signals⟩ :=
  ⟨Nat.zero_le _, fun _ h => nomatch h⟩

/-- The accepted batches against the calls. `pending` are the pushes that are still to be accepted
and `signalled` the signals whose points are with a batch. -/
structure Ordered (ctx : Context) (pending : List Exec)
    (signalled : List (List SyncPoint × ℕ)) : Prop where
  pushes : ctx.accepted.flatMap Batch.pushes ++ pending = ctx.recorded
  whole : ∀ batch ∈ ctx.accepted, batch.Whole
  waits : located waitsOf 0 ctx.accepted ++
    ctx.waits.map (·, (ctx.accepted.flatMap Batch.pushes).length) = ctx.waited
  signals : located signalsOf 0 ctx.accepted = signalled

/-- What every flush leaves as it is. -/
structure SameCalls (ctx ctx' : Context) : Prop where
  recorded : ctx'.recorded = ctx.recorded
  signalled : ctx'.signalled = ctx.signalled

namespace SameCalls

lemma rfl {ctx : Context} : SameCalls ctx ctx := ⟨Eq.refl _, Eq.refl _⟩

lemma trans {a b c : Context} (h : SameCalls a b) (h' : SameCalls b c) : SameCalls a c :=
  ⟨h'.recorded.trans h.recorded, h'.signalled.trans h.signalled⟩

end SameCalls

/-- The entry a successful signal leaves in the history. -/
def marked (signals : List SyncPoint) (n : ℕ) : List (List SyncPoint × ℕ) :=
  if signals = [] then [] else [(signals, n)]

lemma submit_cases (signals : List SyncPoint) (ctx : Context) :
    (∃ status answers, ctx.submit pushes signals =
        (.failed status "submit asynchronous work", { ctx with answers := answers })) ∨
      ∃ token answers, ctx.submit pushes signals = (.success, { ctx with
          answers := answers
          waits := []
          lastToken := token
          accepted := ctx.accepted ++ [⟨pushes, ctx.waits, signals⟩] }) := by
  rw [Context.submit]
  rcases offer ctx.answers with ⟨status | token, answers⟩
  · exact .inl ⟨status, answers, rfl⟩
  · exact .inr ⟨token, answers, rfl⟩

variable {ctx ctx' : Context} {result : VkResult} {signalled : List (List SyncPoint × ℕ)}
  {signals : List SyncPoint}

/-- A call of `submit`: an accepted batch takes the waits and the points with it, a refused one
changes nothing. -/
lemma submit_ordered {pushes rest : List Exec} (h : Ordered ctx (pushes ++ rest) signalled)
    (hwhole : Batch.Whole ⟨pushes, ctx.waits, signals⟩)
    (hsub : ctx.submit pushes signals = (result, ctx')) :
    SameCalls ctx ctx' ∧ ctx'.pending = ctx.pending ∧ (result = .success → Ordered ctx' rest
        (signalled ++ marked signals (ctx.recorded.length - rest.length))) ∧
      (result ≠ .success → Ordered ctx' (pushes ++ rest) signalled) := by
  rcases submit_cases pushes signals ctx with ⟨status, answers, heq⟩ | ⟨token, answers, heq⟩
  · cases heq.symm.trans hsub
    exact ⟨⟨rfl, rfl⟩, rfl, nofun, fun _ => { h with }⟩
  cases heq.symm.trans hsub
  refine ⟨⟨rfl, rfl⟩, rfl, fun _ => ?_, fun hne => absurd rfl hne⟩
  have hlen : (ctx.accepted.flatMap Batch.pushes).length + pushes.length =
      ctx.recorded.length - rest.length := by
    rw [← h.pushes]
    simp only [length_append]
    omega
  constructor
  · simpa using h.pushes
  · exact forall_mem_append.mpr ⟨h.whole, forall_mem_singleton.mpr hwhole⟩
  · show located waitsOf 0 (ctx.accepted ++ _) ++ [] = ctx.waited
    rw [located_append, append_nil, Nat.zero_add]
    exact h.waits
  · rw [located_append, h.signals, Nat.zero_add, ← hlen]
    rfl

/-- The loop over the chunks. The points go with the last of them, so a loop that stops early has
attached none; the validated boundaries let every chunk advance. -/
lemma submitChunks_ordered {n : ℕ} {pushes rest : List Exec} (h : Ordered ctx pushes signalled)
    (hne : pushes ≠ []) (hn : pushes.length ≤ n) (hcut : boundaries n pushes)
    (hrun : Context.submitChunks signals n pushes ctx = (result, rest, ctx')) : SameCalls ctx ctx' ∧
      (result = .success → rest = [] ∧
        Ordered ctx' [] (signalled ++ marked signals ctx.recorded.length)) ∧
      (result ≠ .success → Ordered ctx' rest signalled) := by
  induction n generalizing pushes ctx signalled with
  | zero => exact absurd (length_eq_zero_iff.mp (Nat.le_zero.mp hn)) hne
  | succ n ih =>
    have hpos : cut pushes ≠ 0 := by
      intro hzero
      simp [boundaries, hne, hzero] at hcut
    rw [boundaries, if_neg hne, if_neg hpos] at hcut
    rw [Context.submitChunks, if_neg hne] at hrun
    rw [← take_append_drop (cut pushes) pushes] at h
    rcases hsub : ctx.submit (pushes.take (cut pushes))
        (if cut pushes = pushes.length then signals else []) with ⟨answer, ctx₁⟩
    rw [hsub] at hrun
    obtain ⟨hsame, -, hok, hfail⟩ := submit_ordered h (whole_take_cut pushes _ _) hsub
    have hle := cut_le pushes
    by_cases hanswer : answer = .success
    · subst hanswer
      have hnext := hok rfl
      by_cases hlast : cut pushes = pushes.length
      · -- The final chunk: nothing is left and the loop ends.
        have hnil : pushes.drop (cut pushes) = [] := by rw [hlast, List.drop_length]
        rw [hnil, if_pos hlast, length_nil, Nat.sub_zero] at hnext
        have hstop : Context.submitChunks signals n (pushes.drop (cut pushes)) ctx₁ =
            (.success, [], ctx₁) := by
          rw [hnil]
          cases n <;> rfl
        cases hstop.symm.trans hrun
        exact ⟨hsame, fun _ => ⟨rfl, hnext⟩, fun hbad => absurd rfl hbad⟩
      · have hmore : pushes.drop (cut pushes) ≠ [] := by
          intro hnil
          have := drop_eq_nil_iff.mp hnil
          omega
        rw [if_neg hlast, marked, if_pos rfl, append_nil] at hnext
        have hshort : (pushes.drop (cut pushes)).length ≤ n := by
          rw [length_drop]
          omega
        obtain ⟨hsame', hok', hfail'⟩ := ih hnext hmore hshort hcut hrun
        rw [hsame.recorded] at hok'
        exact ⟨hsame.trans hsame', hok', hfail'⟩
    · have hkept := hfail hanswer
      rw [take_append_drop] at hkept
      have hstop : (answer, pushes, ctx₁) = (result, rest, ctx') := by
        cases answer with
        | success => exact absurd rfl hanswer
        | _ => exact hrun
      cases hstop
      exact ⟨hsame, fun hbad => absurd hbad hanswer, fun _ => hkept⟩

lemma flushSignals_ordered (h : Ordered ctx ctx.pending signalled)
    (hrun : ctx.flushSignals signals = (result, ctx')) : SameCalls ctx ctx' ∧
      (result = .success → ctx'.pending = [] ∧
        Ordered ctx' [] (signalled ++ marked signals ctx.recorded.length)) ∧
      (result ≠ .success → Ordered ctx' ctx'.pending signalled) := by
  by_cases hgood : boundaries ctx.pending.length ctx.pending
  · by_cases hnil : ctx.pending = []
    · by_cases hany : signals ≠ [] ∨ ctx.waits ≠ []
      · rw [Context.flushSignals, if_neg (by simpa using hgood), if_pos hnil, if_pos hany] at hrun
        rw [hnil] at h
        obtain ⟨hsame, hpending, hok, hfail⟩ := submit_ordered h (whole_nil _ _) hrun
        rw [hpending, hnil]
        exact ⟨hsame, fun hres => ⟨rfl, hok hres⟩, hfail⟩
      · rw [Context.flushSignals, if_neg (by simpa using hgood), if_pos hnil, if_neg hany] at hrun
        cases hrun
        obtain ⟨hnone, -⟩ := not_or.mp hany
        refine ⟨.rfl, fun _ => ⟨hnil, ?_⟩, fun hres => absurd rfl hres⟩
        rw [hnil] at h
        rwa [marked, if_pos (not_not.mp hnone), append_nil]
    · rw [Context.flushSignals, if_neg (by simpa using hgood), if_neg hnil] at hrun
      rcases hchunks : ctx.submitChunks signals ctx.pending.length ctx.pending with
        ⟨answer, rest, ctx₁⟩
      rw [hchunks] at hrun
      cases hrun
      obtain ⟨hsame, hok, hfail⟩ := submitChunks_ordered h hnil le_rfl hgood hchunks
      refine ⟨⟨hsame.recorded, hsame.signalled⟩, fun hres => ?_, fun hres => { hfail hres with }⟩
      obtain ⟨hrest, hnext⟩ := hok hres
      exact ⟨hrest, { hnext with }⟩
  · rw [Context.flushSignals, if_pos (by simpa using hgood)] at hrun
    cases hrun
    exact ⟨.rfl, nofun, fun _ => h⟩

lemma flush_ordered (h : Ordered ctx ctx.pending signalled) (hrun : ctx.flush = (result, ctx')) :
    SameCalls ctx ctx' ∧ (result = .success → ctx'.pending = []) ∧
      Ordered ctx' ctx'.pending signalled := by
  obtain ⟨hsame, hok, hfail⟩ := flushSignals_ordered h hrun
  refine ⟨hsame, fun hres => (hok hres).1, ?_⟩
  by_cases hres : result = .success
  · obtain ⟨hpending, hnext⟩ := hok hres
    rw [marked, if_pos rfl, append_nil] at hnext
    rwa [hpending]
  · exact hfail hres

/-- With nothing pending, a wait stands exactly before the next push. -/
lemma addWaits_ordered (args : List SyncArg) (h : Ordered ctx [] ctx.signalled) :
    Ordered (ctx.addWaits args).2 [] (ctx.addWaits args).2.signalled ∧
      (ctx.addWaits args).2.pending = ctx.pending ∧
      (ctx.addWaits args).2.recorded = ctx.recorded := by
  induction args generalizing ctx with
  | nil => exact ⟨h, rfl, rfl⟩
  | cons arg args ih =>
    rw [Context.addWaits]
    split
    · exact ih h
    split
    · exact ⟨h, rfl, rfl⟩
    refine ih { h with waits := ?_ }
    have hpushes := h.pushes
    rw [append_nil] at hpushes
    rw [map_append, ← append_assoc, h.waits, hpushes]
    rfl

section

variable (h : Ordered ctx ctx.pending ctx.signalled)

include h

lemma exec_ordered :
    Ordered (ctx.exec pushes).2 (ctx.exec pushes).2.pending (ctx.exec pushes).2.signalled ∧
      (ctx.exec pushes).2.recorded = ctx.recorded ++ pushes.takeWhile Context.validRange := by
  induction pushes generalizing ctx with
  | nil => exact ⟨h, (append_nil _).symm⟩
  | cons push pushes ih =>
    by_cases hvalid : Context.validRange push
    · rw [Context.exec, if_neg (by simpa using hvalid), takeWhile_cons_of_pos hvalid]
      have hnext : Ordered { ctx with pending := ctx.pending ++ [push], recorded := ctx.recorded ++ [push] }
          (ctx.pending ++ [push]) ctx.signalled := by
        refine { h with pushes := ?_ }
        rw [← append_assoc, h.pushes]
      obtain ⟨hord, hrec⟩ := ih hnext
      refine ⟨hord, hrec.trans ?_⟩
      simp
    · rw [Context.exec, if_pos (by simpa using hvalid), takeWhile_cons_of_neg hvalid]
      exact ⟨h, (append_nil _).symm⟩

lemma wait_ordered (args : List SyncArg) :
    Ordered (ctx.wait args).2 (ctx.wait args).2.pending (ctx.wait args).2.signalled ∧
      (ctx.wait args).2.recorded = ctx.recorded := by
  have hadd {ctx : Context} (h : Ordered ctx ctx.pending ctx.signalled) (hnil : ctx.pending = []) :
      Ordered (ctx.addWaits args).2 (ctx.addWaits args).2.pending (ctx.addWaits args).2.signalled ∧
        (ctx.addWaits args).2.recorded = ctx.recorded := by
    rw [hnil] at h
    obtain ⟨hord, hpending, hrec⟩ := addWaits_ordered args h
    rw [hpending, hnil]
    exact ⟨hord, hrec⟩
  rw [Context.wait]
  by_cases hnil : ctx.pending = []
  · rw [if_neg (not_not.mpr hnil)]
    exact hadd h hnil
  rw [if_pos hnil]
  rcases hflush : ctx.flush with ⟨result, ctx₁⟩
  obtain ⟨hsame, hok, hord⟩ := flush_ordered h hflush
  rw [← hsame.signalled] at hord
  cases result with
  | success =>
    rw [← hsame.recorded]
    exact hadd hord (hok rfl)
  | _ => exact ⟨hord, hsame.recorded⟩

lemma signal_ordered (args : List SyncArg) (allocated : Bool) :
    Ordered (ctx.signal args allocated).2 (ctx.signal args allocated).2.pending
        (ctx.signal args allocated).2.signalled ∧
      (ctx.signal args allocated).2.recorded = ctx.recorded := by
  rw [Context.signal]
  split
  · obtain ⟨hsame, -, hord⟩ := flush_ordered h (Prod.eta ctx.flush).symm
    rw [← hsame.signalled] at hord
    exact ⟨hord, hsame.recorded⟩
  rename_i hargs
  split
  · exact ⟨h, rfl⟩
  split
  · exact ⟨h, rfl⟩
  rcases hflush : ctx.flushSignals (args.map fun arg => ⟨arg.sync, arg.value⟩) with
    ⟨result, ctx₁⟩
  obtain ⟨hsame, hok, hfail⟩ := flushSignals_ordered h hflush
  simp only [hflush]
  cases result with
  | success =>
    obtain ⟨hpending, hord⟩ := hok rfl
    rw [marked, if_neg (by simpa using hargs), ← hsame.recorded, ← hsame.signalled] at hord
    refine ⟨?_, hsame.recorded⟩
    rw [hpending]
    exact { hord with }
  | _ =>
    have hord := hfail nofun
    rw [← hsame.signalled] at hord
    exact ⟨hord, hsame.recorded⟩

lemma call_ordered (call : Call) :
    Ordered (ctx.call call).2 (ctx.call call).2.pending (ctx.call call).2.signalled ∧
      (ctx.call call).2.recorded = ctx.recorded ++ call.recorded := by
  cases call with
  | wait args =>
    obtain ⟨hord, hrec⟩ := wait_ordered h args
    exact ⟨hord, hrec.trans (append_nil _).symm⟩
  | exec pushes => exact exec_ordered pushes h
  | signal args allocated =>
    obtain ⟨hord, hrec⟩ := signal_ordered h args allocated
    exact ⟨hord, hrec.trans (append_nil _).symm⟩
  | flush =>
    obtain ⟨hsame, -, hord⟩ := flush_ordered h (Prod.eta ctx.flush).symm
    rw [← hsame.signalled] at hord
    exact ⟨hord, hsame.recorded.trans (append_nil _).symm⟩

/-- A run records the pushes of its calls, in the order of the calls. -/
lemma run_ordered {calls : List Call} (hrun : Runs.run Context.step ctx calls = some ctx') :
    Ordered ctx' ctx'.pending ctx'.signalled ∧
      ctx'.recorded = ctx.recorded ++ calls.flatMap Call.recorded := by
  induction calls generalizing ctx with
  | nil =>
    cases hrun
    exact ⟨h, (append_nil _).symm⟩
  | cons call calls ih =>
    obtain ⟨ctx₁, hcall, hrest⟩ := Runs.run_cons_eq_some.mp hrun
    cases hcall
    obtain ⟨hord, hrec⟩ := call_ordered h call
    obtain ⟨hfinal, hrecorded⟩ := ih hord hrest
    refine ⟨hfinal, hrecorded.trans ?_⟩
    rw [hrec, flatMap_cons, append_assoc]

end

/-- Program order through chunked submission, whatever the calls and whatever the Rust side
answers: the accepted batches and the pending list are the recorded pushes in order; every batch is
whole; every wait that was added is with exactly one batch or still on the context, and the
pushes of earlier batches are exactly those recorded before the wait; the points of the successful
signals are with one batch each, and the pushes up to that batch are those recorded before the
signal. -/
theorem program_order (answers : List Answer) (calls : List Call) :
    ∃ ctx, Runs.run Context.step { answers := answers } calls = some ctx ∧
      ctx.accepted.flatMap Batch.pushes ++ ctx.pending = calls.flatMap Call.recorded ∧
      (∀ batch ∈ ctx.accepted, batch.Whole) ∧
      located waitsOf 0 ctx.accepted ++
        ctx.waits.map (·, (ctx.accepted.flatMap Batch.pushes).length) = ctx.waited ∧
      located signalsOf 0 ctx.accepted = ctx.signalled := by
  have hstart : Ordered { answers := answers } [] [] := ⟨rfl, nofun, rfl, rfl⟩
  have hrun := Runs.run_total (fun ctx call => (Context.call ctx call).2) { answers := answers } calls
  obtain ⟨h, hrec⟩ := run_ordered hstart hrun
  exact ⟨_, hrun, h.pushes.trans hrec, h.whole, h.waits, h.signals⟩

/-- A push of 64 bytes, and one that is not aligned. -/
def aligned (address : ℕ) : Exec := ⟨address, 64, false, false⟩
def misaligned : Exec := ⟨2, 64, false, false⟩

/-- `rm_ctx_exec` that is refused at its second push keeps the first and drops the third, and
`rm_ctx_wait` for value 0 of a timeline adds nothing to the batch that follows. -/
theorem refused_exec_and_zero_wait :
    (∃ ctx, Runs.run Context.step { answers := [] } [.exec [aligned 0, misaligned, aligned 64]] = some ctx ∧
      ctx.accepted.flatMap Batch.pushes ++ ctx.pending ≠ [aligned 0, misaligned, aligned 64]) ∧
    (∃ ctx, Runs.run Context.step { answers := [.queued 1] }
        [.wait [⟨7, true, true, 0⟩], .exec [aligned 0], .flush] = some ctx ∧
      ctx.accepted = [⟨[aligned 0], [], []⟩] ∧ ctx.waits = []) :=
  ⟨⟨_, rfl, by decide⟩, ⟨_, rfl, by decide, rfl⟩⟩

end NvidiaProlapse.QueueContext
