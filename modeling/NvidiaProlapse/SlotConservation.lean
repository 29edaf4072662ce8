import NvidiaProlapse.CallAccounts

/-!
# Slot references over whole runs

In every state of a run the reference count of a slot is the number of its owners,
as long as no call loses a slot. Three calls can: a reset of a timeline payload whose
slot somebody else references, too, a submission that stops between the two
allocations of a wait for a foreign payload, and an accepted one whose host listener
cannot be started.
-/
namespace NvidiaProlapse.Bridge
open Programs Gpfifo Runs

/-- Native payloads, shared points and sources, gate registrations, held slots of
unretired batches and retirement words. -/
def owners (b : Bridge) : Multiset Slot := b.core.owners + b.slots

/-- References are owned; a slot is free exactly once while it has no owner. -/
structure Conserved (b : Bridge) : Prop where
  refs : ∀ slot, b.core.pool.refs slot = b.owners.count slot
  free : ∀ slot, b.core.pool.Installed slot → slot ∉ b.owners → b.core.pool.free.count slot = 1
  busy : ∀ slot ∈ b.owners, slot ∉ b.core.pool.free

lemma conserved_of_accounted {b : Bridge} (h : b.core.Accounted (b.slots + 0)) : Conserved b := by
  have hbalanced : b.core.pool.Balanced b.owners := by
    have hcore := h.balanced
    rwa [add_zero] at hcore
  refine ⟨hbalanced.count, ?_, ?_⟩
  · intro slot hinstalled howner
    exact List.count_eq_one_of_mem hbalanced.nodup ((hbalanced.mem_free slot).mpr ⟨hinstalled, howner⟩)
  · intro slot howner hfree
    exact ((hbalanced.mem_free slot).mp hfree).2 howner

/-- No property of the handles is followed. -/
def anything (_ : Core) : Prop := True

lemma anything_lasting : Lasting anything anything :=
  ⟨fun _ _ _ _ => trivial, fun _ _ => trivial, fun _ _ _ _ _ _ _ => trivial, fun _ _ _ _ _ _ => trivial⟩

lemma anything_kept {α : Type} (p : Prog Core Error α) (s : Core) :
    Ends s p anything :=
  fun _ _ => ⟨fun _ _ _ => trivial, fun _ _ _ => trivial⟩

variable {host : Host} {view : TimelineView} {b c : Bridge} {calls : List Call}

lemma empty_accounted (view : TimelineView) : (Core.empty view).Accounted 0 where
  balanced := SlotPool.new_balanced view
  handles := by simp [Core.empty]
  opened := rfl

lemma opened_accounted {kernel : Kernel} (hopen : opened kernel view = .ok b) :
    b.core.Accounted (b.slots + 0) := by
  have hgrow : Yields (Bridge.empty view = ·) (onCore (Core.grow kernel))
      fun _ c => c.core.Accounted (c.slots + 0) := by
    apply Spec.of_focus
    rintro _ rfl
    exact (Core.grow_grown (empty_accounted view)).post (fun _ _ h => h.1) fun _ _ _ => trivial
  unfold opened at hopen
  split at hopen
  · next hrun =>
    cases hopen
    exact (hgrow _ rfl).1 _ _ hrun
  · cases hopen

lemma step_short {base track : Core → Prop} {call : Call} {lost : Multiset Slot}
    (hlasting : Lasting base track) (hb : Tracked track lost b)
    (hhandle : Ends b.core (handlePart host call) track)
    (hstep : step host b call = some c) : Short track lost (CallLeaks host b call) c := by
  obtain ⟨h1, h2⟩ := perform_short hlasting hb hhandle b rfl
  simp only [step, Option.some.injEq] at hstep
  rcases hrun : exec (perform host call) b with ⟨result, d⟩
  rw [hrun] at hstep
  subst hstep
  cases result with
  | ok a => exact h1 a _ hrun
  | error e => exact h2 e _ hrun

/-- Every owner has its reference, whatever was lost. -/
def Backed (b : Bridge) : Prop := ∃ lost, b.core.Accounted (b.slots + lost)

lemma step_backed (hb : Backed b) {call : Call} (hstep : step host b call = some c) : Backed c := by
  obtain ⟨lost, hb⟩ := hb
  obtain ⟨more, -, hc⟩ := step_short anything_lasting ⟨hb, trivial⟩ (anything_kept _ _) hstep
  exact ⟨more + lost, hc.accounted⟩

lemma run_backed (hopen : opened host.kernel view = .ok b)
    (hrun : run (step host) b calls = some c) : Backed c :=
  run_invariant (fun _ _ _ hs hstep => step_backed hs hstep) ⟨0, opened_accounted hopen⟩ hrun

lemma step_accounted (hb : b.core.Accounted (b.slots + 0)) {call : Call}
    (hcall : ¬ CallLeaks host b call) (hstep : step host b call = some c) :
    c.core.Accounted (c.slots + 0) := by
  obtain ⟨lost, hlost, hc⟩ := step_short anything_lasting ⟨hb, trivial⟩ (anything_kept _ _) hstep
  have hnone : lost = 0 := by
    by_contra hne
    exact hcall (hlost hne)
  rw [hnone, zero_add] at hc
  exact hc.accounted

/-- References are conserved along every run in which no call loses a slot. -/
theorem slot_references_conserved (hopen : opened host.kernel view = .ok b)
    (hkeep : Along (step host) (fun b call => ¬ CallLeaks host b call) b calls)
    (hrun : run (step host) b calls = some c) : Conserved c := by
  have haccounted : c.core.Accounted (c.slots + 0) :=
    run_invariant_along (fun _ _ _ hs hcall hstep => step_accounted hs hcall hstep)
      (opened_accounted hopen) hkeep hrun
  exact conserved_of_accounted haccounted

lemma along_cons {guard : Bridge → Call → Prop} {call : Call} (hcall : guard b call)
    (hrest : Along (step host) guard (exec (perform host call) b).2 calls) :
    Along (step host) guard b (call :: calls) := by
  refine ⟨hcall, ?_⟩
  intro s hs
  rw [← Option.some.inj hs]
  exact hrest

/-! ## Runs of a quiet device -/

/-- Every request is served, pages are mapped one after the other and sync_files
stay pending. -/
def quietKernel : Kernel where
  page := fun n => .ok (4096 * (n + 1), 4096 * (n + 1))
  status := fun _ => .ok 0
  completion := fun _ => .ok 1000
  serve := fun _ => .ok ()

def quietHost : Host := ⟨quietKernel, fun _ _ => .ok ⟨8, 8, 8, 0, 0⟩, true, 0⟩

def quietBridge : Bridge := (exec (onCore (Core.grow quietKernel)) (.empty .native64)).2

def afterCalls (b : Bridge) (calls : List Call) : Bridge :=
  calls.foldl (fun b call => (exec (perform quietHost call) b).2) b

lemma run_afterCalls (b : Bridge) (calls : List Call) :
    run (step quietHost) b calls = some (afterCalls b calls) := by
  induction calls generalizing b with
  | nil => rfl
  | cons call calls ih => exact ih _

/-- The actions that a batch was planned with. -/
def plannedActions : Result (Result SubmitStatus × Scratch) → List BatchAction
  | .ok (_, scratch) => scratch.actions
  | .error _ => []

/-- A payload is signalled by a batch, moved to another handle and reset there. -/
def signalAndMove : List Call :=
  [.syncCreate false 0, .syncCreate false 0, .createContext none,
    .submit false 1 [] [] [] [⟨1, 0⟩], .syncMove 2 1, .syncReset 2]

theorem slot_references_conserved_moved : Conserved (afterCalls quietBridge signalAndMove) := by
  refine @slot_references_conserved quietHost .native64 quietBridge _ signalAndMove rfl ?_
    (run_afterCalls _ _)
  refine along_cons (fun h => h) (along_cons (fun h => h) (along_cons (fun h => h) (along_cons ?_
    (along_cons (fun h => h) (along_cons ?_ trivial)))))
  · rintro (hstrands | hloses)
    · obtain ⟨ready, -, -, before, point, after, -, -, hwaits, -⟩ := hstrands
      simp at hwaits
    obtain ⟨ready, token, scratch, accepted, hready, hlocked, before, action, after, d, hactions, -,
      hgate⟩ := hloses
    obtain rfl := congrArg Prod.snd hready
    have hplanned : plannedActions _ = scratch.actions :=
      congrArg (fun out => plannedActions out.1) hlocked
    have hsignal : scratch.actions = [.signal 1 0 0] := by
      rw [← hplanned]
      decide +kernel
    have hmem : action ∈ scratch.actions := by simp [hactions]
    rw [hsignal, List.mem_singleton] at hmem
    rw [hmem] at hgate
    exact hgate
  · rintro ⟨sync, hsync, htimeline, -⟩
    have hany := (congrArg (fun found => found.toOption.any SyncObj.timeline) hsync).trans htimeline
    exact absurd hany (by decide +kernel)

/-- A timeline payload is signalled by a batch and then reset. -/
def capturedReset : List Call :=
  [.syncCreate true 0, .createContext none, .submit false 1 [] [] [] [⟨1, 5⟩], .syncReset 1]

/-- The slot allocated for the reset keeps its reference and has no owner. -/
theorem captured_reset_loses_slot :
    ∃ b c, opened quietHost.kernel .native64 = .ok b ∧
      run (step quietHost) b capturedReset = some c ∧ ¬ Conserved c := by
  refine ⟨quietBridge, afterCalls quietBridge capturedReset, rfl, run_afterCalls _ _, ?_⟩
  intro h
  exact absurd (h.refs 2) (by decide +kernel)

end NvidiaProlapse.Bridge
