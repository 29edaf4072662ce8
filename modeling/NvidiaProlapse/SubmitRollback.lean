import NvidiaProlapse.SlotConservation

/-!
# A submission that is not accepted

A batch may stop at any allocation, in the plan of any of its payloads, at a full
ring or at an error of the queue. Handles are then as they were. References are, too,
apart from those given up by owners other than handles: shared payloads whose points
completed, retired batches of the queue, and the registrations of a lost device.
-/
namespace NvidiaProlapse.Bridge
open Programs Gpfifo Runs

/-- The owners of slots that are not handles. -/
def recorded (b : Bridge) : Multiset Slot := b.core.sharedSlots + b.core.gateSlots + b.slots

variable {host : Host} {view : TimelineView} {b c d : Bridge} {calls : List Call}

/-- Two states with the same handles and the same lost slots differ in their counts
as the recorded owners differ. -/
lemma refs_add_recorded {lost : Multiset Slot} (hb : b.core.Accounted (b.slots + lost))
    (hc : c.core.Accounted (c.slots + lost)) (hsyncs : c.core.syncs = b.core.syncs) (slot : Slot) :
    c.core.pool.refs slot + b.recorded.count slot =
      b.core.pool.refs slot + c.recorded.count slot := by
  have hpayload : c.core.payloadSlots = b.core.payloadSlots := by
    unfold Core.payloadSlots
    rw [hsyncs]
  have hbefore := hb.balanced.count slot
  have hafter := hc.balanced.count slot
  unfold recorded
  simp only [Core.owners, Multiset.count_add] at hbefore hafter ⊢
  rw [hbefore, hafter, hpayload]
  omega

lemma submit_rolledBack {scan : Bool} {context : ℕ} {pushes : List Push}
    {waits signals : List SyncPoint} {foreign : List ℕ} {result : Result SubmitStatus}
    {lost : Multiset Slot} (hb : b.core.Accounted (b.slots + lost))
    (hsubmit : exec (submit host.kernel host.encode scan context pushes waits foreign signals) b =
      (result, c))
    (hrefused : ∀ token, result ≠ .ok (.submitted token)) :
    RolledBack b context lost (SubmitStrands host.kernel scan context waits foreign b)
      ((exec (preflight host.kernel scan) b).2.batch host.kernel waits foreign signals) c := by
  obtain ⟨hok, herror⟩ := submit_settlement anything_lasting ⟨hb, trivial⟩ b rfl
  rcases result with e | (token | oldest)
  · exact herror e c hsubmit
  · exact absurd rfl (hrefused token)
  · exact hok (.full oldest) c hsubmit

/-- One of as many pushes as a batch may have. -/
def longPushes : List Push := List.replicate 1000 ⟨4096, 4, 0⟩

/-- A payload is signalled by the first batch, a second one takes nearly all of the
ring, and the first one retires. -/
def beforeFull : List Call :=
  [.syncCreate false 0, .createContext none, .submit false 1 [] [] [] [⟨1, 0⟩],
    .submit false 1 longPushes [] [] [], .gpuWrite64 1 1]

def fullSubmission : Result SubmitStatus × Bridge :=
  exec (submit quietHost.kernel quietHost.encode false 1 longPushes [] [] [])
    (afterCalls quietBridge beforeFull)

end NvidiaProlapse.Bridge
