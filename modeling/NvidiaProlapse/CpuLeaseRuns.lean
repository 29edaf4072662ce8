import NvidiaProlapse.CpuLeases

/-!
# The BAR budget over whole runs

What leases hold is counted over all places a lease can be in: the slots of the cache,
mappings outside it, the quarantine, and the local variables of the operation that runs.
The budget in use is that sum, and so are the references to each memory.
-/
namespace NvidiaProlapse.CpuLeases

open CpuMapCache Runs List Option Registry

variable {limit : ℕ} {d d' : Device} {w : Resources → ℕ} {f f' : (Resources → ℕ) → ℕ} {l l' : Lease}
  {r r' : Registry Mapping} {i : ℕ} {answers : Stage → Resources → Result Unit}

/-! ## What leases hold -/

def slotWeight (w : Resources → ℕ) (r : Registry Mapping) (i : ℕ) : ℕ :=
  ((r.entryOf i).bind Entry.mapping).elim 0 fun m => m.lease.weight w

def slotTotal (w : Resources → ℕ) (r : Registry Mapping) : ℕ :=
  ∑ i ∈ Finset.range r.created, slotWeight w r i

def leaseTotal (w : Resources → ℕ) (ls : List Lease) : ℕ := (ls.map (Lease.weight w)).sum

@[simp] lemma leaseTotal_cons (l : Lease) (ls : List Lease) :
    leaseTotal w (l :: ls) = l.weight w + leaseTotal w ls := by
  unfold leaseTotal
  rw [map_cons, sum_cons]

/-- A reference to this memory. -/
def refersTo (memory : ℕ) (r : Resources) : ℕ := if r.memory = memory then 1 else 0

/-- The books of the device are right when `f` counts what is held outside the quarantine. -/
structure Balanced (limit : ℕ) (f : (Resources → ℕ) → ℕ) (d : Device) : Prop where
  used : d.budget.used = f Resources.bar + leaseTotal Resources.bar d.quarantined
  limited : d.budget.limit = limit
  within : d.budget.used ≤ d.budget.limit
  references : ∀ memory,
    d.references memory = f (refersTo memory) + leaseTotal (refersTo memory) d.quarantined
  calm : d.panicked = false
  quarantined : ∀ l ∈ d.quarantined, l.resources ≠ none
  ended : ∀ l ∈ d.ended, l.resources = none

lemma Balanced.congr (h : Balanced limit f d) (hf : ∀ w, f' w = f w) : Balanced limit f' d := by
  have heq : f' = f := funext hf
  rw [heq]
  exact h

variable {result : Result Unit} {budget : BarBudget} {out : Except Failure Mapping}
  {mapping : Mapping}

lemma update_refersTo (references : ℕ → ℕ) (change : ℕ → ℕ) (r : Resources) (memory : ℕ) :
    Function.update references r.memory (change (references r.memory)) memory =
      if refersTo memory r = 1 then change (references memory) else references memory := by
  unfold refersTo
  by_cases h : r.memory = memory
  · subst h
    simp
  · simp [h, Function.update_of_ne (Ne.symm h)]

lemma refersTo_le_one (memory : ℕ) (r : Resources) : refersTo memory r ≤ 1 := by
  unfold refersTo
  split_ifs <;> omega

variable {m' : Mapping} {s : Slot Mapping} {g : Entry Mapping → Entry Mapping} {failure : Failure} {k : ℕ}

/-- A lease gives back what it no longer holds. -/
lemma settle_balanced {dropped : Option Resources}
    (h : Balanced limit (fun w => l.weight w + f w) d)
    (hunmap : l.tryUnmap answers = (result, l', dropped)) :
    Balanced limit (fun w => l'.weight w + f w) (d.settle dropped) := by
  obtain ⟨hused, hlimit, hwithin, hreferences, hcalm, hquarantined, hended⟩ := h
  simp only [fun w => Lease.weight_tryUnmap (w := w) hunmap] at hused hreferences
  cases dropped with
  | none => exact ⟨hused, hlimit, hwithin, hreferences, hcalm, hquarantined, hended⟩
  | some r =>
    simp only [elim_some] at hused hreferences
    have hsame : (d.settle (some r)).quarantined = d.quarantined := rfl
    refine ⟨?_, hlimit, (Nat.sub_le _ _).trans hwithin, fun memory => ?_, ?_, hquarantined, hended⟩
    · show d.budget.used - r.bar = _ + leaseTotal _ d.quarantined
      omega
    · have href := hreferences memory
      have hone := refersTo_le_one memory r
      refine (update_refersTo d.references (· - 1) r memory).trans ?_
      rw [hsame]
      split_ifs <;> omega
    · show (d.panicked || decide (d.budget.used < r.bar)) = false
      simp [hcalm]
      omega

/-- Everything but the accounts. -/
structure SamePlaces (d d' : Device) : Prop where
  registry : d'.registry = d.registry
  held : d'.held = d.held

lemma SamePlaces.refl : SamePlaces d d := ⟨rfl, rfl⟩

lemma SamePlaces.trans {d'' : Device} (h : SamePlaces d d') (h' : SamePlaces d' d'') :
    SamePlaces d d'' := ⟨h'.registry.trans h.registry, h'.held.trans h.held⟩

lemma settle_same (dropped : Option Resources) : SamePlaces d (d.settle dropped) ∧
    (d.settle dropped).quarantined = d.quarantined ∧ (d.settle dropped).ended = d.ended := by
  cases dropped with
  | none => exact ⟨.refl, rfl, rfl⟩
  | some r => exact ⟨⟨rfl, rfl⟩, rfl, rfl⟩

/-- A dropped lease ends, or is counted in the quarantine. -/
lemma dropLease_balanced (answers : Stage → Resources → Result Unit)
    (h : Balanced limit (fun w => l.weight w + f w) d) :
    Balanced limit f (d.dropLease l answers) ∧ SamePlaces d (d.dropLease l answers) := by
  unfold Device.dropLease
  split
  next lease dropped hunmap =>
    have hsettled := settle_balanced h hunmap
    have hnone := Lease.resources_of_ok hunmap
    have hweight : ∀ w, lease.weight w = 0 := by
      intro w
      unfold Lease.weight
      rw [hnone]
      rfl
    obtain ⟨hsame, -, hended⟩ := settle_same (d := d) dropped
    have hleft : Balanced limit f (d.settle dropped) :=
      hsettled.congr fun w => by rw [hweight, Nat.zero_add]
    refine ⟨{ hleft with ended := ?_ }, hsame.registry, hsame.held⟩
    exact forall_mem_cons.mpr ⟨hnone, h.ended⟩
  next e lease dropped hunmap =>
    have hsettled := settle_balanced h hunmap
    have hsome := Lease.resources_of_error hunmap
    obtain ⟨hsame, hquarantined, -⟩ := settle_same (d := d) dropped
    rw [if_pos (isSome_iff_ne_none.mpr hsome)]
    have hsum : ∀ w, lease.weight w + f w + leaseTotal w (d.settle dropped).quarantined =
        f w + leaseTotal w (lease :: d.quarantined) := by
      intro w
      rw [hquarantined, leaseTotal_cons]
      omega
    refine ⟨{ hsettled with used := ?_, references := ?_, quarantined := ?_ },
      hsame.registry, hsame.held⟩
    · exact hsettled.used.trans (hsum _)
    · exact fun memory => (hsettled.references memory).trans (hsum _)
    · exact forall_mem_cons.mpr ⟨hsome, h.quarantined⟩

lemma unmapMapping_balanced {m : Mapping} (h : Balanced limit (fun w => m.lease.weight w + f w) d)
    (hunmap : d.unmapMapping m answers = (result, m', d')) :
    Balanced limit (fun w => m'.lease.weight w + f w) d' ∧ SamePlaces d d' := by
  unfold Device.unmapMapping at hunmap
  split at hunmap
  next lease dropped htry =>
    have hsettled := settle_balanced h htry
    cases hunmap
    exact ⟨hsettled, (settle_same dropped).1⟩
  next e lease dropped htry =>
    have hsettled := settle_balanced h htry
    obtain ⟨hsame, -, -⟩ := settle_same (d := d) dropped
    cases hunmap
    exact ⟨{ hsettled with }, hsame.registry, hsame.held⟩

/-! ## Mapping -/

variable {m : Memory} {a : Attempt} {reply : Reply} {bytes : ℕ} {res : Resources}

/-- The reservation grows or shrinks with the lease that holds it. -/
lemma resize_balanced {size : ℕ} (h : Balanced limit (fun w => w res + f w) d)
    (hresize : d.budget.resize res.bar size = .ok budget) :
    Balanced limit (fun w => w { res with bar := size } + f w) { d with budget := budget } := by
  obtain ⟨hsum, hlimit, hwithin⟩ := resize_ok hresize h.within
  refine { h with used := ?_, limited := hlimit.trans h.limited, within := hwithin }
  have hused := h.used
  dsimp only at hused ⊢
  omega

lemma mapVma_balanced {out : Except Failure ℕ} (h : Balanced limit (fun w => w res + f w) d)
    (hmap : d.mapVma m a res reply = (out, l, d')) :
    Balanced limit (fun w => l.weight w + f w) d' ∧ SamePlaces d d' := by
  unfold Device.mapVma at hmap
  split at hmap
  · cases hmap
    exact ⟨h, .refl⟩
  next withinPage size hextent =>
    split at hmap
    · cases hmap
      exact ⟨h, .refl⟩
    next budget hbudget =>
      -- The lease from here on holds the mapped size.
      have hresized : Balanced limit (fun w => w (if m.chargeBar then { res with bar := size } else res) + f w)
          { d with budget := budget } := by
        cases hcharge : m.chargeBar with
        | true =>
          rw [hcharge, if_pos rfl] at hbudget
          exact resize_balanced h hbudget
        | false =>
          rw [hcharge, if_neg Bool.false_ne_true] at hbudget
          cases hbudget
          exact h
      generalize (if m.chargeBar then { res with bar := size } else res) = res' at hmap hresized
      split at hmap
      · cases hmap
        exact ⟨hresized, rfl, rfl⟩
      split_ifs at hmap
      all_goals
        cases hmap
        exact ⟨hresized, rfl, rfl⟩

/-- What a mapping that was made holds. -/
def made (w : Resources → ℕ) : Except Failure Mapping → ℕ
  | .ok mapping => mapping.lease.weight w
  | .error _ => 0

/-- The reservation and the new reference make up the lease. -/
lemma lease_balanced (res : Resources) (h : Balanced limit f d)
    (hreserve : d.budget.resize 0 res.bar = .ok budget) :
    Balanced limit (fun w => w res + f w) { d with
      budget := budget
      references := Function.update d.references res.memory (d.references res.memory + 1) } := by
  obtain ⟨hsum, hlimit, hwithin⟩ := resize_ok hreserve h.within
  refine ⟨?_, hlimit.trans h.limited, hwithin, fun memory => ?_, h.calm, h.quarantined, h.ended⟩
  · have hused := h.used
    dsimp only
    omega
  have href := h.references memory
  have hone := refersTo_le_one memory res
  refine (update_refersTo d.references (· + 1) res memory).trans ?_
  split_ifs <;> dsimp only <;> omega

lemma mapLease_balanced (h : Balanced limit f d) (hreserve : d.budget.resize 0 bytes = .ok budget)
    (hmap : { d with budget := budget }.mapLease m a bytes reply = (out, d')) :
    Balanced limit (fun w => made w out + f w) d' ∧ SamePlaces d d' := by
  have hlease := lease_balanced ⟨m.handle, bytes, reply.linearAddress, reply.flags⟩ h hreserve
  unfold Device.mapLease at hmap
  dsimp only at hmap
  split at hmap
  next pointer lease d₁ hvma =>
    obtain ⟨hbalanced, hsame⟩ := mapVma_balanced hlease hvma
    cases hmap
    exact ⟨hbalanced, hsame.registry, hsame.held⟩
  next failure lease d₁ hvma =>
    obtain ⟨hbalanced, hregistry, hheld⟩ := mapVma_balanced hlease hvma
    have hsame : ∀ dropped, SamePlaces d (d₁.settle dropped) :=
      fun dropped => .trans ⟨hregistry, hheld⟩ (settle_same dropped).1
    split at hmap
    next lease' dropped htry =>
      have hsettled := settle_balanced hbalanced htry
      obtain ⟨hdone, hsame'⟩ := dropLease_balanced a.drop hsettled
      cases hmap
      exact ⟨hdone.congr fun w => Nat.zero_add _, (hsame dropped).trans hsame'⟩
    next cleanup lease' dropped htry =>
      have hsettled := settle_balanced hbalanced htry
      have hfailed : Balanced limit (fun w => lease'.weight w + f w)
          { d₁.settle dropped with cpuMapFailed := true } := { hsettled with }
      obtain ⟨hdone, hsame'⟩ := dropLease_balanced a.drop hfailed
      cases hmap
      refine ⟨hdone.congr fun w => Nat.zero_add _, (hsame dropped).trans ?_⟩
      exact ⟨hsame'.registry, hsame'.held⟩

/-- A reservation that comes to nothing is given back. -/
lemma refund_reserved (h : Balanced limit f d) (hreserve : d.budget.resize 0 bytes = .ok budget) :
    { d with budget := budget }.refund bytes = d := by
  obtain ⟨hsum, hlimit, -⟩ := resize_ok hreserve h.within
  obtain ⟨page, width, ⟨used, limit⟩, references, failed, registry, held, quarantined, ended, panicked⟩ := d
  obtain ⟨used', limit'⟩ := budget
  cases hlimit
  unfold Device.refund
  dsimp only at hsum ⊢
  have hused : used' - bytes = used := by omega
  have hcalm : decide (used' < bytes) = false := decide_eq_false (by omega)
  rw [hused, hcalm, Bool.or_false]

lemma mapOnce_balanced (h : Balanced limit f d) (hmap : d.mapOnce m a = (out, d')) :
    Balanced limit (fun w => made w out + f w) d' ∧ SamePlaces d d' := by
  have herror : ∀ {failure : Failure}, (.error failure, d) = (out, d') →
      Balanced limit (fun w => made w out + f w) d' ∧ SamePlaces d d' := by
    rintro _ ⟨⟩
    exact ⟨h.congr fun w => Nat.zero_add _, .refl⟩
  unfold Device.mapOnce at hmap
  split_ifs at hmap
  · exact herror hmap
  split at hmap
  · exact herror hmap
  split at hmap
  · exact herror hmap
  next bytes hcharge =>
    split at hmap
    · exact herror hmap
    next budget hreserve =>
      dsimp only at hmap
      rw [refund_reserved h hreserve] at hmap
      split at hmap
      · exact herror hmap
      split at hmap
      · exact herror hmap
      split_ifs at hmap
      · exact herror hmap
      · exact mapLease_balanced h hreserve hmap

/-! ## Slots -/

/-- What the slots hold, with the leases outside them. -/
def placed (r : Registry Mapping) (held : List Mapping) (w : Resources → ℕ) : ℕ :=
  slotTotal w r + leaseTotal w (held.map Mapping.lease)

/-- The same without one slot. -/
def elsewhere (r : Registry Mapping) (held : List Mapping) (i : ℕ) (w : Resources → ℕ) : ℕ :=
  ∑ j ∈ (Finset.range r.created).erase i, slotWeight w r j + leaseTotal w (held.map Mapping.lease)

variable {held : List Mapping}

lemma placed_eq (hi : i < r.created) (w : Resources → ℕ) :
    placed r held w = slotWeight w r i + elsewhere r held i w := by
  unfold placed elsewhere slotTotal
  rw [← Finset.add_sum_erase _ _ (Finset.mem_range.mpr hi), Nat.add_assoc]

lemma elsewhere_congr (hcreated : r'.created = r.created)
    (hother : ∀ j, j ≠ i → r'.entryOf j = r.entryOf j) (w : Resources → ℕ) :
    elsewhere r' held i w = elsewhere r held i w := by
  unfold elsewhere
  rw [hcreated]
  congr 1
  refine Finset.sum_congr rfl fun j hj => ?_
  unfold slotWeight
  rw [hother j (Finset.ne_of_mem_erase hj)]

/-- The entry of one slot changes. -/
lemma placed_update (hcreated : r'.created = r.created) (hi : i < r.created)
    (hother : ∀ j, j ≠ i → r'.entryOf j = r.entryOf j) (w : Resources → ℕ) :
    placed r' held w = slotWeight w r' i + elsewhere r held i w := by
  rw [placed_eq (i := i) (by omega), elsewhere_congr hcreated hother]

lemma slotWeight_of_entry {e : Entry Mapping} (h : r.entryOf i = some e) :
    slotWeight w r i = e.mapping.elim 0 fun m => m.lease.weight w := by
  unfold slotWeight
  rw [h]
  rfl

lemma placed_congr (hcreated : r'.created = r.created) (hsame : ∀ j, r'.entryOf j = r.entryOf j)
    (w : Resources → ℕ) : placed r' held w = placed r held w := by
  unfold placed slotTotal slotWeight
  simp [hcreated, hsame]

/-- The accounts of a device between two operations. -/
def Settled (limit : ℕ) (d : Device) : Prop := Balanced limit (placed d.registry d.held) d

/-- The slot holds `g` now, and the other places are as before. -/
lemma Balanced.settled {g : (Resources → ℕ) → ℕ} (h : Balanced limit (fun w => g w + elsewhere r held i w) d)
    (hheld : d.held = held) (hi : i < r.created) (hcreated : r'.created = r.created)
    (hother : ∀ j, j ≠ i → r'.entryOf j = r.entryOf j) (hweight : ∀ w, slotWeight w r' i = g w) :
    Settled limit { d with registry := r' } := by
  have hplaced : Balanced limit (placed r' held) d := by
    refine h.congr fun w => ?_
    rw [placed_update hcreated hi hother, hweight]
  rw [← hheld] at hplaced
  exact { hplaced with }

/-- The lease of a slot is taken into a local variable. -/
lemma Settled.take {q : List ℕ} (h : Settled limit d) (hvalid : d.registry.Valid q)
    (hs : d.registry.slots i = some s) (hm : s.entry.mapping = some mapping) :
    d.registry.entryOf i = some s.entry ∧ i < d.registry.created ∧
      Balanced limit (fun w => mapping.lease.weight w + elsewhere d.registry d.held i w) d := by
  have hentry := (slots_eq_some hs).2
  have hi := hvalid.created_lt i s.entry hentry
  refine ⟨hentry, hi, h.congr fun w => ?_⟩
  rw [placed_eq hi, slotWeight_of_entry hentry, hm]
  rfl

lemma modifyEntry_other : ∀ j, j ≠ i → (r.modifyEntry i g).entryOf j = r.entryOf j := by
  intro j hj
  rw [entryOf_modifyEntry, if_neg hj]

lemma slotWeight_modifyEntry {e : Entry Mapping} (h : r.entryOf i = some e) :
    slotWeight w (r.modifyEntry i g) i = (g e).mapping.elim 0 fun m => m.lease.weight w := by
  refine slotWeight_of_entry ?_
  rw [entryOf_modifyEntry, if_pos rfl, h]
  rfl

/-- The mapping is released and its lease dropped. -/
lemma unmapMapping_dropped {left : Mapping} {d₁ : Device}
    (h : Balanced limit (fun w => mapping.lease.weight w + f w) d)
    (hunmap : d.unmapMapping mapping answers = (.ok (), left, d₁)) :
    Balanced limit (fun w => 0 + f w) (d₁.dropLease left.lease answers) ∧
      (d₁.dropLease left.lease answers).held = d.held := by
  obtain ⟨hleft, hsame⟩ := unmapMapping_balanced h hunmap
  obtain ⟨hdone, hsame'⟩ := dropLease_balanced answers hleft
  exact ⟨hdone.congr fun w => Nat.zero_add _, hsame'.held.trans hsame.held⟩

section Evict

variable {q : List ℕ} {result : Result Bool}

/-- The outcome of an eviction as the cache sees it. -/
def cleanupBy (d : Device) (answers : Stage → Resources → Result Unit) : Cleanup Mapping :=
  fun m =>
    match d.unmapMapping m answers with
    | (.ok (), _, _) => .ok ()
    | (.error e, left, _) => .error (e, left)

lemma evict_registry (h : d.evict i answers = some (result, d')) :
    d.registry.evict i (cleanupBy d answers) = some (result, d'.registry) := by
  grind [Device.evict, evict, cleanupBy]

lemma evict_settled (hvalid : d.registry.Valid q) (h : Settled limit d)
    (hevict : d.evict i answers = some (result, d')) : Settled limit d' ∧ d'.held = d.held := by
  unfold Device.evict at hevict
  split at hevict
  · cases hevict
  next s hs =>
    split_ifs at hevict with hrefs
    · cases hevict
      exact ⟨h, rfl⟩
    split at hevict
    · cases hevict
      exact ⟨h, rfl⟩
    next mapping hm =>
      obtain ⟨hentry, hi, hout⟩ := h.take hvalid hs hm
      split at hevict
      next e left d₁ hunmap =>
        obtain ⟨hleft, hsame⟩ := unmapMapping_balanced hout hunmap
        cases hevict
        refine ⟨?_, hsame.held⟩
        refine hleft.settled hsame.held hi rfl modifyEntry_other fun w => ?_
        exact slotWeight_modifyEntry hentry
      next left d₁ hunmap =>
        obtain ⟨hnone, hheld⟩ := unmapMapping_dropped hout hunmap
        cases hevict
        refine ⟨?_, hheld⟩
        refine hnone.settled hheld hi (created_unlink _ _) ?_ ?_
        · intro j hj
          rw [entryOf_unlink]
          exact modifyEntry_other j hj
        intro w
        unfold slotWeight
        rw [entryOf_unlink]
        exact slotWeight_modifyEntry hentry

/-- An eviction that succeeds takes a mapping off the queue. -/
lemma evict_shrinks (hvalid : d.registry.Valid q) (hevict : d.evict i answers = some (.ok true, d')) :
    ∃ q', d'.registry.Valid q' ∧ q'.length < q.length := by
  have hregistry := evict_registry hevict
  obtain ⟨q', hvalid', hsub, -⟩ := evict_valid hvalid hregistry
  refine ⟨q', hvalid', lt_of_le_of_ne hsub.length_le fun hlength => ?_⟩
  have heq := hsub.eq_of_length hlength
  obtain ⟨s, hs, ⟨hfalse, -⟩ | ⟨hrefs, hm, ⟨e, left, herror, -⟩ | ⟨-, hafter⟩⟩⟩ :=
    evict_cases hregistry
  · cases hfalse
  · cases herror
  have hentry := (slots_eq_some hs).2
  have hbefore : i ∈ q := by
    rw [hvalid.idle_iff]
    simp [idle, hentry, hrefs, isSome_iff_ne_none.mpr hm]
  rw [← heq, hvalid'.idle_iff, hafter] at hbefore
  simp [idle, entryOf_modifyEntry, hentry] at hbefore

lemma evictOne_returns (hvalid : d.registry.Valid q) (h : Settled limit d)
    (answers : Stage → Resources → Result Unit) :
    ∃ result d', d.evictOne answers = some (result, d') ∧ Settled limit d' ∧ d'.held = d.held ∧
      (∃ cleanup, d.registry.evictOne cleanup = some (result, d'.registry)) ∧
      (result = .ok true → ∃ q', d'.registry.Valid q' ∧ q'.length < q.length) := by
  cases hhead : d.registry.upgrade d.registry.head with
  | none =>
    refine ⟨.ok false, d, ?_, h, rfl, ⟨fun _ => .ok (), ?_⟩, fun hcontra => ?_⟩
    · unfold Device.evictOne
      rw [hhead]
    · unfold evictOne
      rw [hhead]
    · cases hcontra
  | some i =>
    have hlive : (d.registry.slots i).isSome = true := by
      exact (filter_eq_some_iff.mp hhead).2
    have hone : d.evictOne answers = d.evict i answers := by
      unfold Device.evictOne
      rw [hhead]
    cases hevict : d.evict i answers with
    | none =>
      grind [Device.evict]
    | some out =>
      obtain ⟨result, d'⟩ := out
      obtain ⟨hsettled, hheld⟩ := evict_settled hvalid h hevict
      refine ⟨result, d', hone.trans hevict, hsettled, hheld, ⟨cleanupBy d answers, ?_⟩, fun htrue => ?_⟩
      · unfold evictOne
        rw [hhead]
        exact evict_registry hevict
      · rw [htrue] at hevict
        exact evict_shrinks hvalid hevict

end Evict

/-! ## The loop of a mapping -/

variable {attempts : ℕ → Attempt} {q : List ℕ}

/-- What an attempt to map comes to: the loop returns, the accounts are right with the lease that
was made, and the cache has seen evictions only. -/
structure Mapped (limit : ℕ) (d : Device) (out : Except Failure Mapping) (d' : Device) : Prop where
  balanced : Balanced limit (fun w => made w out + placed d'.registry d'.held w) d'
  held : d'.held = d.held
  evictions : ∃ evictions, d.registry.evictAll evictions = some d'.registry

lemma mapOnce_mapped (h : Settled limit d) (hmap : d.mapOnce m a = (out, d')) :
    Mapped limit d out d' := by
  obtain ⟨hbalanced, hsame⟩ := mapOnce_balanced h hmap
  refine ⟨?_, hsame.held, [], ?_⟩
  · rw [hsame.registry, hsame.held]
    exact hbalanced
  · rw [hsame.registry]
    rfl

lemma Mapped.settled (h : Mapped limit d (.error failure) d') : Settled limit d' :=
  h.balanced.congr fun _ => (Nat.zero_add _).symm

lemma Settled.mapped (h : Settled limit d') (hheld : d'.held = d.held)
    (hevictions : ∃ evictions, d.registry.evictAll evictions = some d'.registry) :
    Mapped limit d (.error failure) d' := ⟨h.congr fun _ => Nat.zero_add _, hheld, hevictions⟩

/-- The loop ends when every idle mapping was evicted, at the latest. -/
lemma mapLoop_mapped {fuel : ℕ} (hvalid : d.registry.Valid q) (hfuel : q.length < fuel)
    (h : Settled limit d) (m : Memory) (attempts : ℕ → Attempt) (k : ℕ) :
    ∃ out d', Device.mapLoop m attempts fuel k d = some (out, d') ∧ Mapped limit d out d' := by
  induction fuel generalizing k d q with
  | zero => cases hfuel
  | succ fuel ih =>
    unfold Device.mapLoop
    by_cases hfailed : d.cpuMapFailed = true
    · rw [if_pos hfailed]
      exact ⟨_, d, rfl, h.mapped rfl ⟨[], rfl⟩⟩
    rw [if_neg hfailed]
    cases honce : d.mapOnce m (attempts k) with
    | mk out d₁ =>
      have hmapped := mapOnce_mapped h honce
      cases out with
      | ok mapping => exact ⟨.ok mapping, d₁, rfl, hmapped⟩
      | error failure =>
        dsimp only
        by_cases hpressure : failure.pressure = true
        · rw [if_pos hpressure]
          have hsame : d₁.registry = d.registry := (mapOnce_balanced h honce).2.registry
          rw [← hsame] at hvalid
          obtain ⟨result, d₂, hevict, hsettled, hheld, ⟨cleanup, hcleanup⟩, hshrinks⟩ :=
            evictOne_returns hvalid hmapped.settled (attempts k).evict
          have hone : d.registry.evictAll [.one cleanup] = some d₂.registry := by
            rw [← hsame]
            simp [evictAll, evictBy, hcleanup]
          rw [hevict]
          have hheld₂ : d₂.held = d.held := hheld.trans hmapped.held
          cases result with
          | error e =>
            refine ⟨_, _, rfl, ?_⟩
            have hfailed : Settled limit { d₂ with cpuMapFailed := true } :=
              { hsettled with }
            exact hfailed.mapped hheld₂ ⟨_, hone⟩
          | ok evicted =>
            cases evicted with
            | false => exact ⟨_, d₂, rfl, hsettled.mapped hheld₂ ⟨_, hone⟩⟩
            | true =>
              obtain ⟨q', hvalid', hlt⟩ := hshrinks rfl
              obtain ⟨out, d₃, hloop, hmapped₃⟩ := ih hvalid' (by omega) hsettled (k + 1)
              refine ⟨out, d₃, hloop, hmapped₃.balanced, hmapped₃.held.trans hheld₂, ?_⟩
              obtain ⟨evictions, hevictions⟩ := hmapped₃.evictions
              refine ⟨.one cleanup :: evictions, ?_⟩
              rw [← hsame]
              simp [evictAll, evictBy, hcleanup, hevictions]
        · rw [if_neg hpressure]
          exact ⟨_, d₁, rfl, hmapped⟩

lemma map_mapped (hvalid : d.registry.Valid q) (h : Settled limit d) (m : Memory)
    (attempts : ℕ → Attempt) : ∃ out d', d.map m attempts = some (out, d') ∧ Mapped limit d out d' := by
  unfold Device.map
  split_ifs
  · exact ⟨_, d, rfl, h.mapped rfl ⟨[], rfl⟩⟩
  · exact mapLoop_mapped hvalid (Nat.lt_succ_of_le hvalid.length_le) h m attempts 0

/-! ## The other operations -/

/-- The queue of the cache is in order. -/
def Queued (d : Device) : Prop := ∃ q, d.registry.Valid q

/-- Links are no concern of the accounts. -/
lemma Settled.relink (h : Settled limit d) (hcreated : r'.created = d.registry.created)
    (hsame : ∀ j, r'.entryOf j = d.registry.entryOf j) : Settled limit { d with registry := r' } := by
  have hplaced : Balanced limit (placed r' d.held) d := h.congr (placed_congr hcreated hsame)
  exact { hplaced with }

lemma acquire_mapped (hvalid : d.registry.Valid q) (h : Settled limit d)
    (hs : d.registry.slots i = some s) (hfailed : ¬ s.entry.failed = true)
    (hover : ¬ 2 ^ 32 ≤ s.entry.refs + 1) (hm : s.entry.mapping = some mapping)
    (hr' : r' = (d.registry.unlink i).modifyEntry i fun entry =>
      { entry with refs := s.entry.refs + 1 }) :
    Settled limit { d with registry := r' } ∧ ∃ q', r'.Valid q' := by
  obtain ⟨hentry, hi, hout⟩ := h.take hvalid hs hm
  have hregistry : d.registry.acquire i [] (.ok mapping) = some (.ok mapping, r') := by
    simp only [acquire, hs, if_neg hfailed, if_neg hover, hm, hr']
  obtain ⟨q', hvalid', -, -⟩ := acquire_valid hvalid hregistry
  refine ⟨?_, q', hvalid'⟩
  subst hr'
  refine hout.settled rfl hi (created_unlink _ _) ?_ fun w => ?_
  · intro j hj
    rw [modifyEntry_other j hj, entryOf_unlink]
  rw [slotWeight_modifyEntry ((entryOf_unlink _ _ _).trans hentry), hm]
  rfl

/-- A slot without a mapping gets the one that was made. -/
lemma acquire_made {d₁ : Device} (hvalid : d.registry.Valid q) (hs : d.registry.slots i = some s)
    (hfailed : ¬ s.entry.failed = true) (hover : ¬ 2 ^ 32 ≤ s.entry.refs + 1)
    (hm : s.entry.mapping = none)
    (hmapped : Mapped limit { d with registry := d.registry.unlink i } (.ok mapping) d₁)
    (hr' : r' = d₁.registry.modifyEntry i fun entry =>
      { entry with mapping := some mapping, refs := s.entry.refs + 1 }) :
    Settled limit { d₁ with registry := r' } ∧ ∃ q', r'.Valid q' := by
  have hentry := (slots_eq_some hs).2
  obtain ⟨evictions, hevictions⟩ := hmapped.evictions
  have hregistry : d.registry.acquire i evictions (.ok mapping) = some (.ok mapping, r') := by
    simp only [acquire, hs, if_neg hfailed, if_neg hover, hm, hevictions, hr']
  obtain ⟨q', hvalid', -, -⟩ := acquire_valid hvalid hregistry
  refine ⟨?_, q', hvalid'⟩
  subst hr'
  -- The slot was empty, and evictions leave empty slots alone.
  obtain ⟨q₁, hvalid₁, -, hkeeps⟩ :=
    evictAll_valid (hvalid.unlink_unmapped hs hm) hevictions
  have hentry₁ : d₁.registry.entryOf i = some s.entry :=
    hkeeps.busy i s.entry (by rw [entryOf_unlink, hentry]) (.inr hm)
  have hi := hvalid₁.created_lt i s.entry hentry₁
  have hout : Balanced limit (fun w => mapping.lease.weight w + elsewhere d₁.registry d₁.held i w) d₁ := by
    refine hmapped.balanced.congr fun w => ?_
    rw [placed_eq hi, slotWeight_of_entry hentry₁, hm, elim_none, Nat.zero_add]
    rfl
  refine hout.settled rfl hi rfl modifyEntry_other fun w => ?_
  exact slotWeight_modifyEntry hentry₁

lemma acquire_returns (hvalid : d.registry.Valid q) (h : Settled limit d)
    (hlive : (d.registry.slots i).isSome = true) (m : Memory) (attempts : ℕ → Attempt) :
    ∃ result d', d.acquire i m attempts = some (result, d') ∧ Settled limit d' ∧ Queued d' := by
  obtain ⟨s, hs⟩ := isSome_iff_exists.mp hlive
  unfold Device.acquire
  rw [hs]
  dsimp only
  by_cases hfailed : s.entry.failed = true
  · rw [if_pos hfailed]
    exact ⟨_, d, rfl, h, q, hvalid⟩
  by_cases hover : 2 ^ 32 ≤ s.entry.refs + 1
  · rw [if_neg hfailed, if_pos hover]
    exact ⟨_, d, rfl, h, q, hvalid⟩
  rw [if_neg hfailed, if_neg hover]
  cases hm : s.entry.mapping with
  | some mapping =>
    obtain ⟨hsettled, hqueued⟩ := acquire_mapped hvalid h hs hfailed hover hm rfl
    exact ⟨_, _, rfl, hsettled, hqueued⟩
  | none =>
    have hvalid₁ := hvalid.unlink_unmapped hs hm
    have hsettled₁ : Settled limit { d with registry := d.registry.unlink i } :=
      h.relink (created_unlink _ _) fun j => entryOf_unlink _ _ _
    obtain ⟨out, d₁, hmap, hmapped⟩ := map_mapped (d := { d with registry := d.registry.unlink i })
      hvalid₁ hsettled₁ m attempts
    rw [hmap]
    cases out with
    | error failure =>
      obtain ⟨evictions, hevictions⟩ := hmapped.evictions
      obtain ⟨q₁, hvalid₂, -, -⟩ := evictAll_valid hvalid₁ hevictions
      exact ⟨_, d₁, rfl, hmapped.settled, q₁, hvalid₂⟩
    | ok mapping =>
      obtain ⟨hsettled, hqueued⟩ := acquire_made hvalid hs hfailed hover hm hmapped rfl
      exact ⟨_, _, rfl, hsettled, hqueued⟩

lemma enqueueIdle_entries {M : Type} {r r' : Registry M} {i : ℕ} (h : r.enqueueIdle i = some r') :
    r'.created = r.created ∧ ∀ j, r'.entryOf j = r.entryOf j := by
  unfold enqueueIdle at h
  split at h
  · cases h
  split_ifs at h
  cases h
  refine ⟨created_linkNext _ _ _, fun j => ?_⟩
  rw [entryOf_setTail, entryOf_modifyLinks, entryOf_linkNext]

lemma release_registry (h : d.release i answers = some (result, d')) :
    d.registry.release Mapping.retainIdle i (cleanupBy d answers) = some (result, d'.registry) := by
  grind [Device.release, release, cleanupBy]

lemma release_settled (hvalid : d.registry.Valid q) (h : Settled limit d)
    (hrelease : d.release i answers = some (result, d')) : Settled limit d' ∧ Queued d' := by
  have hregistry := release_registry hrelease
  unfold Device.release at hrelease
  split at hrelease
  · cases hrelease
  next s hs =>
    have hqueued : Queued d' := by
      obtain ⟨result', r', q', hr, hvalid', -⟩ :=
        @release_valid Mapping q d.registry i (cleanupBy d answers) Mapping.retainIdle s hvalid hs
      rw [hr] at hregistry
      cases hregistry
      exact ⟨q', hvalid'⟩
    refine ⟨?_, hqueued⟩
    split_ifs at hrelease with hrefs
    · cases hrelease
      exact h
    split at hrelease
    · cases hrelease
      exact h
    next mapping hm =>
      obtain ⟨hentry, hi, hout⟩ := h.take hvalid hs hm
      have hkept : Settled limit { d with
          registry := d.registry.modifyEntry i fun entry => { entry with refs := s.entry.refs - 1 } } := by
        refine hout.settled rfl hi rfl modifyEntry_other fun w => ?_
        rw [slotWeight_modifyEntry hentry, hm]
        rfl
      dsimp only at hrelease
      split_ifs at hrelease with hlast hzero
      · split at hrelease
        next e left d₁ hunmap =>
          obtain ⟨hleft, hsame⟩ := unmapMapping_balanced hout hunmap
          cases hrelease
          refine hleft.settled hsame.held hi rfl modifyEntry_other fun w => ?_
          exact slotWeight_modifyEntry hentry
        next left d₁ hunmap =>
          obtain ⟨hnone, hheld⟩ := unmapMapping_dropped hout hunmap
          cases hrelease
          refine hnone.settled hheld hi rfl modifyEntry_other fun w => ?_
          exact slotWeight_modifyEntry hentry
      · split at hrelease
        · cases hrelease
        next r hr =>
          obtain ⟨hcreated, hsame⟩ := enqueueIdle_entries hr
          cases hrelease
          exact hkept.relink hcreated hsame
      · cases hrelease
        exact hkept

lemma dropSlot_settled (hvalid : d.registry.Valid q) (h : Settled limit d)
    (hdrop : d.dropSlot i answers = some d') : Settled limit d' ∧ Queued d' := by
  unfold Device.dropSlot at hdrop
  split at hdrop
  next s r hs hr =>
    obtain ⟨hlinked, hcreated, hentries⟩ := drop_spec hvalid.linked hr
    have hqueued : r.Valid (q.erase i) := (drop_valid hvalid hr).1
    have hi := hvalid.created_lt i s.entry (slots_eq_some hs).2
    have hgone : ∀ w, slotWeight w r i = 0 := by
      intro w
      unfold slotWeight
      rw [hentries, if_pos rfl]
      rfl
    have hother : ∀ j, j ≠ i → r.entryOf j = d.registry.entryOf j := by
      intro j hj
      rw [hentries, if_neg hj]
    cases hm : s.entry.mapping with
    | none =>
      rw [hm] at hdrop
      cases hdrop
      refine ⟨?_, _, hqueued⟩
      have hout : Balanced limit (fun w => 0 + elsewhere d.registry d.held i w) d := by
        refine h.congr fun w => ?_
        rw [placed_eq hi, slotWeight_of_entry (slots_eq_some hs).2, hm]
        rfl
      exact hout.settled rfl hi hcreated hother hgone
    | some mapping =>
      rw [hm] at hdrop
      cases hdrop
      obtain ⟨-, -, hout⟩ := h.take hvalid hs hm
      have hloose : Balanced limit (fun w => mapping.lease.weight w + elsewhere d.registry d.held i w)
          { d with registry := r } :=
        { hout with }
      obtain ⟨hdone, hsame⟩ := dropLease_balanced answers hloose
      refine ⟨?_, _, by rw [elim_some, hsame.registry]; exact hqueued⟩
      have hplaced : ∀ w, placed r d.held w = elsewhere d.registry d.held i w := by
        intro w
        rw [placed_update hcreated hi hother, hgone, Nat.zero_add]
      refine hdone.congr fun w => ?_
      rw [elim_some, hsame.registry, hsame.held]
      exact hplaced w
  · cases hdrop

/-! ## Mappings outside the cache -/

/-- A mapping outside the cache is taken into a local variable. -/
lemma Settled.takeHeld (h : Settled limit d) (hk : d.held[k]? = some mapping) :
    Balanced limit (fun w => mapping.lease.weight w + placed d.registry (d.held.eraseIdx k) w) d := by
  obtain ⟨hlt, hget⟩ := List.getElem?_eq_some_iff.mp hk
  refine h.congr fun w => ?_
  have hperm : (mapping :: d.held.eraseIdx k).Perm d.held := by
    rw [← hget]
    exact List.getElem_cons_eraseIdx_perm hlt
  have hsum := ((hperm.map Mapping.lease).map (Lease.weight w)).sum_eq
  rw [map_cons, map_cons, sum_cons] at hsum
  unfold placed leaseTotal
  omega

lemma leaseTotal_set (hk : held[k]? = some mapping) :
    leaseTotal w ((held.set k m').map Mapping.lease) =
      m'.lease.weight w + leaseTotal w ((held.eraseIdx k).map Mapping.lease) := by
  obtain ⟨hlt, -⟩ := List.getElem?_eq_some_iff.mp hk
  have hperm : (m' :: held.eraseIdx k).Perm (held.set k m') := by
    have hset := List.getElem_cons_eraseIdx_perm (l := held.set k m') (n := k) (by simpa using hlt)
    rwa [getElem_set_self, eraseIdx_set_eq] at hset
  have hsum := ((hperm.map Mapping.lease).map (Lease.weight w)).sum_eq
  exact hsum.symm

/-- A new slot is empty. -/
lemma placed_slot (w : Resources → ℕ) :
    placed r.slot held w = placed r held w := by
  have hold : ∀ j ∈ Finset.range r.created, slotWeight w r.slot j = slotWeight w r j := by
    intro j hj
    have hne : j ≠ r.created := (Finset.mem_range.mp hj).ne
    unfold slotWeight entryOf slot
    dsimp only
    rw [Function.update_of_ne hne]
  have hnew : slotWeight w r.slot r.created = 0 := by
    unfold slotWeight entryOf slot
    dsimp only
    rw [Function.update_self]
    rfl
  have hcreated : r.slot.created = r.created + 1 := rfl
  unfold placed slotTotal
  rw [hcreated, Finset.sum_range_succ, hnew, Finset.sum_congr rfl hold, Nat.add_zero]

lemma step_settled {act : Action} (hvalid : d.registry.Valid q) (h : Settled limit d)
    (hstep : d.step act = some d') : Settled limit d' ∧ Queued d' := by
  cases act with
  | slot =>
    cases hstep
    have hmarked : d.registry.Marked fun _ => false := nofun
    refine ⟨?_, q, (slot_valid hvalid hmarked).1⟩
    have hplaced := h.congr placed_slot
    exact { hplaced with }
  | map m attempts =>
    obtain ⟨out, d₁, hmap, hmapped⟩ := map_mapped hvalid h m attempts
    obtain ⟨evictions, hevictions⟩ := hmapped.evictions
    obtain ⟨q₁, hvalid₁, -, -⟩ := evictAll_valid hvalid hevictions
    rw [Device.step, hmap] at hstep
    cases out with
    | error failure =>
      cases hstep
      exact ⟨hmapped.settled, q₁, hvalid₁⟩
    | ok mapping =>
      cases hstep
      refine ⟨?_, q₁, hvalid₁⟩
      have hbalanced := hmapped.balanced
      have hheld : Balanced limit (placed d₁.registry (mapping :: d₁.held)) d₁ := by
        refine hbalanced.congr fun w => ?_
        have hmade : made w (.ok mapping) = mapping.lease.weight w := rfl
        unfold placed
        rw [hmade, map_cons, leaseTotal_cons]
        omega
      exact { hheld with }
  | acquire i m attempts =>
    obtain ⟨out, hacquire, rfl⟩ := map_eq_some_iff.mp hstep
    have hlive : (d.registry.slots i).isSome = true := by grind [Device.acquire]
    obtain ⟨result, d₁, hreturn, hsettled, hqueued⟩ := acquire_returns hvalid h hlive m attempts
    rw [hreturn] at hacquire
    cases hacquire
    exact ⟨hsettled, hqueued⟩
  | release i answers =>
    obtain ⟨⟨result, d₁⟩, hrelease, rfl⟩ := map_eq_some_iff.mp hstep
    exact release_settled hvalid h hrelease
  | evict i answers =>
    obtain ⟨⟨result, d₁⟩, hevict, rfl⟩ := map_eq_some_iff.mp hstep
    obtain ⟨q', hvalid', -, -⟩ := evict_valid hvalid (evict_registry hevict)
    exact ⟨(evict_settled hvalid h hevict).1, q', hvalid'⟩
  | evictOne answers =>
    obtain ⟨⟨result, d₁⟩, hevict, rfl⟩ := map_eq_some_iff.mp hstep
    obtain ⟨result', d₂, hreturn, hsettled, -, ⟨cleanup, hcleanup⟩, -⟩ :=
      evictOne_returns hvalid h answers
    rw [hreturn] at hevict
    cases hevict
    have hby : d.registry.evictBy (.one cleanup) = some (result, d₁.registry) := hcleanup
    obtain ⟨q', hvalid', -, -⟩ := evictBy_valid hvalid hby
    exact ⟨hsettled, q', hvalid'⟩
  | dropSlot i answers => exact dropSlot_settled hvalid h hstep
  | unmap k answers =>
    obtain ⟨mapping, hk, hunmap⟩ := map_eq_some_iff.mp hstep
    have hout := h.takeHeld hk
    cases hstep' : d.unmapMapping mapping answers with
    | mk result rest =>
      obtain ⟨left, d₁⟩ := rest
      obtain ⟨hleft, hsame⟩ := unmapMapping_balanced hout hstep'
      rw [hstep'] at hunmap
      cases hunmap
      have hplaced : Balanced limit (placed d₁.registry (d.held.set k left)) d₁ := by
        refine hleft.congr fun w => ?_
        unfold placed
        rw [hsame.registry, leaseTotal_set hk]
        omega
      refine ⟨{ hplaced with }, q, ?_⟩
      rw [hsame.registry]
      exact hvalid
  | drop k answers =>
    obtain ⟨mapping, hk, rfl⟩ := map_eq_some_iff.mp hstep
    have hout := h.takeHeld hk
    have hloose : Balanced limit
        (fun w => mapping.lease.weight w + placed d.registry (d.held.eraseIdx k) w)
        { d with held := d.held.eraseIdx k } :=
      { hout with }
    obtain ⟨hdone, hsame⟩ := dropLease_balanced answers hloose
    refine ⟨hdone.congr fun w => ?_, q, ?_⟩
    · rw [hsame.registry, hsame.held]
    · rw [hsame.registry]
      exact hvalid

/-! ## Runs -/

/-- The VMA is released before the mapping of the resource manager and each of them once; the budget
and the reference are given back, once, exactly when all stages that were mapped are released. -/
structure Orderly (l : Lease) : Prop where
  once : ∀ stage, l.life.count (.released stage) ≤ 1
  returned_once : l.life.count .returned ≤ 1
  inside_out : .mapped .vma ∈ l.life → .released .rm ∈ l.life →
    [.mapped .vma, .released .vma, .released .rm].Sublist l.life
  returned_iff : .returned ∈ l.life ↔
    ∀ stage, .mapped stage ∈ l.life → .released stage ∈ l.life
  gone_iff : l.resources = none ↔ .returned ∈ l.life

lemma lifeOf_orderly : ∀ mapped vma rm : Bool, (vma = true → mapped = true) →
    (vma = true → rm = true) → let life := lifeOf mapped ⟨vma, rm⟩ rm
      life.count (.released .vma) ≤ 1 ∧ life.count (.released .rm) ≤ 1 ∧ life.count .returned ≤ 1 ∧
      (.mapped .vma ∈ life → .released .rm ∈ life →
        [.mapped .vma, .released .vma, .released .rm].Sublist life) ∧
      (.returned ∈ life ↔ (.mapped .vma ∈ life → .released .vma ∈ life) ∧
        (.mapped .rm ∈ life → .released .rm ∈ life)) ∧
      (rm = false ↔ .returned ∈ life) := by
  decide

/-- It is so for every lease that can be built. -/
lemma orderly (l : Lease) : Orderly l := by
  obtain ⟨⟨resources, ⟨vma, rm⟩, extent, life⟩, ⟨howned, hinner, -, mapped, hmapped, hlife⟩⟩ := l
  dsimp only at howned hinner hmapped hlife
  rw [howned] at hlife
  subst hlife
  obtain ⟨hvma, hrm, hreturned, hinside, hall, hgone⟩ := lifeOf_orderly mapped vma rm hmapped hinner
  refine ⟨fun stage => ?_, hreturned, hinside, hall.trans ⟨fun h stage => ?_, fun h => ?_⟩, ?_⟩
  · cases stage with
    | vma => exact hvma
    | rm => exact hrm
  · cases stage with
    | vma => exact h.1
    | rm => exact h.2
  · exact ⟨h .vma, h .rm⟩
  refine Iff.trans ?_ hgone
  show resources = none ↔ rm = false
  rw [← howned]
  cases resources with
  | none => exact ⟨fun _ => rfl, fun _ => rfl⟩
  | some r => simp

/-- All leases, wherever they are. -/
def Device.HasLease (d : Device) (l : Lease) : Prop :=
  (∃ i e m, d.registry.entryOf i = some e ∧ e.mapping = some m ∧ m.lease = l) ∨
    (∃ m ∈ d.held, m.lease = l) ∨ l ∈ d.quarantined ∨ l ∈ d.ended

lemma run_settled {page width : ℕ} {actions : List Action}
    (hrun : run Device.step (.start page width limit) actions = some d) :
    Settled limit d ∧ Queued d := by
  have hstart : Settled limit (.start page width limit) ∧ Queued (.start page width limit) := by
    refine ⟨⟨rfl, rfl, Nat.zero_le _, fun _ => rfl, rfl, ?_, ?_⟩, [], start_ordered.valid⟩
    all_goals
      intro l hl
      cases hl
  refine @run_invariant _ _ _ (fun d => Settled limit d ∧ Queued d) ?_ _ _ _ hstart hrun
  rintro d act d' ⟨hsettled, q, hvalid⟩ hstep
  exact step_settled hvalid hsettled hstep

/-- In every run the budget in use and the references to each memory are those of the leases in the
cache, outside it and in the quarantine, and the limit is kept. Each lease has lived in order. What a
quarantined lease holds is never given back, a lease that ended holds nothing. The loop of a mapping
returns whatever the attempts and evictions in it meet. -/
theorem leases_balanced {page width : ℕ} {actions : List Action}
    (hrun : run Device.step (.start page width limit) actions = some d) :
    d.panicked = false ∧ d.budget.limit = limit ∧ d.budget.used ≤ limit ∧
      d.budget.used = placed d.registry d.held Resources.bar + leaseTotal Resources.bar d.quarantined ∧
      (∀ memory, d.references memory = placed d.registry d.held (refersTo memory) +
        leaseTotal (refersTo memory) d.quarantined) ∧
      (∀ l, d.HasLease l → Orderly l) ∧
      (∀ l ∈ d.quarantined, .returned ∉ l.life) ∧ (∀ l ∈ d.ended, .returned ∈ l.life) ∧
      (∀ m attempts k fuel, d.registry.fifo.length < fuel →
        Device.mapLoop m attempts fuel k d ≠ none) ∧
      (∀ m attempts, d.map m attempts ≠ none) ∧
      ∀ i m attempts, (d.registry.slots i).isSome = true → d.acquire i m attempts ≠ none := by
  obtain ⟨h, q, hvalid⟩ := run_settled hrun
  have hfifo : d.registry.fifo = q := hvalid.linked.isList.walk_next hvalid.length_le
  refine ⟨h.calm, h.limited, h.within.trans h.limited.le, h.used, h.references,
    fun l _ => orderly l, ?_, ?_, ?_, ?_, ?_⟩
  · intro l hl hreturned
    exact h.quarantined l hl ((orderly l).gone_iff.mpr hreturned)
  · intro l hl
    exact (orderly l).gone_iff.mp (h.ended l hl)
  · intro m attempts k fuel hfuel hnone
    rw [hfifo] at hfuel
    obtain ⟨out, d', hloop, -⟩ := mapLoop_mapped hvalid hfuel h m attempts k
    rw [hloop] at hnone
    cases hnone
  · intro m attempts hnone
    obtain ⟨out, d', hmap, -⟩ := map_mapped hvalid h m attempts
    rw [hmap] at hnone
    cases hnone
  · intro i m attempts hlive hnone
    obtain ⟨result, d', hacquire, -⟩ := acquire_returns hvalid h hlive m attempts
    rw [hacquire] at hnone
    cases hnone

/-- The resource manager maps at its cookie and the VMA lies at this address. -/
def mapsAt (cookie address length : ℕ) : Attempt where
  inverse := .ok ()
  fd := .ok ()
  rm := .ok ⟨0, length, cookie, 0⟩
  mmap := .ok address
  rollback := fun _ _ => .ok ()
  drop := fun _ _ => .ok ()
  evict := fun _ _ => .ok ()

/-- The resource manager refuses. -/
def onlyVma : Stage → Resources → Result Unit
  | .vma, _ => .ok ()
  | .rm, _ => .error (.rm "RM unmap memory" 0x51)

/-- An idle mapping makes room for a larger one, whose cleanup then fails for good. -/
def crowded : List Action :=
  [.slot, .acquire 0 ⟨1, 4096, true, true, false⟩ fun _ => mapsAt 0 65536 4096,
    .release 0 onlyVma, .map ⟨2, 8192, true, true, false⟩ fun _ => mapsAt 0 131072 8192,
    .unmap 0 onlyVma, .drop 0 onlyVma]

theorem leases_balanced_crowded : ∃ d, run Device.step (.start 4096 64 8192) crowded = some d ∧
    d.quarantined.map (fun l => l.life) = [[.mapped .rm, .mapped .vma, .released .vma]] ∧
    d.ended.map (fun l => l.life) = [[.mapped .rm, .mapped .vma, .released .vma, .released .rm, .returned]] ∧
    d.budget.used = 8192 ∧
    d.budget.used = placed d.registry d.held Resources.bar + leaseTotal Resources.bar d.quarantined := by
  have hview : (run Device.step (.start 4096 64 8192) crowded).map (fun d =>
      (d.quarantined.map (fun l => l.life), d.ended.map (fun l => l.life), d.budget.used)) =
      some ([[.mapped .rm, .mapped .vma, .released .vma]],
        [[.mapped .rm, .mapped .vma, .released .vma, .released .rm, .returned]], 8192) := by
    decide +kernel
  obtain ⟨d, hrun, hlast⟩ := exists_run_of_view hview
  simp only [Prod.mk.injEq] at hlast
  exact ⟨d, hrun, hlast.1, hlast.2.1, hlast.2.2, (leases_balanced hrun).2.2.2.1⟩

end NvidiaProlapse.CpuLeases
