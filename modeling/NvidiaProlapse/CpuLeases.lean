import NvidiaProlapse.CpuMapRuns

/-!
# CPU mappings and the BAR budget

A CPU mapping holds a VMA, a mapping of the resource manager, a part of the BAR budget
and a reference to its memory. The VMA goes first, then the mapping of the resource
manager, and with it the budget and the reference. A failed stage stays owned and can be
tried again. A lease whose destructor fails is quarantined.

Each lease carries its life, so that a lease that released a stage out of order or twice
cannot be built.
-/
namespace NvidiaProlapse.CpuLeases

open CpuMapCache

/-! ## The budget -/

structure BarBudget where
  used : ℕ
  limit : ℕ
  deriving DecidableEq, Repr

/-- `BarReservation::resize` of a reservation that holds `held` bytes. -/
def BarBudget.resize (b : BarBudget) (held bytes : ℕ) : Result BarBudget :=
  if b.used < held then .error (.contract "unbalanced BAR reservation")
  else
    let next := b.used - held + bytes
    if 2 ^ 64 ≤ next then .error (.contract "BAR mapping budget overflow")
    else if bytes ≠ 0 ∧ (b.limit = 0 ∨ b.limit < next) then
      .error (.barPressure (b.used - held) bytes b.limit)
    else .ok { b with used := next }

lemma resize_ok {b b' : BarBudget} {held bytes : ℕ} (h : b.resize held bytes = .ok b')
    (hlimit : b.used ≤ b.limit) :
    b.used + bytes = b'.used + held ∧ b'.limit = b.limit ∧ b'.used ≤ b'.limit := by
  unfold BarBudget.resize at h
  dsimp only at h
  split_ifs at h with hheld hover hpressure
  cases h
  refine ⟨by dsimp only; omega, rfl, ?_⟩
  dsimp only
  by_cases hzero : bytes = 0
  · omega
  · omega

/-! ## A lease -/

inductive Stage
  | vma
  | rm
  deriving DecidableEq, Repr

structure MappingState where
  vma : Bool
  rm : Bool
  deriving DecidableEq, Repr

/-- The stages that are left, in order, up to the first that fails. The last component lists those
whose release succeeded. -/
def MappingState.cleanup (s : MappingState) (release : Stage → Result Unit) :
    Result Unit × MappingState × List Stage :=
  match (if s.vma then release .vma else .ok ()) with
  | .error e => (.error e, s, [])
  | .ok () =>
    let done := if s.vma then [Stage.vma] else []
    match (if s.rm then release .rm else .ok ()) with
    | .error e => (.error e, { s with vma := false }, done)
    | .ok () => (.ok (), ⟨false, false⟩, done ++ if s.rm then [.rm] else [])

/-- `cleanup_owned`: the resources go with the last stage. -/
def MappingState.cleanupOwned {R : Type} (s : MappingState) (resources : Option R)
    (release : Stage → R → Result Unit) : Result Unit × MappingState × Option R × List Stage :=
  match resources with
  | none =>
    if s.vma || s.rm then (.error (.contract "live CPU map lost its resource owner"), s, none, [])
    else (.ok (), s, none, [])
  | some owner =>
    match s.cleanup fun stage => release stage owner with
    | (.error e, s', done) => (.error e, s', some owner, done)
    | (.ok (), s', done) => (.ok (), s', none, done)

/-- What a mapping keeps of its memory, of the budget and of the answer of the resource manager. -/
structure Resources where
  memory : ℕ
  bar : ℕ
  linearAddress : ℕ
  flags : ℕ
  deriving DecidableEq, Repr

inductive Event
  | mapped (stage : Stage)
  | released (stage : Stage)
  /-- The budget and the reference to the memory are given back. -/
  | returned
  deriving DecidableEq, Repr

structure LeaseData where
  resources : Option Resources
  state : MappingState
  /-- The address and size of the VMA. -/
  vma : Option (ℕ × ℕ)
  life : List Event

/-- The life of a mapping that has these stages left. -/
def lifeOf (vma : Bool) (s : MappingState) (owned : Bool) : List Event :=
  [.mapped .rm] ++ (if vma then [.mapped .vma] else []) ++
    (if vma && !s.vma then [.released .vma] else []) ++
    (if s.rm then [] else [.released .rm]) ++ if owned then [] else [.returned]

structure LeaseData.Sound (l : LeaseData) : Prop where
  owned : l.resources.isSome = l.state.rm
  inner : l.state.vma = true → l.state.rm = true
  extent : l.state.vma = true → l.vma.isSome = true
  lived : ∃ vma, (l.state.vma = true → vma = true) ∧
    l.life = lifeOf vma l.state l.resources.isSome

/-- `try_unmap`. The last component is what the lease gives back. -/
def LeaseData.tryUnmap (l : LeaseData) (release : Stage → Resources → Result Unit) :
    Result Unit × LeaseData × Option Resources :=
  match l.state.cleanupOwned l.resources release with
  | (.error e, state, resources, done) =>
    (.error e, ⟨resources, state, l.vma, l.life ++ done.map .released⟩, none)
  | (.ok (), state, resources, done) =>
    (.ok (), ⟨resources, state, none,
      l.life ++ done.map .released ++ if l.resources.isSome then [.returned] else []⟩, l.resources)

/-- A lease that is left as it was, that lost its VMA, that gave everything back, or that had
nothing left. -/
inductive Unmapped (l : LeaseData) : Result Unit × LeaseData × Option Resources → Prop
  | kept (e : Error) (hrm : l.state.rm = true) (hvma : l.state.vma = true) :
    Unmapped l (.error e, l, none)
  | half (e : Error) (hrm : l.state.rm = true) :
    Unmapped l (.error e, ⟨l.resources, ⟨false, true⟩, l.vma,
      l.life ++ if l.state.vma then [.released .vma] else []⟩, none)
  | returned (r : Resources) (hrm : l.state.rm = true) (hr : l.resources = some r) :
    Unmapped l (.ok (), ⟨none, ⟨false, false⟩, none,
      l.life ++ (if l.state.vma then [.released .vma] else []) ++ [.released .rm, .returned]⟩, some r)
  | empty (hr : l.resources = none) (hs : l.state = ⟨false, false⟩) :
    Unmapped l (.ok (), ⟨none, ⟨false, false⟩, none, l.life⟩, none)

lemma tryUnmap_cases {l : LeaseData} (h : l.Sound) (release : Stage → Resources → Result Unit) :
    Unmapped l (l.tryUnmap release) := by
  obtain ⟨resources, ⟨vma, rm⟩, extent, life⟩ := l
  obtain ⟨howned, hinner, -, -⟩ := h
  cases resources with
  | none =>
    cases rm with
    | true => cases howned
    | false =>
      have hvma : vma = false := by
        cases vma with
        | false => rfl
        | true => cases hinner rfl
      subst hvma
      have hempty := Unmapped.empty (l := ⟨none, ⟨false, false⟩, extent, life⟩) rfl rfl
      simpa [LeaseData.tryUnmap, MappingState.cleanupOwned] using hempty
  | some r =>
    cases rm with
    | false => cases howned
    | true =>
      unfold LeaseData.tryUnmap MappingState.cleanupOwned MappingState.cleanup
      cases vma with
      | true =>
        cases hfirst : release .vma r with
        | error e =>
          have hkept := Unmapped.kept (l := ⟨some r, ⟨true, true⟩, extent, life⟩) e rfl rfl
          simpa [hfirst] using hkept
        | ok u =>
          cases hsecond : release .rm r with
          | error e =>
            have hhalf := Unmapped.half (l := ⟨some r, ⟨true, true⟩, extent, life⟩) e rfl
            simpa [hfirst, hsecond] using hhalf
          | ok u' =>
            have hall := Unmapped.returned (l := ⟨some r, ⟨true, true⟩, extent, life⟩) r rfl rfl
            simpa [hfirst, hsecond] using hall
      | false =>
        cases hsecond : release .rm r with
        | error e =>
          have hhalf := Unmapped.half (l := ⟨some r, ⟨false, true⟩, extent, life⟩) e rfl
          simpa [hsecond] using hhalf
        | ok u' =>
          have hall := Unmapped.returned (l := ⟨some r, ⟨false, true⟩, extent, life⟩) r rfl rfl
          simpa [hsecond] using hall

/-- The life goes on with the stages that are released now. -/
lemma lifeOf_half {vma v : Bool} (h : v = true → vma = true) :
    lifeOf vma ⟨v, true⟩ true ++ (if v then [.released .vma] else []) =
      lifeOf vma ⟨false, true⟩ true := by
  cases v with
  | false => simp [lifeOf]
  | true => simp [lifeOf, h rfl]

lemma lifeOf_returned {vma v : Bool} (h : v = true → vma = true) :
    lifeOf vma ⟨v, true⟩ true ++ (if v then [.released .vma] else []) ++ [.released .rm, .returned] =
      lifeOf vma ⟨false, false⟩ false := by
  rw [lifeOf_half h]
  simp [lifeOf]

lemma tryUnmap_sound {l : LeaseData} (h : l.Sound) (release : Stage → Resources → Result Unit) :
    (l.tryUnmap release).2.1.Sound := by
  have hcases := tryUnmap_cases h release
  obtain ⟨vma, hvma, hlife⟩ := h.lived
  have hstate : l.state.rm = true → l.life = lifeOf vma ⟨l.state.vma, true⟩ true := by
    intro hrm
    rw [hlife, h.owned, hrm, ← hrm]
  have hdone : ∀ P : Prop, false = true → P := fun P hcontra => Bool.noConfusion hcontra
  generalize l.tryUnmap release = out at hcases
  cases hcases with
  | kept e hrm hv => exact h
  | half e hrm =>
    have howned : l.resources.isSome = true := h.owned.trans hrm
    refine ⟨howned, hdone _, hdone _, vma, hdone _, ?_⟩
    rw [hstate hrm, howned, lifeOf_half hvma]
  | returned r hrm hr =>
    refine ⟨rfl, hdone _, hdone _, vma, hdone _, ?_⟩
    rw [hstate hrm, lifeOf_returned hvma]
    rfl
  | empty hr hs =>
    refine ⟨rfl, hdone _, hdone _, vma, hdone _, ?_⟩
    rw [hlife, hs, hr]

/-- A lease in order. -/
structure Lease extends LeaseData where
  sound : toLeaseData.Sound

namespace Lease

/-- The resource manager has mapped the memory, and there is no VMA yet. -/
def fresh (r : Resources) : Lease where
  resources := some r
  state := ⟨false, true⟩
  vma := none
  life := [.mapped .rm]
  sound := ⟨rfl, fun h => Bool.noConfusion h, fun h => Bool.noConfusion h, false,
    fun h => Bool.noConfusion h, rfl⟩

def withVma (r : Resources) (address size : ℕ) : Lease where
  resources := some r
  state := ⟨true, true⟩
  vma := some (address, size)
  life := [.mapped .rm, .mapped .vma]
  sound := ⟨rfl, fun _ => rfl, fun _ => rfl, true, fun _ => rfl, rfl⟩

def tryUnmap (l : Lease) (release : Stage → Resources → Result Unit) :
    Result Unit × Lease × Option Resources :=
  let out := l.toLeaseData.tryUnmap release
  (out.1, ⟨out.2.1, tryUnmap_sound l.sound release⟩, out.2.2)

/-- What a lease still holds, counted by `w`. -/
def weight (w : Resources → ℕ) (l : Lease) : ℕ := l.resources.elim 0 w

variable {l l' : Lease} {release : Stage → Resources → Result Unit} {result : Result Unit}
  {dropped : Option Resources} {w : Resources → ℕ}

lemma unmapped (h : l.tryUnmap release = (result, l', dropped)) :
    Unmapped l.toLeaseData (result, l'.toLeaseData, dropped) := by
  have hcases := tryUnmap_cases l.sound release
  injection h with hresult hrest
  injection hrest with hlease hdropped
  rw [← hresult, ← hlease, ← hdropped]
  exact hcases

/-- What is no longer held is given back. -/
lemma weight_tryUnmap (h : l.tryUnmap release = (result, l', dropped)) :
    l.weight w = l'.weight w + dropped.elim 0 w := by
  have hcases := unmapped h
  unfold weight
  generalize l'.toLeaseData = data at hcases
  cases hcases with
  | kept e hrm hv => rfl
  | half e hrm => rfl
  | returned r hrm hr =>
    rw [hr]
    exact (Nat.zero_add _).symm
  | empty hr hs => rw [hr]; rfl

lemma resources_of_ok (h : l.tryUnmap release = (.ok (), l', dropped)) : l'.resources = none := by
  have hcases := unmapped h
  generalize l'.toLeaseData = data at hcases
  cases hcases with
  | returned r hrm hr => rfl
  | empty hr hs => rfl

lemma resources_of_error {e : Error} (h : l.tryUnmap release = (.error e, l', dropped)) :
    l'.resources ≠ none := by
  have howned := l.sound.owned
  have hcases := unmapped h
  generalize l'.toLeaseData = data at hcases
  cases hcases with
  | kept e hrm hv | half e hrm =>
    rw [hrm] at howned
    exact Option.isSome_iff_ne_none.mp howned

end Lease

/-! ## A device -/

structure Memory where
  handle : ℕ
  size : ℕ
  owned : Bool
  chargeBar : Bool
  /-- A block of the pool that only the GPU uses. -/
  huge : Bool
  deriving DecidableEq, Repr

structure Mapping where
  pointer : ℕ
  size : ℕ
  lease : Lease
  retainIdle : Bool

structure Device where
  page : ℕ
  /-- The bits of a `usize`. -/
  width : ℕ
  budget : BarBudget
  /-- References to memory that leases hold. -/
  references : ℕ → ℕ := fun _ => 0
  cpuMapFailed : Bool := false
  registry : Registry Mapping := .new
  /-- Mappings outside the cache. -/
  held : List Mapping := []
  quarantined : List Lease := []
  /-- Leases whose destructor had nothing left to do, or succeeded. -/
  ended : List Lease := []
  /-- A reservation larger than the budget in use was given back. -/
  panicked : Bool := false

namespace Device

variable (d : Device)

/-- The destructor of a reservation. -/
def refund (bytes : ℕ) : Device :=
  { d with
    budget := { d.budget with used := d.budget.used - bytes }
    panicked := d.panicked || decide (d.budget.used < bytes) }

/-- The destructor of the resources. -/
def giveBack (r : Resources) : Device :=
  { d.refund r.bar with
    references := Function.update d.references r.memory (d.references r.memory - 1) }

def settle (dropped : Option Resources) : Device := dropped.elim d d.giveBack

/-- `Mapping::try_unmap`: the device takes no mapping any more once a cleanup failed. -/
def unmapMapping (m : Mapping) (release : Stage → Resources → Result Unit) :
    Result Unit × Mapping × Device :=
  match m.lease.tryUnmap release with
  | (.ok (), lease, dropped) => (.ok (), { m with lease := lease }, d.settle dropped)
  | (.error e, lease, dropped) =>
    (.error e, { m with lease := lease },
      { d.settle dropped with cpuMapFailed := d.cpuMapFailed || lease.resources.isSome })

/-- The destructor of a lease tries once more, and forgets what it could not release. -/
def dropLease (l : Lease) (release : Stage → Resources → Result Unit) : Device :=
  match l.tryUnmap release with
  | (.ok (), lease, dropped) =>
    { d.settle dropped with ended := lease :: d.ended }
  | (.error _, lease, dropped) =>
    if lease.resources.isSome then { d.settle dropped with quarantined := lease :: d.quarantined }
    else { d.settle dropped with ended := lease :: d.ended }

/-- `round_to_cpu_pages`; `none` is an error of the system. -/
def roundToCpuPages (bytes : ℕ) : Option ℕ :=
  if d.page ≠ 4096 ∧ d.page ≠ 16384 ∧ d.page ≠ 65536 then none
  else if bytes = 0 then none
  else if 2 ^ d.width ≤ bytes + (d.page - 1) then none
  else some ((bytes + (d.page - 1)) / d.page * d.page)

/-- The offset in the first page and the size of the mapping. -/
def cpuMappingExtent (size : ℕ) (owned : Bool) (returnedLength cookie : ℕ) : Result (ℕ × ℕ) :=
  if d.page = 0 ∨ d.page &&& (d.page - 1) ≠ 0 then .error (.contract "invalid CPU page size")
  else
    let withinPage := cookie &&& (d.page - 1)
    if returnedLength < size then .error (.contract "RM returned an undersized CPU mapping")
    else if owned = false ∧ 2 ^ d.width ≤ returnedLength then
      .error (.contract "USERD size exceeds CPU address range")
    else
      let exposed := if owned then size else returnedLength
      if size = 0 ∨ withinPage % 4 ≠ 0 then .error (.contract "empty or unaligned RM CPU mapping")
      else if 2 ^ d.width ≤ exposed + withinPage then .error (.contract "CPU mapping extent overflow")
      else
        match d.roundToCpuPages (exposed + withinPage) with
        | none => .error (.io "round mmap extent")
        | some rounded =>
          if 2 ^ (d.width - 1) ≤ rounded then
            .error (.contract "CPU mapping exceeds Rust pointer offset range")
          else .ok (withinPage, rounded)

end Device

/-- An error, with the number of the operating system where there is one. -/
structure Failure where
  error : Error
  errno : Option ℕ := none
  deriving DecidableEq, Repr

/-- The answer of the resource manager to a request to map memory. -/
structure Reply where
  status : ℕ
  length : ℕ
  linearAddress : ℕ
  flags : ℕ
  deriving DecidableEq, Repr

/-- What one attempt to map meets. -/
structure Attempt where
  /-- The checks of the inverse operation. -/
  inverse : Except Failure Unit
  /-- The device file. -/
  fd : Except Failure Unit
  rm : Except Failure Reply
  /-- The address, or the number of the error. -/
  mmap : Except ℕ ℕ
  rollback : Stage → Resources → Result Unit
  /-- The destructor of a lease that was rolled back. -/
  drop : Stage → Resources → Result Unit
  /-- The eviction under pressure. -/
  evict : Stage → Resources → Result Unit

namespace Device

variable (d : Device)

/-- The bytes of the first reservation. -/
def charge (m : Memory) : Except Failure ℕ :=
  if m.chargeBar then
    match d.roundToCpuPages m.size with
    | none => .error ⟨.io "round BAR reservation", none⟩
    | some bytes => .ok bytes
  else .ok 0

/-- The closure of `map_once`: the extent, the size of the reservation and the VMA. -/
def mapVma (m : Memory) (a : Attempt) (r : Resources) (reply : Reply) :
    Except Failure ℕ × Lease × Device :=
  match d.cpuMappingExtent m.size m.owned reply.length reply.linearAddress with
  | .error e => (.error ⟨e, none⟩, .fresh r, d)
  | .ok (withinPage, size) =>
    match (if m.chargeBar then d.budget.resize r.bar size else .ok d.budget) with
    | .error e => (.error ⟨e, none⟩, .fresh r, d)
    | .ok budget =>
      let d := { d with budget := budget }
      let r := if m.chargeBar then { r with bar := size } else r
      match a.mmap with
      | .error errno => (.error ⟨.io "mmap NVIDIA allocation", some errno⟩, .fresh r, d)
      | .ok address =>
        -- Address zero is a mapping as well and is rolled back.
        if address = 0 then
          (.error ⟨.contract "mmap returned address zero", none⟩, .withVma r address size, d)
        else (.ok (address + withinPage), .withVma r address size, d)

/-- From the lease on. -/
def mapLease (m : Memory) (a : Attempt) (bytes : ℕ) (reply : Reply) : Except Failure Mapping × Device :=
  let d := { d with
    references := Function.update d.references m.handle (d.references m.handle + 1) }
  match d.mapVma m a ⟨m.handle, bytes, reply.linearAddress, reply.flags⟩ reply with
  | (.ok pointer, lease, d) => (.ok ⟨pointer, m.size, lease, m.owned⟩, d)
  | (.error failure, lease, d) =>
    match lease.tryUnmap a.rollback with
    | (.ok (), lease, dropped) => (.error failure, (d.settle dropped).dropLease lease a.drop)
    | (.error cleanup, lease, dropped) =>
      (.error ⟨.deviceLost (failure.error.display ++ "; CPU map rollback failed: " ++ cleanup.display), none⟩,
        { d.settle dropped with cpuMapFailed := true }.dropLease lease a.drop)

def mapOnce (m : Memory) (a : Attempt) : Except Failure Mapping × Device :=
  if m.size = 0 then (.error ⟨.contract "cannot CPU-map empty memory", none⟩, d)
  else
    match a.inverse with
    | .error failure => (.error failure, d)
    | .ok () =>
      match d.charge m with
      | .error failure => (.error failure, d)
      | .ok bytes =>
        match d.budget.resize 0 bytes with
        | .error e => (.error ⟨e, none⟩, d)
        | .ok budget =>
          let reserved := { d with budget := budget }
          match a.fd with
          | .error failure => (.error failure, reserved.refund bytes)
          | .ok () =>
            match a.rm with
            | .error failure => (.error failure, reserved.refund bytes)
            | .ok reply =>
              if reply.status ≠ 0 then
                (.error ⟨.rm "RM map memory" reply.status, none⟩, reserved.refund bytes)
              else reserved.mapLease m a bytes reply

end Device

/-- `map_pressure` -/
def Failure.pressure (f : Failure) : Bool :=
  match f.error with
  | .barPressure used requested limit => used ≠ 0 && limit ≠ 0 && requested ≤ limit
  | .io operation => operation = "mmap NVIDIA allocation" && f.errno = some 12
  | .rm operation status => operation = "RM map memory" && (status = 0x51 || status = 0x1a)
  | _ => false

namespace Device

variable (d : Device)

def evict (i : ℕ) (release : Stage → Resources → Result Unit) : Option (Result Bool × Device) :=
  match d.registry.slots i with
  | none => none
  | some s =>
    if s.entry.refs ≠ 0 then some (.ok false, d)
    else
      match s.entry.mapping with
      | none => some (.ok false, d)
      | some m =>
        match d.unmapMapping m release with
        | (.error e, left, d') =>
          some (.error e, { d' with
            registry := d.registry.modifyEntry i fun entry =>
              { entry with mapping := some left, failed := true } })
        | (.ok (), left, d') =>
          some (.ok true, { d'.dropLease left.lease release with
            registry := (d.registry.modifyEntry i fun entry =>
              { entry with mapping := none, failed := false }).unlink i })

def evictOne (release : Stage → Resources → Result Unit) : Option (Result Bool × Device) :=
  match d.registry.upgrade d.registry.head with
  | some i => d.evict i release
  | none => some (.ok false, d)

/-- The loop of `Memory::map`; `none` is the end of the fuel. -/
def mapLoop (m : Memory) (attempts : ℕ → Attempt) : ℕ → ℕ → Device → Option (Except Failure Mapping × Device)
  | 0, _, _ => none
  | fuel + 1, k, d =>
    if d.cpuMapFailed then
      some (.error ⟨.deviceLost "CPU mapping cleanup previously failed", none⟩, d)
    else
      match d.mapOnce m (attempts k) with
      | (.ok mapping, d) => some (.ok mapping, d)
      | (.error failure, d) =>
        if failure.pressure then
          match d.evictOne (attempts k).evict with
          | none => none
          | some (.ok true, d) => mapLoop m attempts fuel (k + 1) d
          | some (.ok false, d) => some (.error failure, d)
          | some (.error cleanup, d) =>
            some (.error ⟨.deviceLost ("CPU map pressure eviction failed: " ++ cleanup.display), none⟩,
              { d with cpuMapFailed := true })
        else some (.error failure, d)

/-- `Memory::map`. No more mappings can be evicted than there are slots. -/
def map (m : Memory) (attempts : ℕ → Attempt) : Option (Except Failure Mapping × Device) :=
  if m.huge then some (.error ⟨.contract "a GPU-internal pool block is never CPU-mapped", none⟩, d)
  else mapLoop m attempts (d.registry.created + 1) 0 d

/-- `Slot::acquire` with `Memory::map`. -/
def acquire (i : ℕ) (m : Memory) (attempts : ℕ → Attempt) : Option (Result Mapping × Device) :=
  match d.registry.slots i with
  | none => none
  | some s =>
    if s.entry.failed then
      some (.error (.deviceLost "CPU mapping slot has incomplete cleanup"), d)
    else if 2 ^ 32 ≤ s.entry.refs + 1 then
      some (.error (.contract "CPU mapping reference overflow"), d)
    else
      match s.entry.mapping with
      | some mapping =>
        some (.ok mapping, { d with
          registry := (d.registry.unlink i).modifyEntry i fun entry =>
            { entry with refs := s.entry.refs + 1 } })
      | none =>
        match { d with registry := d.registry.unlink i }.map m attempts with
        | none => none
        | some (.error failure, d) => some (.error failure.error, d)
        | some (.ok mapping, d) =>
          some (.ok mapping, { d with
            registry := d.registry.modifyEntry i fun entry =>
              { entry with mapping := some mapping, refs := s.entry.refs + 1 } })

/-- `Slot::release` -/
def release (i : ℕ) (answers : Stage → Resources → Result Unit) : Option (Result Unit × Device) :=
  match d.registry.slots i with
  | none => none
  | some s =>
    if s.entry.refs = 0 then some (.error (.contract "unmap RM memory without a CPU map"), d)
    else
      match s.entry.mapping with
      | none => some (.error (.contract "CPU map reference has no owned mapping"), d)
      | some m =>
        let refs := s.entry.refs - 1
        if refs = 0 ∧ m.retainIdle = false then
          match d.unmapMapping m answers with
          | (.error e, left, d') =>
            some (.error e, { d' with
              registry := d.registry.modifyEntry i fun entry =>
                { entry with mapping := some left, failed := true } })
          | (.ok (), left, d') =>
            some (.ok (), { d'.dropLease left.lease answers with
              registry := d.registry.modifyEntry i fun _ => ⟨none, refs, false⟩ })
        else
          let kept := d.registry.modifyEntry i fun entry => { entry with refs := refs }
          if refs = 0 then
            match kept.enqueueIdle i with
            | none => none
            | some r => some (.ok (), { d with registry := r })
          else some (.ok (), { d with registry := kept })

/-- The destructor of a slot: it unlinks, and its mapping is dropped. -/
def dropSlot (i : ℕ) (answers : Stage → Resources → Result Unit) : Option Device :=
  match d.registry.slots i, d.registry.drop i with
  | some s, some r =>
    let d := { d with registry := r }
    some (s.entry.mapping.elim d fun m => d.dropLease m.lease answers)
  | _, _ => none

end Device

inductive Action
  | slot
  | map (m : Memory) (attempts : ℕ → Attempt)
  | acquire (i : ℕ) (m : Memory) (attempts : ℕ → Attempt)
  | release (i : ℕ) (answers : Stage → Resources → Result Unit)
  | evict (i : ℕ) (answers : Stage → Resources → Result Unit)
  | evictOne (answers : Stage → Resources → Result Unit)
  | dropSlot (i : ℕ) (answers : Stage → Resources → Result Unit)
  /-- `try_unmap` of a mapping outside the cache. -/
  | unmap (k : ℕ) (answers : Stage → Resources → Result Unit)
  | drop (k : ℕ) (answers : Stage → Resources → Result Unit)

namespace Device

def start (page width limit : ℕ) : Device where
  page := page
  width := width
  budget := ⟨0, limit⟩

def step (d : Device) : Action → Option Device
  | .slot => some { d with registry := d.registry.slot }
  | .map m attempts =>
    match d.map m attempts with
    | none => none
    | some (.error _, d) => some d
    | some (.ok mapping, d) => some { d with held := mapping :: d.held }
  | .acquire i m attempts => (d.acquire i m attempts).map Prod.snd
  | .release i answers => (d.release i answers).map Prod.snd
  | .evict i answers => (d.evict i answers).map Prod.snd
  | .evictOne answers => (d.evictOne answers).map Prod.snd
  | .dropSlot i answers => d.dropSlot i answers
  | .unmap k answers =>
    d.held[k]?.map fun m =>
      let out := d.unmapMapping m answers
      { out.2.2 with held := d.held.set k out.2.1 }
  | .drop k answers =>
    d.held[k]?.map fun m => { d with held := d.held.eraseIdx k }.dropLease m.lease answers

end Device

end NvidiaProlapse.CpuLeases
