import Mathlib.Tactic

/-!
# Binding images to memory

`vkBindImageMemory2` realises images of a swapchain itself and passes the other binds on. The
chains of all binds are checked first. Whether an image of a hardware buffer is bound to its own
memory is checked after the images of the swapchain are realised.
-/
namespace NvidiaProlapse.ImageBinds

inductive Kind where
  | swapchain
  | ahb
  | none
  deriving DecidableEq

structure Bind where
  image : ℕ
  /-- Zero is `VK_NULL_HANDLE`. -/
  memory : ℕ
  offset : ℕ := 0
  nativeBuffer : Option ℕ := none
  swapchainInfo : Bool := false
  /-- The chain holds a structure that is not implemented for an image of a swapchain. -/
  otherChained : Bool := false

structure Hal where
  kind : ℕ → Kind
  /-- The wrapper is of another device. -/
  foreign : ℕ → Bool := fun _ => false
  /-- The ICD image of a wrapper. -/
  real : ℕ → Option ℕ
  /-- The memory of a wrapper. -/
  memory : ℕ → ℕ
  /-- Block images of an emulated image with their offsets. -/
  blocks : ℕ → List (ℕ × ℕ)
  /-- What the ICD was called with. -/
  passed : List Bind := []

inductive Failure where
  | check
  | hostMemory
  | icd
  deriving DecidableEq

/-- Answers of the allocator and the ICD. -/
structure Answers where
  rest : Bool := true
  copy : Bool := true
  expand : Bool := true
  /-- ICD image and memory of a gralloc buffer that could be imported. -/
  imported : Bind → Option (ℕ × ℕ)
  bound : Bool := true

def Hal.isSwapchain (h : Hal) (b : Bind) : Bool := h.kind b.image = .swapchain

/-- The first loop refuses a bind. -/
def Hal.refuses (h : Hal) (b : Bind) : Bool :=
  if h.isSwapchain b then
    b.nativeBuffer.isNone || !b.swapchainInfo || b.memory != 0 || b.otherChained
  else b.nativeBuffer.isSome || b.swapchainInfo

variable (a : Answers)

def scBind (h : Hal) (b : Bind) : Option Failure × Hal :=
  if h.foreign b.image || (h.real b.image).isSome then (some .check, h)
  else match a.imported b with
    | none => (some .icd, h)
    | some (image, memory) => (none, { h with
        real := Function.update h.real b.image (some image)
        memory := Function.update h.memory b.image memory })

/-- All images of a swapchain are tried; the first failure is the result. -/
def bindSwapchains (h : Hal) : List Bind → Option Failure × Hal
  | [] => (none, h)
  | b :: binds =>
    let (failed, h) := scBind a h b
    let (later, h) := bindSwapchains h binds
    (failed.or later, h)

/-- Replace the images of hardware buffers, in a copy that holds `n` binds. -/
def translateBinds (h : Hal) (n : ℕ) (copied : Bool) : List Bind → Except Failure (List Bind)
  | [] => .ok []
  | b :: binds =>
    if h.kind b.image ≠ .ahb then (translateBinds h n copied binds).map (b :: ·)
    else match h.real b.image with
      | none => .error .check
      | some image =>
        if h.memory b.image ≠ b.memory ∨ b.offset ≠ 0 then .error .check
        else if !copied ∧ 8 < n ∧ !a.copy then .error .hostMemory
        else (translateBinds h n true binds).map ({ b with image } :: ·)

def expandBinds (h : Hal) (binds : List Bind) : Except Failure (List Bind) :=
  if binds.all fun b => (h.blocks b.image).isEmpty then .ok binds
  else if !a.expand then .error .hostMemory
  else .ok (binds.flatMap fun b =>
    b :: (h.blocks b.image).map fun (image, offset) =>
      { image, memory := b.memory, offset := b.offset + offset })

/-- What is passed on of the binds that are not of a swapchain. -/
def prepareRest (h : Hal) (n : ℕ) (rest : List Bind) : Except Failure (List Bind) :=
  if rest.length < n ∧ 8 < rest.length ∧ !a.rest then .error .hostMemory
  else match translateBinds a h rest.length false rest with
    | .error e => .error e
    | .ok binds => expandBinds a h binds

def passRest (h : Hal) (n : ℕ) (rest : List Bind) : Except Failure Unit × Hal :=
  if rest.isEmpty then (.ok (), h)
  else match prepareRest a h n rest with
    | .error e => (.error e, h)
    | .ok binds => (if a.bound then .ok () else .error .icd, { h with passed := h.passed ++ binds })

def bind2 (h : Hal) (binds : List Bind) : Except Failure Unit × Hal :=
  if binds.any h.refuses then (.error .check, h)
  else match bindSwapchains a h (binds.filter h.isSwapchain) with
    | (some e, h) => (.error e, h)
    | (none, h) => passRest a h binds.length (binds.filter fun b => !h.isSwapchain b)

/-- An image of a swapchain that can be realised. -/
def Hal.Unbound (h : Hal) (b : Bind) : Prop := h.foreign b.image = false ∧ h.real b.image = none

/-- An image of a hardware buffer is bound to the memory of its buffer. -/
def Hal.Matched (h : Hal) (b : Bind) : Prop :=
  h.kind b.image = .ahb → (h.real b.image).isSome ∧ h.memory b.image = b.memory ∧ b.offset = 0

variable {e : Failure} {binds : List Bind} {h : Hal}

lemma passRest_unchanged (h : Hal) (n : ℕ) (rest : List Bind)
    (he : (passRest a h n rest).1 = .error e) (hicd : e ≠ .icd) : (passRest a h n rest).2 = h := by
  unfold passRest at he ⊢
  cases hp : prepareRest a h n rest with
  | error => split_ifs <;> rfl
  | ok t =>
    -- Where the ICD was called, the failure is its own.
    cases hbound : a.bound <;> split_ifs <;> simp_all

lemma translateBinds_ok (n : ℕ) (hcopy : a.copy = true) (copied : Bool)
    (hbinds : ∀ b ∈ binds, h.Matched b) : ∃ t, translateBinds a h n copied binds = .ok t := by
  induction binds generalizing copied with
  | nil => exact ⟨[], rfl⟩
  | cons b binds ih =>
    have hrest := fun copied => ih copied fun x hx => hbinds x (.tail _ hx)
    by_cases hk : h.kind b.image = .ahb
    · obtain ⟨hreal, hm, ho⟩ := hbinds b (.head _) hk
      obtain ⟨image, himage⟩ := Option.isSome_iff_exists.mp hreal
      obtain ⟨t, ht⟩ := hrest true
      exact ⟨{ b with image } :: t, by simp [translateBinds, hk, himage, hm, ho, hcopy, ht, Except.map]⟩
    · obtain ⟨t, ht⟩ := hrest copied
      exact ⟨b :: t, by simp [translateBinds, hk, ht, Except.map]⟩

lemma passRest_fails (n : ℕ) {rest : List Bind}
    (halloc : a.rest = true ∧ a.copy = true ∧ a.expand = true) (hrest : ∀ b ∈ rest, h.Matched b)
    (he : (passRest a h n rest).1 = .error e) : e = .icd := by
  obtain ⟨t, ht⟩ := translateBinds_ok a rest.length halloc.2.1 false hrest
  have hp : ∃ x, prepareRest a h n rest = .ok x := by
    by_cases hb : t.all fun b => (h.blocks b.image).isEmpty <;>
      simp [prepareRest, halloc, ht, expandBinds, hb]
  obtain ⟨x, hx⟩ := hp
  unfold passRest at he
  cases hbound : a.bound <;> split_ifs at he <;> simp_all

/-- Fresh images fail only in the ICD, and wrappers of other kinds stay as they were. -/
lemma bindSwapchains_fresh (hfresh : ∀ b ∈ binds, h.Unbound b)
    (hnodup : (binds.map Bind.image).Nodup) :
    (∀ e, (bindSwapchains a h binds).1 = some e → e = .icd) ∧
      (bindSwapchains a h binds).2.kind = h.kind ∧
      ∀ i, i ∉ binds.map Bind.image → (bindSwapchains a h binds).2.real i = h.real i ∧
        (bindSwapchains a h binds).2.memory i = h.memory i := by
  induction binds generalizing h with
  | nil => simp [bindSwapchains]
  | cons b binds ih =>
    obtain ⟨hforeign, hreal⟩ := hfresh b (.head _)
    obtain ⟨hb, hnodup⟩ := List.nodup_cons.mp hnodup
    cases himport : a.imported b with
    | none =>
      obtain ⟨hf, hk, hi⟩ := ih (fun x hx => hfresh x (.tail _ hx)) hnodup
      simp only [bindSwapchains, scBind, hforeign, hreal, himport]
      exact ⟨by simp, hk, fun i hi' => hi i fun h => hi' (.tail _ h)⟩
    | some p =>
      have hfresh' : ∀ x ∈ binds, Hal.Unbound { h with
          real := Function.update h.real b.image (some p.1)
          memory := Function.update h.memory b.image p.2 } x := by
        intro x hx
        obtain ⟨hxf, hxr⟩ := hfresh x (.tail _ hx)
        have hne : x.image ≠ b.image := fun h => hb (h ▸ List.mem_map_of_mem hx)
        exact ⟨hxf, by simp [hne, hxr]⟩
      obtain ⟨hf, hk, hi⟩ := ih hfresh' hnodup
      simp only [bindSwapchains, scBind, hforeign, hreal, himport]
      refine ⟨by simpa using hf, hk, fun i hi' => ?_⟩
      simp only [List.map_cons, List.mem_cons, not_or] at hi'
      simpa [hi'.1] using hi i hi'.2

/-- One image of a swapchain and one of a hardware buffer in memory 7. -/
def mixed : Hal where
  kind i := if i = 0 then .swapchain else .ahb
  real i := if i = 0 then none else some 20
  memory _ := 7
  blocks _ := []

def answers : Answers where
  imported _ := some (10, 11)

def mixedBinds (memory : ℕ) : List Bind :=
  [{ image := 0, memory := 0, nativeBuffer := some 1, swapchainInfo := true },
    { image := 1, memory }]

end NvidiaProlapse.ImageBinds
