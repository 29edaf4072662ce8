import Mathlib.Tactic
import Mathlib.Data.UInt

/-!
# Layouts of buffers two processes agree on

The allocator computes offsets and sizes in 32 and 64 bits, the user of the buffer derives the
ranges it accesses from the strides and offsets alone.
-/
namespace NvidiaProlapse.BufferLayouts

/-- Round up in 64 bits; for a power of two the mask of `ALLOC_ALIGN` is the division. -/
def alignUp (v a : ℕ) : ℕ := (v + a - 1) % 2 ^ 64 / a * a

lemma le_alignUp {v a : ℕ} (ha : 0 < a) (h : v + a - 1 < 2 ^ 64) : v ≤ alignUp v a := by
  have hdiv := Nat.lt_div_mul_add (a := v + a - 1) ha
  rw [alignUp, Nat.mod_eq_of_lt h]
  omega

lemma alignUp_le (v a : ℕ) : alignUp v a ≤ v + a - 1 :=
  (Nat.div_mul_le_self ..).trans (Nat.mod_le ..)

/-! ## CPU buffers of the guest -/

def fourcc (a b c d : Char) : ℕ := a.toNat + 2 ^ 8 * b.toNat + 2 ^ 16 * c.toNat + 2 ^ 24 * d.toNat

def nv12 : ℕ := fourcc 'N' 'V' '1' '2'

def drmFormatBpp (format : ℕ) : ℕ :=
  if format = fourcc 'R' '8' ' ' ' ' then 1
  else if format = fourcc 'R' 'G' '1' '6' then 2
  else if format = fourcc 'A' 'B' '4' 'H' then 8
  else 4

def bytesPerPixel (format : ℕ) : ℕ := if format = nv12 then 1 else drmFormatBpp format

/-- Stride and size that `vtest_gpu_alloc_cpu` asks for; `none` is `-EINVAL`. -/
def allocCpu (width height format : UInt32) : Option (ℕ × ℕ) :=
  let w := width.toNat
  let h := height.toNat
  let row := w * bytesPerPixel format.toNat % 2 ^ 64
  if w = 0 ∨ h = 0 ∨ row > 2 ^ 32 - 1 - 255 then none
  else
    let stride := alignUp row 256 % 2 ^ 32
    let bytes :=
      if format.toNat = nv12 then
        (stride * h % 2 ^ 64 + stride * ((h + 1) % 2 ^ 32 / 2) % 2 ^ 64) % 2 ^ 64
      else stride * h % 2 ^ 64
    some (stride, alignUp bytes 4096)

/-- The bytes of the planes where the guest places them. -/
def guestBytes (stride height format : ℕ) : ℕ :=
  stride * height + if format = nv12 then stride * ((height + 1) / 2) else 0

lemma bytesPerPixel_le (format : ℕ) : bytesPerPixel format ≤ 8 := by
  unfold bytesPerPixel drmFormatBpp
  split_ifs <;> omega

lemma stride_eq {row : ℕ} (hrow : row ≤ 2 ^ 32 - 1 - 255) :
    alignUp row 256 % 2 ^ 32 = 256 * ((row + 255) / 256) := by
  unfold alignUp
  omega

/-- The buffer covers the planes, but for NV12 whose sums leave their 32 or 64 bits. -/
theorem allocCpu_covers_iff (width height format : UInt32) (stride size : ℕ)
    (halloc : allocCpu width height format = some (stride, size)) :
    256 ∣ stride ∧ width.toNat * bytesPerPixel format.toNat ≤ stride ∧
      (guestBytes stride height.toNat format.toNat ≤ size ↔ format.toNat ≠ nv12 ∨
        height.toNat ≠ 2 ^ 32 - 1 ∧
          guestBytes (256 * ((width.toNat + 255) / 256)) height.toNat nv12 + 4095 < 2 ^ 64) := by
  have hw := width.toNat_lt
  have hh := height.toNat_lt
  have hbpp := bytesPerPixel_le format.toNat
  have hrow : width.toNat * bytesPerPixel format.toNat < 2 ^ 64 := by nlinarith
  simp only [allocCpu, Nat.mod_eq_of_lt hrow] at halloc
  split_ifs at halloc with hbad hnv
  all_goals
    obtain ⟨rfl, rfl⟩ := Prod.mk.inj (Option.some.inj halloc)
    rw [stride_eq (by omega)]
    refine ⟨dvd_mul_right .., by omega, ?_⟩
  · -- NV12: the rows of the second plane and the sum of both planes may wrap.
    have hone : bytesPerPixel nv12 = 1 := if_pos rfl
    have hpos : 256 ≤ 256 * ((width.toNat + 255) / 256) := by omega
    simp only [hnv, hone, mul_one, guestBytes, if_true, ne_eq, not_true_eq_false, false_or]
    generalize 256 * ((width.toNat + 255) / 256) = stride at hpos
    by_cases hmax : height.toNat = 2 ^ 32 - 1
    · have hrows : (2 ^ 32 - 1 + 1) % 2 ^ 32 / 2 = 0 := rfl
      simp only [hmax, hrows, mul_zero, Nat.zero_mod, add_zero, Nat.mod_mod, not_true_eq_false,
        false_and, iff_false, not_le]
      have hle := alignUp_le (stride * (2 ^ 32 - 1) % 2 ^ 64) 4096
      have hmod := Nat.mod_le (stride * (2 ^ 32 - 1)) (2 ^ 64)
      omega
    · have hrows : (height.toNat + 1) % 2 ^ 32 = height.toNat + 1 := Nat.mod_eq_of_lt (by omega)
      simp only [hrows, hmax, alignUp, not_false_eq_true, true_and]
      omega
  · -- Other formats: the product of two 32-bit factors leaves room for the rounding.
    have hmul := Nat.mul_le_mul (show 256 * ((width.toNat * bytesPerPixel format.toNat + 255) / 256) ≤
      2 ^ 32 - 256 by omega) (show height.toNat ≤ 2 ^ 32 - 1 by omega)
    simp only [guestBytes, hnv, if_false, add_zero, ne_eq, not_false_eq_true, true_or, iff_true]
    rw [Nat.mod_eq_of_lt (by omega)]
    exact le_alignUp (by omega) (by omega)

/-- The smallest NV12 buffer. -/
theorem allocCpu_covers_smallest : guestBytes 256 1 nv12 ≤ 4096 :=
  (allocCpu_covers_iff 1 1 (.ofNat nv12) 256 4096 (by decide)).2.2.mpr (by decide)

/-- With the largest height the second plane has no rows in the size. -/
theorem allocCpu_too_small : ∃ stride size, allocCpu 1 (2 ^ 32 - 1) (.ofNat nv12) = some (stride, size) ∧
    size < guestBytes stride (2 ^ 32 - 1) nv12 := ⟨256, _, rfl, by decide⟩

/-! ## Two planes -/

/-- What the driver answers for a plane of a disjoint image. -/
structure Requirement where
  size : ℕ
  alignment : ℕ

/-- The offset of a plane that is proposed at `proposed`, after the planes before `stop`. -/
def placePlane (req : Requirement) (proposed stop : ℕ) : Option ℕ :=
  let offset := alignUp (max proposed stop) (if req.alignment = 0 then 1 else req.alignment)
  if offset > 2 ^ 32 - 1 then none else some offset

lemma placePlane_spec {req : Requirement} {proposed stop offset : ℕ} (hpos : 0 < req.alignment)
    (h : placePlane req proposed stop = some offset) :
    offset < 2 ^ 32 ∧ req.alignment ∣ offset ∧
      (proposed + req.alignment ≤ 2 ^ 64 → stop + req.alignment ≤ 2 ^ 64 → stop ≤ offset) := by
  simp only [placePlane, hpos.ne', if_false] at h
  split_ifs at h with hbig
  obtain rfl := Option.some.inj h
  refine ⟨by omega, dvd_mul_left .., fun hproposed hstop => ?_⟩
  exact (le_max_right ..).trans (le_alignUp hpos (by omega))

structure PlaneLayout where
  offset₀ : ℕ
  offset₁ : ℕ
  total : ℕ

/-- The layout of `nvg_plane_layout`; the whole image has a requirement too. -/
def nvgPlaneLayout (luma chroma : Requirement) (whole proposed₀ proposed₁ : ℕ) : Option PlaneLayout :=
  (placePlane luma proposed₀ 0).bind fun offset₀ =>
    (placePlane chroma proposed₁ ((offset₀ + luma.size) % 2 ^ 64)).map fun offset₁ =>
      ⟨offset₀, offset₁, max whole ((offset₁ + chroma.size) % 2 ^ 64)⟩

/-- The importer refuses a plane, in `gbuf_get` or in `yuv_layout_bindable`. -/
def planeRefused (req : Requirement) (offset stride rows stopBefore total : ℕ) : Bool :=
  stride = 0 ∨ (offset + stride * rows % 2 ^ 64) % 2 ^ 64 > total ∨ req.alignment = 0 ∨
    offset % req.alignment ≠ 0 ∨ (offset + req.size) % 2 ^ 64 > total ∨ offset < stopBefore % 2 ^ 64

/-- The bounds as natural numbers. -/
structure Bindable (req : Requirement) (offset stride rows stopBefore total : ℕ) : Prop where
  stride_ne : stride ≠ 0
  rows_fit : offset + stride * rows ≤ total
  aligned : req.alignment ≠ 0 ∧ req.alignment ∣ offset
  fits : offset + req.size ≤ total
  apart : stopBefore ≤ offset

lemma Bindable.accepted {req : Requirement} {offset stride rows rows' stopBefore total : ℕ}
    (h : Bindable req offset stride rows stopBefore total) (hrows : rows' ≤ rows) :
    planeRefused req offset stride rows' stopBefore total = false := by
  obtain ⟨hstride, hfit, halign, hsize, hapart⟩ := h
  have hmul := Nat.mul_le_mul_left stride hrows
  have hdvd := Nat.mod_eq_zero_of_dvd halign.2
  simp only [planeRefused, decide_eq_false_iff_not]
  omega

/-- Every layout is one the importer accepts, for requirements that leave the sums in 64 bits. -/
theorem nvgPlaneLayout_bindable (luma chroma : Requirement) (whole proposed₀ proposed₁ : ℕ)
    (height stride₀ stride₁ : ℕ) (layout : PlaneLayout)
    (hstrides : stride₀ ≠ 0 ∧ stride₁ ≠ 0) (halign : 0 < luma.alignment ∧ 0 < chroma.alignment)
    (hsizes : stride₀ * height ≤ luma.size ∧ stride₁ * ((height + 1) / 2) ≤ chroma.size)
    (hproposed : proposed₁ < 2 ^ 32)
    (hroom : luma.size + chroma.alignment ≤ 2 ^ 64 - 2 ^ 32 ∧ chroma.size ≤ 2 ^ 64 - 2 ^ 32)
    (hlayout : nvgPlaneLayout luma chroma whole proposed₀ proposed₁ = some layout) :
    Bindable luma layout.offset₀ stride₀ height 0 layout.total ∧
      Bindable chroma layout.offset₁ stride₁ ((height + 1) / 2) (layout.offset₀ + luma.size) layout.total ∧
      planeRefused luma layout.offset₀ stride₀ height 0 layout.total = false ∧
      planeRefused chroma layout.offset₁ stride₁ ((height + 1) % 2 ^ 32 / 2)
        (layout.offset₀ + luma.size) layout.total = false := by
  simp only [nvgPlaneLayout, Option.bind_eq_some_iff, Option.map_eq_some_iff] at hlayout
  obtain ⟨offset₀, h₀, offset₁, h₁, rfl⟩ := hlayout
  obtain ⟨hlt₀, hdvd₀, -⟩ := placePlane_spec halign.1 h₀
  obtain ⟨hlt₁, hdvd₁, hafter⟩ := placePlane_spec halign.2 h₁
  rw [Nat.mod_eq_of_lt (by omega)] at hafter
  have hstop := hafter (by omega) (by omega)
  simp only [Nat.mod_eq_of_lt (show offset₁ + chroma.size < 2 ^ 64 by omega)]
  have hluma : Bindable luma offset₀ stride₀ height 0 (max whole (offset₁ + chroma.size)) :=
    ⟨hstrides.1, by omega, ⟨halign.1.ne', hdvd₀⟩, by omega, Nat.zero_le _⟩
  have hchroma : Bindable chroma offset₁ stride₁ ((height + 1) / 2) (offset₀ + luma.size)
      (max whole (offset₁ + chroma.size)) :=
    ⟨hstrides.2, by omega, ⟨halign.2.ne', hdvd₁⟩, by omega, hstop⟩
  exact ⟨hluma, hchroma, hluma.accepted le_rfl, hchroma.accepted (by omega)⟩

theorem nvgPlaneLayout_bindable_smallest :
    nvgPlaneLayout ⟨512, 32⟩ ⟨256, 32⟩ 0 0 512 = some ⟨0, 512, 768⟩ ∧ Bindable ⟨256, 32⟩ 512 256 1 512 768 :=
  ⟨rfl, (nvgPlaneLayout_bindable ⟨512, 32⟩ ⟨256, 32⟩ 0 0 512 2 256 256 ⟨0, 512, 768⟩ (by decide) (by decide)
    (by decide) (by decide) (by decide) rfl).2.1⟩

/-- A requirement near the end of the 64 bits wraps and puts the second plane into the first. -/
theorem nvgPlaneLayout_wraps : ∃ layout, nvgPlaneLayout ⟨2 ^ 64 - 1, 1⟩ ⟨1, 2⟩ 0 0 0 = some layout ∧
    planeRefused ⟨2 ^ 64 - 1, 1⟩ layout.offset₀ 1 1 0 layout.total = true := ⟨_, rfl, by decide⟩

end NvidiaProlapse.BufferLayouts
