import Mathlib.Tactic

/-!
# Consecutive windows of a ring

Items of varying size are laid one after another around a ring of `n` cells.
Positions are counted without wrapping; a cell is a position modulo `n`. As
long as the items together are no longer than the ring, their cells are
pairwise disjoint.
-/
namespace NvidiaProlapse.RingLayout
open List

variable {α : Type*}

/-- The `length` cells of a ring of `n` cells from position `start` on. -/
def window (n start length : ℕ) : List ℕ :=
  (List.range length).map fun i => (start + i) % n

variable {start stop : ℕ} {items : List α} {a : α}

lemma mem_window {n length cell : ℕ} :
    cell ∈ window n start length ↔ ∃ i, i < length ∧ (start + i) % n = cell := by
  simp [window]

lemma window_one (n start : ℕ) : window n start 1 = [start % n] := by
  simp [window]

lemma window_cons (n start length : ℕ) :
    window n start (length + 1) = start % n :: window n (start + 1) length := by
  simp only [window, range_succ_eq_map, map_cons, map_map, add_zero]
  congr 1
  apply map_congr_left
  intro i _
  simp only [Function.comp_apply]
  congr 1
  omega

/-- Two windows inside one turn of the ring share no cell. -/
lemma window_disjoint {n a b la lb : ℕ} (hab : a + la ≤ b) (hturn : b + lb ≤ a + n) :
    (window n a la).Disjoint (window n b lb) := by
  intro cell ha hb
  obtain ⟨i, hi, rfl⟩ := mem_window.mp ha
  obtain ⟨j, hj, he⟩ := mem_window.mp hb
  have hle : a + i ≤ b + j := by omega
  have hd : n ∣ (b + j) - (a + i) := (Nat.modEq_iff_dvd' hle).mp he.symm
  have hz := Nat.eq_zero_of_dvd_of_lt hd (by omega)
  omega

/-- The items of a list lie one after another from position `start` to `stop`. -/
def Laid (n : ℕ) (size : α → ℕ) (cells : α → List ℕ) : ℕ → List α → ℕ → Prop
  | start, [], stop => start = stop
  | start, a :: rest, stop =>
    cells a = window n start (size a) ∧ Laid n size cells (start + size a) rest stop

variable {n : ℕ} {size : α → ℕ} {cells : α → List ℕ}

section

variable (h : Laid n size cells start items stop)

include h

lemma Laid.stop_eq : stop = start + (items.map size).sum := by
  induction items generalizing start with
  | nil =>
    simp only [Laid] at h
    simp [h]
  | cons a rest ih =>
    have := ih h.2
    simp only [map_cons, sum_cons]
    omega

/-- One more item after the last. -/
lemma Laid.append (ha : cells a = window n stop (size a)) :
    Laid n size cells start (items ++ [a]) (stop + size a) := by
  induction items generalizing start with
  | nil =>
    subst h
    exact ⟨ha, rfl⟩
  | cons b rest ih => exact ⟨h.1, ih h.2⟩

/-- The layout only depends on the cells of its own items. -/
lemma Laid.congr (cells' : α → List ℕ) (heq : ∀ a ∈ items, cells' a = cells a) :
    Laid n size cells' start items stop := by
  induction items generalizing start with
  | nil => exact h
  | cons a rest ih =>
    refine ⟨(heq a (by simp)).trans h.1, ih h.2 ?_⟩
    intro b hb
    exact heq b (by simp [hb])

end

/-- What is left of a layout after its front part. -/
lemma Laid.of_append {before : List α} (h : Laid n size cells start (before ++ items) stop) :
    ∃ middle, Laid n size cells middle items stop := by
  induction before generalizing start with
  | nil => exact ⟨start, h⟩
  | cons a rest ih => exact ih h.2

section

variable (h : Laid n size cells start items stop)

include h

/-- The last item of a layout ends where the layout ends. -/
lemma Laid.getLast (ha : items.getLast? = some a) :
    ∃ position, position + size a = stop ∧ cells a = window n position (size a) := by
  induction items generalizing start with
  | nil => simp at ha
  | cons b rest ih =>
    cases rest with
    | nil =>
      simp only [getLast?_singleton, Option.some.injEq] at ha
      subst ha
      exact ⟨start, h.2, h.1⟩
    | cons c rest => exact ih h.2 (by simpa using ha)

/-- Each item of a layout is a window between the ends of the layout. -/
lemma Laid.mem (ha : a ∈ items) :
    ∃ position, start ≤ position ∧ position + size a ≤ stop ∧
      cells a = window n position (size a) := by
  induction items generalizing start with
  | nil => simp at ha
  | cons b rest ih =>
    have hstop := h.2.stop_eq
    rcases mem_cons.mp ha with rfl | hrest
    · exact ⟨start, le_rfl, by omega, h.1⟩
    · obtain ⟨position, hlo, hhi, hc⟩ := ih h.2 hrest
      exact ⟨position, by omega, hhi, hc⟩

/-- Items that fit in one turn of the ring have pairwise disjoint cells. -/
lemma Laid.pairwise_disjoint (hturn : stop ≤ start + n) :
    items.Pairwise fun a b => (cells a).Disjoint (cells b) := by
  induction items generalizing start with
  | nil => exact List.Pairwise.nil
  | cons a rest ih =>
    refine List.Pairwise.cons ?_ (ih h.2 (by omega))
    intro b hb
    obtain ⟨position, hlo, hhi, hc⟩ := h.2.mem hb
    rw [h.1, hc]
    exact window_disjoint hlo (by omega)

end

end NvidiaProlapse.RingLayout
