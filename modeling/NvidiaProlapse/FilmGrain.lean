import NvidiaProlapse.Av1
import NvidiaProlapse.Av1TileGroups

/-!
# Scaling tables of AV1 film grain

A component has points, each a value and its scaling. The table fills the entries between two
points by a reciprocal of their distance in 16 bits of fraction. The parser bounds the number of
points and does not compare their values, so two equal values next to each other divide by zero.
-/
namespace NvidiaProlapse.Av1.FilmGrain

structure Point where
  value : ℕ
  scaling : ℕ
  value_lt : value < 256
  scaling_lt : scaling < 256

/-- The points of a component at bit `pos`, at most 14 of luma and 10 of a chroma component. -/
def readPoints (data : List UInt8) (pos limit : ℕ) (field : String) : AResult (List Point) :=
  let num := TileGroups.readBits data pos 4
  let byte (i : ℕ) := (TileGroups.readBits data (pos + 4 + 8 * i) 8).toUInt8
  if 8 * data.length < pos + 4 then .error (.truncated "f(n)")
  else if limit < num then .error (.invalid field)
  else if 8 * data.length < pos + 4 + 16 * num then .error (.truncated "f(n)")
  else .ok ((List.range num).map fun i =>
    ⟨(byte (2 * i)).toNat, (byte (2 * i + 1)).toNat, UInt8.toNat_lt _, UInt8.toNat_lt _⟩)

/-- The bytes written so far, by index. -/
abbrev Lut := ℕ → Option ℕ

/-- Write the entries from `start` on and before `stop`. -/
def Lut.fill (lut : Lut) (start stop : ℕ) (entry : ℕ → ℕ) : Lut := fun i =>
  if start ≤ i ∧ i < stop then some (entry i) else lut i

/-- `scaling[i] + ((x * delta + 32768) >> 16)` in `i32`, as a byte. -/
def entry (p : Point) (delta : ℤ) (i : ℕ) : ℕ :=
  ((p.scaling + (((i : ℤ) - p.value) * delta + 32768) / 65536) % 256).toNat

/-- The reciprocal of a distance, rounded towards zero. -/
def reciprocal (dx : ℤ) : ℤ := (65536 + dx / 2).tdiv dx

/-- The `delta` between two points; the division by zero is `none`. -/
def slope (p q : Point) : Option ℤ :=
  let dx : ℤ := q.value - p.value
  if dx = 0 then none else some ((q.scaling - p.scaling) * reciprocal dx)

/-- The loop over the points, with the fill after the last one. -/
def segments (lut : Lut) : List Point → Option Lut
  | [] => some lut
  | [p] => some (lut.fill p.value 256 fun _ => p.scaling)
  | p :: q :: points =>
    (slope p q).bind fun delta => segments (lut.fill p.value q.value (entry p delta)) (q :: points)

def scalingLut : List Point → Option Lut
  | [] => some (Lut.fill (fun _ => none) 0 256 fun _ => 0)
  | p :: points => segments (Lut.fill (fun _ => none) 0 p.value fun _ => p.scaling) (p :: points)

/-- The entries from the first point on. -/
structure Drawn (points : List Point) (lut : Lut) : Prop where
  filled : ∀ p ∈ points.head?, ∀ i < 256, p.value ≤ i → (lut i).isSome
  exact : ∀ p ∈ points, lut p.value = some p.scaling
  after : ∀ p ∈ points.getLast?, ∀ i < 256, p.value ≤ i → lut i = some p.scaling
  between : points.IsChain fun p q => ∀ i, p.value ≤ i → i < q.value →
    ∃ y, lut i = some y ∧ min p.scaling q.scaling ≤ y ∧ y ≤ max p.scaling q.scaling

structure Interpolates (points : List Point) (lut : Lut) : Prop extends Drawn points lut where
  total : ∀ i < 256, (lut i).isSome
  before : ∀ p ∈ points.head?, ∀ i < p.value, lut i = some p.scaling

variable {p q : Point} {points : List Point} {lut : Lut} {i : ℕ} {delta : ℤ}

lemma entry_self : entry p delta p.value = p.scaling := by
  have := p.scaling_lt
  simp [entry]
  omega

/-- The steps before the next point add up to at most one. -/
lemma steps_mem (x dx : ℤ) (hx : 0 ≤ x) (hlt : x < dx) (hdx : dx < 256) :
    0 ≤ x * reciprocal dx ∧ x * reciprocal dx ≤ 65536 := by
  unfold reciprocal
  rw [Int.tdiv_eq_ediv_of_nonneg (by omega)]
  have hdiv := Int.mul_ediv_self_le (x := 65536 + dx / 2) (k := dx) (by omega)
  have hpos : 0 ≤ (65536 + dx / 2) / dx := Int.ediv_nonneg (by omega) (by omega)
  exact ⟨mul_nonneg hx hpos, by nlinarith [Int.ediv_mul_le dx (b := 2) (by omega)]⟩

lemma entry_mem (hslope : slope p q = some delta) (hle : p.value ≤ i) (hlt : i < q.value) :
    min p.scaling q.scaling ≤ entry p delta i ∧ entry p delta i ≤ max p.scaling q.scaling := by
  have hp := p.scaling_lt
  have hq := q.scaling_lt
  have hv := q.value_lt
  simp only [slope] at hslope
  rw [if_neg (by omega), Option.some_inj] at hslope
  subst hslope
  obtain ⟨hpos, hle'⟩ :=
    steps_mem (i - p.value) (q.value - p.value) (by omega) (by omega) (by omega)
  simp only [entry, mul_left_comm ((i : ℤ) - p.value)]
  generalize ((i : ℤ) - p.value) * _ = steps at hpos hle'
  by_cases hup : p.scaling ≤ q.scaling
  · have hlow : 0 ≤ ((q.scaling : ℤ) - p.scaling) * steps := mul_nonneg (by omega) hpos
    have hhigh := mul_le_mul_of_nonneg_left hle' (a := (q.scaling : ℤ) - p.scaling) (by omega)
    omega
  · have hhigh := mul_nonpos_of_nonpos_of_nonneg (a := (q.scaling : ℤ) - p.scaling) (by omega) hpos
    have hlow := mul_le_mul_of_nonpos_left hle' (c := (q.scaling : ℤ) - p.scaling) (by omega)
    omega

lemma segments_none_iff : segments lut points = none ↔ ¬points.IsChain (·.value ≠ ·.value) := by
  induction points generalizing lut with
  | nil => simp [segments]
  | cons p points ih =>
    cases points with
    | nil => simp [segments]
    | cons q points =>
      simp only [segments, Option.bind_eq_none_iff, List.isChain_cons_cons, ih, slope]
      by_cases heq : p.value = q.value
      · simp [heq]
      · have : (q.value : ℤ) - p.value ≠ 0 := by omega
        simp [heq, this]

lemma segments_drawn (lut : Lut) (h : (p :: points).IsChain (·.value < ·.value)) :
    ∃ out, segments lut (p :: points) = some out ∧ (∀ i < p.value, out i = lut i) ∧
      Drawn (p :: points) out := by
  induction points generalizing p lut with
  | nil =>
    have hfill : ∀ i < 256, p.value ≤ i →
        lut.fill p.value 256 (fun _ => p.scaling) i = some p.scaling :=
      fun i hi hle => if_pos ⟨hle, hi⟩
    refine ⟨_, rfl, fun i hi => if_neg (by omega), ?_, ?_, ?_, .singleton _⟩
    · simpa using fun i hi hle => by simp [hfill i hi hle]
    · simpa using hfill p.value p.value_lt le_rfl
    · simpa using hfill
  | cons q points ih =>
    obtain ⟨hlt, htail⟩ := List.isChain_cons_cons.mp h
    obtain ⟨delta, hslope⟩ : ∃ delta, slope p q = some delta := ⟨_, if_neg (by omega)⟩
    obtain ⟨out, hout, hkept, hdrawn⟩ := ih (lut.fill p.value q.value (entry p delta)) htail
    have hentry : ∀ i, p.value ≤ i → i < q.value → out i = some (entry p delta i) := by
      intro i hle hi
      rw [hkept i hi]
      exact if_pos ⟨hle, hi⟩
    refine ⟨out, ?_, ?_, ?_, ?_, hdrawn.after, ?_⟩
    · simp [segments, hslope, hout]
    · intro i hi
      rw [hkept i (by omega)]
      exact if_neg (by omega)
    · rintro _ ⟨⟩ i hi hle
      by_cases hq : i < q.value
      · simp [hentry i hle hq]
      · exact hdrawn.filled q rfl i hi (by omega)
    · intro r hr
      cases hr with
      | head => rw [hentry _ le_rfl hlt, entry_self]
      | tail _ hr => exact hdrawn.exact r hr
    · refine List.isChain_cons_cons.mpr ⟨fun i hle hi => ⟨_, hentry i hle hi, ?_⟩, hdrawn.between⟩
      exact entry_mem hslope hle hi

/-- A table is made where no two neighbours are equal, and where the values increase it
interpolates between the points. -/
theorem scalingLut_interpolates (points : List Point) :
    (scalingLut points = none ↔ ¬points.IsChain (·.value ≠ ·.value)) ∧
      (points.IsChain (·.value < ·.value) →
        ∃ lut, scalingLut points = some lut ∧ Interpolates points lut) := by
  cases points with
  | nil =>
    refine ⟨by simp [scalingLut], fun _ => ⟨_, rfl, ⟨?_, ?_, ?_, .nil⟩, ?_, ?_⟩⟩
    all_goals simp +contextual [Lut.fill]
  | cons p points =>
    refine ⟨segments_none_iff, fun h => ?_⟩
    obtain ⟨out, hout, hkept, hdrawn⟩ :=
      segments_drawn (.fill (fun _ => none) 0 p.value fun _ => p.scaling) h
    have hbefore : ∀ i < p.value, out i = some p.scaling := by
      intro i hi
      rw [hkept i hi]
      exact if_pos ⟨i.zero_le, hi⟩
    refine ⟨out, hout, hdrawn, fun i hi => ?_, by simpa using hbefore⟩
    by_cases hp : i < p.value
    · simp [hbefore i hp]
    · exact hdrawn.filled p rfl i hi (by omega)

/-- Two luma points with one value. -/
theorem equal_points_accepted :
    ∃ points, readPoints [0x20, 0, 0, 0, 0] 0 14 "num_y_points" = .ok points ∧
      scalingLut points = none := ⟨_, rfl, rfl⟩

end NvidiaProlapse.Av1.FilmGrain
