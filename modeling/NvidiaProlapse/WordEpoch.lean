import Mathlib.Tactic

/-!
# Full-width counters behind a truncated word

A counter is stored modulo `m`, next to a full-width upper bound. The latest
value below the bound with the stored residue is the counter itself exactly
while the bound runs less than one modulus ahead. The circular comparison of
two residues is the order of the counters only inside half a modulus.
-/
namespace NvidiaProlapse.WordEpoch

/-- The greatest value not above `maximum` whose residue modulo `m` is `low`. -/
def latest (m low maximum : ℕ) : Option ℕ :=
  let epoch := maximum - maximum % m
  if maximum % m < low then
    if m ≤ epoch then some (epoch - m + low) else none
  else some (epoch + low)

variable {m v low maximum : ℕ}

/-- Two values with one residue that lie within one modulus are equal. -/
lemma eq_of_mod_eq {w : ℕ} (h : v % m = w % m) (hv : v < w + m) (hw : w < v + m) : v = w := by
  rcases le_total v w with hle | hle
  · have hd : m ∣ w - v := (Nat.modEq_iff_dvd' hle).mp h
    have hz := Nat.eq_zero_of_dvd_of_lt hd (by omega)
    omega
  · have hd : m ∣ v - w := (Nat.modEq_iff_dvd' hle).mp h.symm
    have hz := Nat.eq_zero_of_dvd_of_lt hd (by omega)
    omega

lemma latest_spec (hlow : low < m) (h : latest m low maximum = some v) :
    v % m = low ∧ v ≤ maximum ∧ maximum < v + m := by
  have hr : maximum % m < m := Nat.mod_lt _ (by omega)
  have hepoch : maximum - maximum % m = m * (maximum / m) := by
    have := Nat.div_add_mod maximum m
    omega
  have hmod : (maximum - maximum % m + low) % m = low := by
    rw [hepoch, Nat.mul_add_mod, Nat.mod_eq_of_lt hlow]
  have hle := Nat.mod_le maximum m
  simp only [latest] at h
  split_ifs at h with hlt hm
  · cases h
    refine ⟨?_, by omega, by omega⟩
    have he : maximum - maximum % m + low = (maximum - maximum % m - m + low) + m := by omega
    rw [he, Nat.add_mod_right] at hmod
    exact hmod
  · cases h
    exact ⟨hmod, by omega, by omega⟩

lemma latest_eq_none (hlow : low < m) : latest m low maximum = none ↔ maximum < low := by
  have hdiv := Nat.div_add_mod maximum m
  simp only [latest]
  split_ifs with hlt hm
  · simp only [false_iff, not_lt]
    omega
  · simp only [true_iff]
    have hq : maximum / m = 0 := by
      by_contra hne
      have : m ≤ m * (maximum / m) := Nat.le_mul_of_pos_right m (Nat.pos_of_ne_zero hne)
      omega
    rw [hq] at hdiv
    omega
  · simp only [false_iff, not_lt]
    omega

/-- The reconstruction returns the residue class member in the window of one
modulus that ends at the bound, and nothing else. -/
lemma latest_eq_some (hlow : low < m) :
    latest m low maximum = some v ↔ v % m = low ∧ v ≤ maximum ∧ maximum < v + m := by
  refine ⟨latest_spec hlow, ?_⟩
  rintro ⟨hmod, hle, hlt⟩
  cases hl : latest m low maximum with
  | none =>
    have := (latest_eq_none hlow).mp hl
    have := Nat.mod_le v m
    omega
  | some w =>
    obtain ⟨hw, hwle, hwlt⟩ := latest_spec hlow hl
    have : v = w := eq_of_mod_eq (by rw [hmod, hw]) (by omega) (by omega)
    rw [this]

/-- The circular greater-or-equal test of two residues, with window `h`. -/
def circularGeq (m h low target : ℕ) : Prop := (low + (m - target)) % m < h

instance (m h low target : ℕ) : Decidable (circularGeq m h low target) :=
  inferInstanceAs (Decidable (_ < _))

/-- Distance form of the circular test below its target. -/
lemma circularGeq_of_lt {h target : ℕ} (hm : 0 < m) (hlt : v < target) :
    circularGeq m h (v % m) (target % m) ↔ (m - (target - v) % m) % m < h := by
  have ht := Nat.mod_lt target hm
  have hd := Nat.mod_lt (target - v) hm
  have hres : (v % m + (m - target % m)) % m = (m - (target - v) % m) % m := by
    apply Nat.ModEq.symm
    apply Nat.ModEq.add_right_cancel' (target % m + (target - v) % m)
    have hl : m - (target - v) % m + (target % m + (target - v) % m) = target % m + m := by omega
    have hr : v % m + (m - target % m) + (target % m + (target - v) % m) =
        (v % m + (target - v) % m) + m := by omega
    rw [hl, hr]
    apply Nat.ModEq.add_right
    calc target % m ≡ target [MOD m] := Nat.mod_modEq _ _
      _ = v + (target - v) := by omega
      _ ≡ v % m + (target - v) % m [MOD m] :=
        (Nat.ModEq.add (Nat.mod_modEq v m) (Nat.mod_modEq (target - v) m)).symm
  rw [circularGeq, hres]

end NvidiaProlapse.WordEpoch
