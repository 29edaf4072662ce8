import NvidiaProlapse.WordEpoch

/-!
# Native errors and sem32 payload reconstruction

`Error` is the error type of rm.rs with its messages; the operating-system
error inside `io` is not read by any modelled function. `extendPayload` is the
reconstruction of fences.rs that the slot pool and the queue share.
-/
namespace NvidiaProlapse

inductive Error where
  | io (operation : String)
  | rm (operation : String) (status : ℕ)
  | contract (message : String)
  | deviceLost (message : String)
  | barPressure (used requested limit : ℕ)
  deriving DecidableEq, Repr

/-- The text of an error, without that of the operating system. -/
def Error.display : Error → String
  | .io operation => operation
  | .rm operation status =>
    operation ++ ": RM status 0x" ++ String.ofList (List.leftpad 8 '0' (Nat.toDigits 16 status))
  | .contract message => message
  | .deviceLost message => message
  | .barPressure used requested limit =>
    s!"BAR mapping budget exhausted: {used}+{requested} exceeds measured aperture {limit}; reduce live CPU maps or enable a larger BAR"

abbrev Result (α : Type) := Except Error α

namespace Fences

/-- Rebuild a 64-bit payload from its low word and the published maximum. The
producer publishes the maximum first. -/
def extendPayload (low maximum : ℕ) : Result ℕ :=
  let epoch := (maximum >>> 32) <<< 32
  let extended : Option ℕ :=
    if maximum % 2 ^ 32 < low then
      if 2 ^ 32 ≤ epoch then some (epoch - 2 ^ 32) else none
    else some epoch
  match extended with
  | none => .error (.contract "sem32 payload precedes timeline origin")
  | some epoch =>
    let value := epoch ||| low
    if 0x7fffffff < maximum - value then
      .error (.contract "sem32 outstanding distance exceeds half range")
    else .ok value

/-- The reconstruction is the latest value below the maximum with this low
word, refused when it is half a word range or more behind. -/
lemma extendPayload_eq (low maximum : ℕ) (hlow : low < 2 ^ 32) :
    extendPayload low maximum =
      match WordEpoch.latest (2 ^ 32) low maximum with
      | none => .error (.contract "sem32 payload precedes timeline origin")
      | some value =>
        if 0x7fffffff < maximum - value then
          .error (.contract "sem32 outstanding distance exceeds half range")
        else .ok value := by
  have hepoch : (maximum >>> 32) <<< 32 = maximum - maximum % 2 ^ 32 := by
    omega
  have hor : (maximum - maximum % 2 ^ 32) ||| low = maximum - maximum % 2 ^ 32 + low := by
    rw [← hepoch, Nat.shiftLeft_add_eq_or_of_lt hlow]
  simp only [extendPayload, WordEpoch.latest, hepoch]
  by_cases hlt : maximum % 2 ^ 32 < low
  · by_cases hm : 2 ^ 32 ≤ maximum - maximum % 2 ^ 32
    · have hsub : (maximum - maximum % 2 ^ 32 - 2 ^ 32) ||| low =
          maximum - maximum % 2 ^ 32 - 2 ^ 32 + low := by
        have he : maximum - maximum % 2 ^ 32 - 2 ^ 32 = (maximum / 2 ^ 32 - 1) <<< 32 := by
          omega
        rw [he, Nat.shiftLeft_add_eq_or_of_lt hlow]
      simp only [if_pos hlt, if_pos hm, hsub]
    · simp only [if_pos hlt, if_neg hm]
  · simp only [if_neg hlt, hor]

/-- Success names the unique value with this low word in the half range that
ends at the maximum. -/
lemma extendPayload_eq_ok {low maximum value : ℕ} (hlow : low < 2 ^ 32) :
    extendPayload low maximum = .ok value ↔
      value % 2 ^ 32 = low ∧ value ≤ maximum ∧ maximum < value + 2 ^ 31 := by
  rw [extendPayload_eq low maximum hlow]
  cases hl : WordEpoch.latest (2 ^ 32) low maximum with
  | none =>
    have hlt := (WordEpoch.latest_eq_none hlow).mp hl
    simp only [reduceCtorEq, false_iff, not_and]
    intro hmod hle
    omega
  | some w =>
    obtain ⟨hw, hwle, hwlt⟩ := (WordEpoch.latest_eq_some hlow).mp hl
    simp only
    split_ifs with hfar
    · simp only [false_iff, not_and, not_lt]
      intro hmod hle
      by_contra hnear
      omega
    · simp only [Except.ok.injEq]
      constructor
      · rintro rfl
        exact ⟨hw, hwle, by omega⟩
      · rintro ⟨hmod, hle, hlt⟩
        exact WordEpoch.eq_of_mod_eq (by rw [hmod, hw]) (by omega) (by omega)

end Fences

end NvidiaProlapse
