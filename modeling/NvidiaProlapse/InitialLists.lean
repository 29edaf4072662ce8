import NvidiaProlapse.H264
import Mathlib.Data.List.Sigma
import Mathlib.Data.List.Sort

/-!
# Initial reference lists

The references are sorted by FrameNumWrap for P slices and by POC for B slices. The second
list of a B slice exchanges the parts before and after the picture. Where that is the
first list again, its first two entries are exchanged.
-/
namespace NvidiaProlapse.H264

open List

/-- A position of the DPB with its picture. -/
abbrev Ref := ℕ × RefPic

namespace Ref

variable (x : Ref)

def long : Bool := x.2.longTermIdx.isSome

def longIdx : ℤ := x.2.longTermIdx.getD 0

def poc : ℤ := min x.2.poc.1 x.2.poc.2

end Ref

/-- Negation of an `i32`. -/
def negate (n : ℤ) : ℤ := if n = -2 ^ 31 then n else -n

def sortByKey (key : Ref → ℤ) (refs : List Ref) : List Ref := refs.insertionSort fun x y => key x ≤ key y

variable {key : Ref → ℤ} {refs : List Ref}

lemma sortByKey_perm : sortByKey key refs ~ refs := perm_insertionSort _ _

lemma sortByKey_sorted : (sortByKey key refs).Pairwise fun x y => key x ≤ key y :=
  have : Std.Total fun x y : Ref => key x ≤ key y := ⟨fun x y => le_total (key x) (key y)⟩
  have : IsTrans Ref fun x y => key x ≤ key y := ⟨fun _ _ _ => le_trans⟩
  pairwise_insertionSort _ _

namespace Decoder

variable (d : Decoder) (cur : ℕ) (poc : ℤ) (max : ℕ)

def occupied : List Ref := d.dpb.zipIdx.filterMap fun (e, i) => e.map fun r => (i, r)

def shortRefs : List Ref := sortByKey (fun x => -x.2.frameNumWrap cur max) (d.occupied.filter (!·.long))

def longRefs : List Ref := sortByKey Ref.longIdx (d.occupied.filter Ref.long)

def refsBefore : List Ref :=
  sortByKey (fun x => negate x.poc) ((d.shortRefs cur max).filter fun x => !x.2.nonExisting && x.poc < poc)

def refsAfter : List Ref :=
  sortByKey Ref.poc ((d.shortRefs cur max).filter fun x => !x.2.nonExisting && poc < x.poc)

def swapFirst : List ℕ → List ℕ
  | i :: j :: rest => j :: i :: rest
  | list => list

/-- The second list of a B slice is not the first one. -/
def secondList (b0 b1 : List ℕ) : List ℕ := if b1.length > 1 ∧ b1 = b0 then swapFirst b1 else b1

/-- The lists for P slices and the two for B slices. -/
def initialLists : List ℕ × List ℕ × List ℕ :=
  let before := d.refsBefore cur poc max
  let after := d.refsAfter cur poc max
  let b0 := (before ++ after ++ d.longRefs).map Prod.fst
  ((d.shortRefs cur max ++ d.longRefs).map Prod.fst, b0,
    secondList b0 ((after ++ before ++ d.longRefs).map Prod.fst))

lemma secondList_perm (b0 b1 : List ℕ) : secondList b0 b1 ~ b1 := by
  unfold secondList
  split_ifs
  · match b1 with
    | [] => rfl
    | [i] => rfl
    | i :: j :: rest => exact .swap i j rest
  · rfl

lemma secondList_ne {b0 b1 : List ℕ} (hnodup : b1.Nodup) (hlong : 1 < b1.length) : secondList b0 b1 ≠ b0 := by
  unfold secondList
  split_ifs with h
  · match b1 with
    | [] => simp at hlong
    | [i] => simp at hlong
    | i :: j :: rest =>
      rw [← h.2]
      simp_all [swapFirst, eq_comm]
  · exact fun heq => h ⟨hlong, heq⟩

lemma filter_perm {p q r : Ref → Bool} (h : ∀ x, r x = (p x || q x)) (hq : ∀ x, p x → q x = false) :
    refs.filter p ++ refs.filter q ~ refs.filter r := by
  induction refs with
  | nil => rfl
  | cons x refs ih =>
    have := hq x
    cases hp : p x <;> cases hqx : q x <;> simp_all
    exact perm_middle.trans (ih.cons x)

variable {d cur poc max}

lemma mem_shortRefs {x : Ref} : x ∈ d.shortRefs cur max ↔ x ∈ d.occupied ∧ x.long = false := by
  simp [shortRefs, sortByKey_perm.mem_iff]

lemma refs_perm : d.refsBefore cur poc max ++ d.refsAfter cur poc max ++ d.longRefs ~
    d.occupied.filter (fun x => x.long || !x.2.nonExisting && x.poc != poc) := by
  have hparts : d.refsBefore cur poc max ++ d.refsAfter cur poc max ~
      (d.occupied.filter (!·.long)).filter fun x => !x.2.nonExisting && x.poc != poc := by
    have hshort : d.shortRefs cur max ~ _ := sortByKey_perm
    refine .trans (.append sortByKey_perm sortByKey_perm) (.trans ?_ (hshort.filter _))
    exact filter_perm (by grind) (by grind)
  refine (hparts.append sortByKey_perm).trans ?_
  rw [filter_filter]
  exact filter_perm (by grind) (by grind)

lemma occupied_nodup (d : Decoder) : (d.occupied.map Prod.fst).Nodup := by
  have hpositions := nodup_zipIdx_map_snd d.dpb
  rw [Nodup, pairwise_map] at hpositions ⊢
  rw [occupied, pairwise_filterMap]
  refine hpositions.imp fun hne x hx y hy => ?_
  obtain ⟨-, -, rfl⟩ := Option.map_eq_some_iff.mp hx
  obtain ⟨-, -, rfl⟩ := Option.map_eq_some_iff.mp hy
  exact hne

section

variable (hlt : ∀ x ∈ d.occupied, x.2.frameNum < max)
  (hdistinct : d.occupied.Pairwise fun x y => x.long = false → y.long = false → x.2.frameNum ≠ y.2.frameNum)

include hlt hdistinct

lemma shortRefs_sorted :
    (d.shortRefs cur max).Pairwise fun x y => y.2.frameNumWrap cur max < x.2.frameNumWrap cur max := by
  have hshort : (d.shortRefs cur max).Pairwise _ :=
    (sortByKey_perm.pairwise_iff (by grind)).mpr (hdistinct.filter (!·.long))
  refine (sortByKey_sorted.and hshort).imp_of_mem fun hx hy h => ?_
  obtain ⟨hx, hxs⟩ := mem_shortRefs.mp hx
  obtain ⟨hy, hys⟩ := mem_shortRefs.mp hy
  have hne := h.2 hxs hys
  have hle := h.1
  have hxlt := hlt _ hx
  have hylt := hlt _ hy
  unfold RefPic.frameNumWrap at hle ⊢
  split_ifs at hle ⊢ <;> omega

theorem initialLists_ordered (hpoc : ∀ x ∈ d.occupied, -2 ^ 31 < x.poc) :
    ∃ st lt before after : List Ref,
      st ++ lt ~ d.occupied ∧ (∀ x ∈ st, x.long = false) ∧ (∀ x ∈ lt, x.long) ∧
      st.Pairwise (fun x y => y.2.frameNumWrap cur max < x.2.frameNumWrap cur max) ∧
      lt.Pairwise (fun x y => x.longIdx ≤ y.longIdx) ∧
      before ++ after ++ lt ~ d.occupied.filter (fun x => x.long || !x.2.nonExisting && x.poc != poc) ∧
      (∀ x ∈ before, x.poc < poc) ∧ before.Pairwise (fun x y => y.poc ≤ x.poc) ∧
      (∀ x ∈ after, poc < x.poc) ∧ after.Pairwise (fun x y => x.poc ≤ y.poc) ∧
      let b0 := (before ++ after ++ lt).map Prod.fst
      let b1 := secondList b0 ((after ++ before ++ lt).map Prod.fst)
      d.initialLists cur poc max = ((st ++ lt).map Prod.fst, b0, b1) ∧ b1 ~ b0 ∧ (1 < b1.length → b1 ≠ b0) := by
  have hbefore : ∀ x ∈ d.refsBefore cur poc max, x ∈ d.occupied ∧ x.poc < poc := by
    simp +contextual [refsBefore, sortByKey_perm.mem_iff, mem_shortRefs]
  have hexchanged : (d.refsAfter cur poc max ++ d.refsBefore cur poc max ++ d.longRefs).map Prod.fst ~
      (d.refsBefore cur poc max ++ d.refsAfter cur poc max ++ d.longRefs).map Prod.fst :=
    (perm_append_comm.append_right _).map _
  have hnodup := hexchanged.nodup_iff.mpr ((refs_perm.map Prod.fst).nodup_iff.mpr
    ((filter_sublist.map Prod.fst).nodup (occupied_nodup d)))
  refine ⟨d.shortRefs cur max, d.longRefs, d.refsBefore cur poc max, d.refsAfter cur poc max, ?_,
    fun x hx => (mem_shortRefs.mp hx).2, by simp [longRefs, sortByKey_perm.mem_iff], shortRefs_sorted hlt hdistinct,
    sortByKey_sorted, refs_perm, fun x hx => (hbefore x hx).2, ?_,
    by simp [refsAfter, sortByKey_perm.mem_iff], sortByKey_sorted, rfl, (secondList_perm _ _).trans hexchanged, ?_⟩
  · have := (@sortByKey_perm (fun x => -x.2.frameNumWrap cur max) (d.occupied.filter (!·.long))).append
      (@sortByKey_perm Ref.longIdx (d.occupied.filter Ref.long))
    refine this.trans ((filter_perm (r := fun _ => true) (by simp) (by simp)).trans (by simp))
  · refine sortByKey_sorted.imp_of_mem fun hx hy h => ?_
    have := hpoc _ (hbefore _ hx).1
    have := hpoc _ (hbefore _ hy).1
    unfold negate at h
    split_ifs at h <;> omega
  · rw [(secondList_perm _ _).length_eq]
    exact secondList_ne hnodup

end

/-- Two references before the picture. -/
def twoBefore : Decoder where
  newH264 := true
  dpb := [some ⟨none, none, 0, none, (2, 2), false⟩, some ⟨none, none, 1, none, (4, 4), false⟩]

theorem twoBefore_lists : (twoBefore.initialLists 2 8 16).2.2 ~ (twoBefore.initialLists 2 8 16).2.1 := by
  obtain ⟨_, _, _, _, -, -, -, -, -, -, -, -, -, -, heq, hperm, -⟩ :=
    @initialLists_ordered twoBefore 2 8 16 (by decide) (by decide) (by decide)
  rw [heq]
  exact hperm

theorem twoBefore_swapped : twoBefore.initialLists 2 8 16 = ([1, 0], [1, 0], [0, 1]) ∧
    (twoBefore.refsAfter 2 8 16 ++ twoBefore.refsBefore 2 8 16 ++ twoBefore.longRefs).map Prod.fst = [1, 0] := by
  decide

end Decoder

end NvidiaProlapse.H264
