import NvidiaProlapse.BoundedSort
import NvidiaProlapse.H264Codec
import NvidiaProlapse.SessionSteps

/-!
# Display order

Pictures with a display key wait in the reorder list until more of them wait than the
codec's reorder bound. The list sorts the stream by display key as a bounded buffer does,
and the drain at the end of the stream empties it.
-/
namespace NvidiaProlapse.Video.Session

open Programs List

variable {υ σ : Type} {codec : Codec υ σ} {s : Session σ}

/-- With a fixed bound the surplus leaves from the front. -/
lemma bump_eq {ready : ℕ → Bool} {bound : ℕ} (hready : ∀ n, ready n = decide (bound < n))
    (waiting : List (ℤ × ℕ)) :
    bump ready waiting = ((waiting.take (waiting.length - bound)).map Prod.snd,
      waiting.drop (waiting.length - bound)) := by
  induction waiting with
  | nil => simp [bump]
  | cons first rest ih =>
    by_cases h : bound < rest.length + 1
    · have hsurplus : rest.length + 1 - bound = rest.length - bound + 1 := by omega
      simp [bump, hready, h, ih, hsurplus]
    · have hsurplus : rest.length + 1 - bound = 0 := by omega
      simp [bump, hready, h, hsurplus]

/-- Shown pictures with their display keys, in decode order. -/
def emits (codec : Codec υ σ) (stream : List (Picture × ℤ)) (s : Session σ) : Session σ :=
  stream.foldl (fun s p => s.emit codec p.1 (some p.2)) s

/-- The `(key, id)` pairs of pictures emitted one after the other. -/
def keyed (stream : List (Picture × ℤ)) (firstId : ℕ) : List (ℤ × ℕ) :=
  (stream.map Prod.snd).zipIdx firstId

/-- Emitting a stream is pushing its pairs into a bounded buffer. -/
lemma emits_eq {bound : ℕ} (hready : ∀ n, codec.bumpReady s.codec n = decide (bound < n))
    (stream : List (Picture × ℤ)) (b : BoundedSort.State (ℤ × ℕ)) (old : List ℕ)
    (hdisplay : s.display = old ++ b.out.map Prod.snd) (hreorder : s.reorder = b.buffer) :
    (s.emits codec stream).display =
        old ++ ((keyed stream s.nextId).foldl (BoundedSort.push KeyLe bound) b).out.map Prod.snd ∧
      (s.emits codec stream).reorder =
        ((keyed stream s.nextId).foldl (BoundedSort.push KeyLe bound) b).buffer := by
  induction stream generalizing s b with
  | nil => exact ⟨hdisplay, hreorder⟩
  | cons p stream ih =>
    have hbump := bump_eq hready ((s.reorder ++ [(p.2, s.nextId)]).insertionSort KeyLe)
    refine ih (s := s.emit codec p.1 (some p.2)) hready (BoundedSort.push KeyLe bound b (p.2, s.nextId)) ?_ ?_
    · show s.display ++ (bump _ _).1 = _
      rw [hbump, hdisplay, hreorder]
      simp [BoundedSort.push]
    · show (bump _ _).2 = _
      rw [hbump, hreorder]
      rfl

instance : IsTrans (ℤ × ℕ) KeyLe := ⟨fun _ _ _ h h' => le_trans h h'⟩

instance : Std.Total KeyLe := ⟨fun a b => le_total (toLex a) (toLex b)⟩

lemma key_le_of_keyLe {a b : ℤ × ℕ} (h : KeyLe a b) : a.1 ≤ b.1 := by
  rcases Prod.Lex.toLex_le_toLex.mp h with h | ⟨h, -⟩
  · exact h.le
  · exact h.le

/-- An earlier picture comes later in display order only with a larger key. -/
lemma not_keyLe_iff {a b : ℤ × ℕ} (hid : a.2 < b.2) : ¬KeyLe a b ↔ b.1 < a.1 := by
  rw [KeyLe, Prod.Lex.toLex_le_toLex]
  constructor
  · intro h
    push Not at h
    rcases lt_or_eq_of_le h.1 with hlt | heq
    · exact hlt
    · omega
  · rintro h (hlt | ⟨heq, -⟩)
    · omega
    · omega

/-- Each picture has at most `bound` pictures before it that are displayed after it. -/
def Reordered (bound : ℕ) (stream : List (Picture × ℤ)) : Prop :=
  ∀ before p after, stream = before ++ p :: after → before.countP (p.2 < ·.2) ≤ bound

lemma keyed_append (before after : List (Picture × ℤ)) (firstId : ℕ) :
    keyed (before ++ after) firstId = keyed before firstId ++ keyed after (firstId + before.length) := by
  simp [keyed, zipIdx_append]

lemma length_keyed (stream : List (Picture × ℤ)) (firstId : ℕ) :
    (keyed stream firstId).length = stream.length := by simp [keyed]

lemma countP_keyed (q : ℤ → Bool) (stream : List (Picture × ℤ)) (firstId : ℕ) :
    (keyed stream firstId).countP (fun x => q x.1) = stream.countP fun p => q p.2 := by
  induction stream generalizing firstId with
  | nil => rfl
  | cons p stream ih =>
    show ((p.2, firstId) :: keyed stream (firstId + 1)).countP _ = _
    rw [countP_cons, countP_cons, ih]

/-- The bound carries over to the pairs. -/
lemma Reordered.countP_le {bound : ℕ} {stream : List (Picture × ℤ)} (h : Reordered bound stream)
    {firstId : ℕ} {before after : List (ℤ × ℕ)} {x : ℤ × ℕ}
    (heq : keyed stream firstId = before ++ x :: after) : before.countP (¬KeyLe · x) ≤ bound := by
  have hlength : before.length ≤ stream.length := by
    rw [← length_keyed stream firstId, heq, length_append]
    omega
  obtain ⟨earlier, later, hstream, hearlier⟩ :
      ∃ earlier later, stream = earlier ++ later ∧ earlier.length = before.length :=
    ⟨stream.take before.length, stream.drop before.length, (take_append_drop _ _).symm,
      length_take_of_le hlength⟩
  rw [hstream, keyed_append] at heq
  obtain ⟨rfl, hlater⟩ := append_inj heq (by rw [length_keyed, hearlier])
  cases later with
  | nil => cases hlater
  | cons p later =>
    obtain ⟨rfl, -⟩ := cons.inj hlater
    refine le_trans (le_of_eq ?_) (h earlier p later hstream)
    rw [← countP_keyed (fun key => decide (p.2 < key)) earlier firstId]
    apply countP_congr
    intro y hy
    have hid : y.2 < firstId + earlier.length := by
      simpa using snd_lt_add_of_mem_zipIdx hy
    simpa using not_keyLe_iff (b := (p.2, firstId + earlier.length)) hid

/-- Every emitted picture enters the display queue exactly once, and where the reorder
bound covers the stream, pictures enter in display order. -/
theorem bumping_sorts {bound : ℕ} (hready : ∀ n, codec.bumpReady s.codec n = decide (bound < n))
    (hreorder : s.reorder = []) (stream : List (Picture × ℤ)) :
    ∃ out : List (ℤ × ℕ), (s.emits codec stream).drain.display = s.display ++ out.map Prod.snd ∧
      (s.emits codec stream).drain.reorder = [] ∧
      out.Perm (keyed stream s.nextId) ∧
      (Reordered bound stream → out.Pairwise fun a b => a.1 ≤ b.1) := by
  obtain ⟨hdisplay, hwaiting⟩ := emits_eq hready stream ⟨[], []⟩ s.display (by simp) hreorder
  set b := BoundedSort.pushes KeyLe bound (keyed stream s.nextId) with hb
  have hperm : (b.out ++ b.buffer.insertionSort KeyLe).Perm (keyed stream s.nextId) :=
    ((perm_insertionSort KeyLe b.buffer).append_left b.out).trans
      (BoundedSort.pushes_perm KeyLe bound _)
  refine ⟨b.out ++ b.buffer.insertionSort KeyLe, ?_, rfl, hperm, ?_⟩
  · show (s.emits codec stream).display ++ _ = _
    rw [hdisplay, hwaiting, map_append, append_assoc]
    rfl
  intro hstream
  have hordered : BoundedSort.Ordered KeyLe bound (keyed stream s.nextId) b :=
    BoundedSort.pushes_ordered fun _ _ _ heq => hstream.countP_le heq
  have hsorted : b.buffer.insertionSort KeyLe = b.buffer :=
    List.Pairwise.insertionSort_eq (pairwise_append.mp hordered.sorted).2.1
  rw [hsorted]
  exact hordered.sorted.imp key_le_of_keyLe

/-- A stream whose third picture is displayed before the second. -/
def lateStream : List (Picture × ℤ) :=
  [0, 4, 2].map fun key => (⟨0, default, 0, 0, {}⟩, key)

lemma lateStream_reordered : Reordered 1 lateStream := by
  intro before p after h
  match before with
  | [] => simp
  | [a] => exact countP_le_length
  | [a, b] =>
    obtain ⟨rfl, rfl, rfl, -⟩ := h
    decide
  | a :: b :: c :: rest => simp [lateStream] at h

theorem bumping_sorts_late :
    let s := create H264.codec { H264.fresh true (64, 64) with reorder := 1 } 0
    ∃ out : List (ℤ × ℕ), (s.emits H264.codec lateStream).drain.display = out.map Prod.snd ∧
      out.Perm [(0, 1), (4, 2), (2, 3)] ∧ out.Pairwise fun a b => a.1 ≤ b.1 := by
  intro s
  have hready : ∀ n, H264.codec.bumpReady s.codec n = decide (1 < n) := fun _ => rfl
  obtain ⟨out, hdisplay, -, hperm, hsorted⟩ := bumping_sorts hready rfl lateStream
  exact ⟨out, hdisplay, hperm, hsorted lateStream_reordered⟩

end NvidiaProlapse.Video.Session
