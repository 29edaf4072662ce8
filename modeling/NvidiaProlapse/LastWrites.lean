import Mathlib.Tactic

/-!
# The last write to a place counts

A write gives values to some places and leaves the others alone. After a list of
writes a place holds what the last write to it gave. Writes that are not the last one
anywhere may be left out.
-/
namespace NvidiaProlapse.LastWrites
open List

variable {α κ ν : Type*} (value : α → κ → Option ν)

/-- One write over what was there. -/
def write (f : κ → Option ν) (w : α) : κ → Option ν := fun x => (value w x).or (f x)

def writes (f : κ → Option ν) (ws : List α) : κ → Option ν := ws.foldl (write value) f

/-- What the writes alone leave. -/
def latest (ws : List α) : κ → Option ν := writes value (fun _ => none) ws

/-- The last write to a place. -/
def source (ws : List α) (x : κ) : Option α := ws.reverse.find? fun w => (value w x).isSome

variable {value} {f : κ → Option ν} {ws ws' : List α} {w : α} {x : κ} {v : ν}

lemma writes_append : writes value f (ws ++ ws') = writes value (writes value f ws) ws' :=
  foldl_append

lemma latest_concat : latest value (ws ++ [w]) x = (value w x).or (latest value ws x) := by
  unfold latest
  rw [writes_append]
  rfl

lemma source_concat : source value (ws ++ [w]) x = if (value w x).isSome then some w else source value ws x := by
  unfold source
  rw [reverse_append, reverse_singleton, singleton_append, find?_cons]
  cases (value w x).isSome with
  | true => rfl
  | false => rfl

lemma latest_eq_source : latest value ws x = (source value ws x).bind fun w => value w x := by
  induction ws using reverseRecOn with
  | nil => rfl
  | append_singleton ws w ih =>
    rw [latest_concat, source_concat, ih]
    cases h : value w x with
    | none => rfl
    | some v => simp [h]

lemma writes_apply : writes value f ws x = (latest value ws x).or (f x) := by
  induction ws using reverseRecOn with
  | nil => rfl
  | append_singleton ws w ih =>
    rw [latest_concat, writes_append]
    show (value w x).or (writes value f ws x) = _
    rw [ih, Option.or_assoc]

lemma latest_append : latest value (ws ++ ws') x = (latest value ws' x).or (latest value ws x) := by
  unfold latest
  rw [writes_append]
  exact writes_apply

lemma latest_eq_none (h : ∀ w ∈ ws, value w x = none) : latest value ws x = none := by
  induction ws using reverseRecOn with
  | nil => rfl
  | append_singleton ws w ih =>
    rw [latest_concat, h w (mem_append_right _ mem_cons_self),
      ih fun w' hw' => h w' (mem_append_left _ hw')]
    rfl

/-- A write is left out that is not the last one to the place. -/
lemma source_filter {keep : α → Bool} (h : ∀ w ∈ source value ws x, keep w = true) :
    source value (ws.filter keep) x = source value ws x := by
  unfold source at h ⊢
  rw [← filter_reverse]
  generalize ws.reverse = ws at h
  induction ws with
  | nil => rfl
  | cons w ws ih =>
    rw [find?_cons] at h ⊢
    cases hw : (value w x).isSome with
    | true =>
      rw [hw] at h
      rw [filter_cons_of_pos (h w rfl), find?_cons, hw]
    | false =>
      rw [hw] at h
      rw [← ih h]
      cases hkeep : keep w with
      | true => rw [filter_cons_of_pos hkeep, find?_cons, hw]
      | false => rw [filter_cons_of_neg (by simp [hkeep])]

lemma latest_filter {keep : α → Bool} (h : ∀ w ∈ source value ws x, keep w = true) :
    latest value (ws.filter keep) x = latest value ws x := by
  rw [latest_eq_source, latest_eq_source, source_filter h]

lemma latest_map {β : Type*} {g : β → α} {bs : List β} :
    latest value (bs.map g) = latest (fun b => value (g b)) bs :=
  foldl_map

lemma latest_cons : latest value (w :: ws) x = (latest value ws x).or (value w x) := by
  rw [← singleton_append, latest_append]
  have hone : latest value [w] x = value w x := Option.or_none
  rw [hone]

lemma latest_eraseP {p : α → Bool} (h : ∀ w, p w = true → value w x = none) :
    latest value (ws.eraseP p) x = latest value ws x := by
  induction ws with
  | nil => rfl
  | cons w ws ih =>
    cases hw : p w with
    | true =>
      rw [eraseP_cons_of_pos hw, latest_cons, h w hw, Option.or_none]
    | false =>
      rw [eraseP_cons_of_neg (by simp [hw]), latest_cons, latest_cons, ih]

end NvidiaProlapse.LastWrites
