import NvidiaProlapse.Programs

/-!
# Directory listings of the 32-bit shim

`nvg_scandir` reads a directory to its end, converts each entry to glibc's layout, asks the
filter and copies what it accepts into an allocation of its own. The end of the directory is
told from a failed read by `errno`, which is cleared once, before the first filter call. Blocks
are named by the number of allocations made before them; the first one refused ends the call.
-/
namespace NvidiaProlapse.Scandir
open Programs List

structure GlibcDirent where
  ino : ℕ
  off : ℤ
  reclen : ℕ
  type : UInt8
  name : List UInt8

/-- An entry of bionic's `readdir`. The name and its terminator fit an array of 256 bytes. -/
structure Dirent where
  ino : ℕ
  off : ℤ
  type : UInt8
  name : List UInt8
  terminated : name.length ≤ 255

namespace Dirent

def Fits (b : Dirent) : Prop := b.ino ≤ 2 ^ 32 - 1 ∧ b.off ≤ 2 ^ 31 - 1 ∧ -2 ^ 31 ≤ b.off

instance (b : Dirent) : Decidable b.Fits := inferInstanceAs (Decidable (_ ∧ _))

/-- The name starts at byte 11; the record length is rounded to 4. -/
def glibc (b : Dirent) : GlibcDirent :=
  let name := b.name.take 255
  ⟨b.ino, b.off, (11 + name.length + 1 + 3) / 4 * 4 % 2 ^ 16, b.type, name⟩

end Dirent

def enomem : ℕ := 12

def eoverflow : ℕ := 75

def toGlibcDirent (b : Dirent) : Except ℕ GlibcDirent := if b.Fits then .ok b.glibc else .error eoverflow

/-- An allocated copy of an entry. -/
structure Slot where
  block : ℕ
  size : ℕ
  entry : GlibcDirent

/-- The directory, the functions passed in and the answers of the allocator. A filter sees the
number of its call and `errno`; a comparison function leaves some order of the array. -/
structure Env where
  opendir : Option ℕ+ := none
  entries : List Dirent
  readdir : Option ℕ+ := none
  filter : Option (ℕ → GlibcDirent → ℕ → Bool × ℕ) := none
  alloc : ℕ → Bool := fun _ => true
  compar : Option { sort : List Slot → List Slot // ∀ v, (sort v).Perm v } := none

structure State where
  errno : ℕ := 0
  calls : ℕ := 0
  v : List Slot := []
  array : Option ℕ := none
  cap : ℕ := 0
  made : ℕ := 0
  freed : Multiset ℕ := 0
  refused : Bool := false
  closed : ℕ := 0

namespace Env

variable (e : Env)

/-- An allocation is refused, or the state changes with it. -/
def allocate (f : State → State) : Prog State ℕ Unit := do
  if e.alloc (← get).made then modify fun s => { f s with made := s.made + 1 }
  else do
    modify fun s => { s with refused := true }
    throw enomem

/-- A full array is reallocated. -/
def grow : Prog State ℕ Unit := do
  let s ← get
  onlyIf (s.v.length = s.cap) (e.allocate fun s => { s with
    array := some s.made, cap := if s.cap = 0 then 16 else s.cap * 2
    freed := s.freed + s.array.toList })

def asks (calls : ℕ) (g : GlibcDirent) (errno : ℕ) : Bool × ℕ :=
  e.filter.elim (true, errno) fun filter => filter calls g errno

def body (b : Dirent) : Prog State ℕ Unit := do
  let g ← outcome (toGlibcDirent b)
  let s ← get
  modify fun s => { s with errno := (e.asks s.calls g s.errno).2, calls := s.calls + 1 }
  onlyIf (e.asks s.calls g s.errno).1 do
    e.grow
    e.allocate fun s => { s with v := s.v ++ [⟨s.made, g.reclen, g⟩] }

/-- Everything is freed, the directory closed and `errno` set. -/
def fail (saved : ℕ) : Prog State ℕ (List Slot) := do
  modify fun s => { s with
    freed := s.freed + s.v.map Slot.block + s.array.toList, closed := s.closed + 1 }
  throw saved

def sorted (v : List Slot) : List Slot := if 1 < v.length then e.compar.elim v fun sort => sort.1 v else v

def nvgScandir : Prog State ℕ (List Slot) := do
  match e.opendir with
  | some errno => throw errno.val
  | none =>
    match ← attempt (each e.body e.entries) with
    | .error saved => fail saved
    | .ok _ => do
      let s ← get
      let errno := e.readdir.elim s.errno PNat.val
      if errno ≠ 0 then fail errno
      else do
        modify fun s => { s with closed := s.closed + 1 }
        pure (e.sorted s.v)

/-! ## What is returned -/

/-- What the filter accepts of the converted entries, and the `errno` its calls leave. -/
def accepted : ℕ → ℕ → List Dirent → List GlibcDirent × ℕ
  | _, errno, [] => ([], errno)
  | calls, errno, b :: bs =>
    let answer := e.asks calls b.glibc errno
    let rest := accepted (calls + 1) answer.2 bs
    (if answer.1 then b.glibc :: rest.1 else rest.1, rest.2)

end Env

/-- The copy fills an allocation of its record length, with the whole name and its terminator. -/
def Slot.Whole (slot : Slot) : Prop :=
  slot.size = slot.entry.reclen ∧ 11 + slot.entry.name.length + 1 ≤ slot.size

/-- Each allocation was freed once or is held in one place. -/
structure State.Held (s : State) : Prop where
  blocks : Multiset.range s.made = s.freed + s.v.map Slot.block + s.array.toList
  whole : ∀ slot ∈ s.v, slot.Whole
  closed : s.closed = 0

variable {e : Env} {s : State} {f : State → State}

lemma Dirent.glibc_whole (b : Dirent) : 11 + b.glibc.name.length + 1 ≤ b.glibc.reclen := by
  have := b.terminated
  simp only [glibc, length_take]
  omega

/-- How the loop fails. -/
def Env.Fails (e : Env) (saved : ℕ) (s : State) : Prop :=
  s.Held ∧ (saved = eoverflow ∧ (∃ b ∈ e.entries, ¬ b.Fits) ∨ saved = enomem ∧ s.refused = true)

lemma allocate_spec {post : State → Prop} (hs : s.Held) (h : post { f s with made := s.made + 1 }) :
    Spec (s = ·) (e.allocate f) (fun _ => post) e.Fails := by
  refine .look (.branch (fun _ => .change h) fun _ => .write (e.Fails enomem) ?_ (.of_throw fun _ h => h))
  rintro _ rfl
  exact ⟨⟨hs.blocks, hs.whole, hs.closed⟩, .inr ⟨rfl, rfl⟩⟩

lemma grow_spec (hs : s.Held) : Spec (s = ·) e.grow (fun _ t => t.Held ∧ ∃ array cap made freed,
    t = { s with array := array, cap := cap, made := made, freed := freed }) e.Fails := by
  refine .look (.branch (fun _ => allocate_spec hs ⟨⟨?_, hs.whole, hs.closed⟩, _, _, _, _, rfl⟩) fun _ =>
    .unchanged ⟨hs, _, _, _, _, rfl⟩)
  simp only [Multiset.range_succ, hs.blocks, Option.toList_some, Multiset.coe_singleton,
    ← Multiset.singleton_add]
  abel

/-- What was copied and what is to come is what the filter accepts. -/
structure Env.Copying (e : Env) (rest : List Dirent) (s : State) : Prop extends s.Held where
  granted : s.refused = false
  suffix : rest <:+ e.entries
  fits : ∀ b ∈ e.entries, b ∈ rest ∨ b.Fits
  v : s.v.map Slot.entry ++ (e.accepted s.calls s.errno rest).1 = (e.accepted 0 0 e.entries).1
  left : (e.accepted s.calls s.errno rest).2 = (e.accepted 0 0 e.entries).2

lemma Env.Copying.next {t : State} {b : Dirent} {rest : List Dirent} (h : e.Copying (b :: rest) s)
    (hfits : b.Fits) (ht : t.Held) (hrefused : t.refused = s.refused) (hcalls : t.calls = s.calls + 1)
    (herrno : t.errno = (e.asks s.calls b.glibc s.errno).2) (hv : t.v.map Slot.entry =
      s.v.map Slot.entry ++ if (e.asks s.calls b.glibc s.errno).1 then [b.glibc] else []) :
    e.Copying rest t := by
  refine ⟨ht, hrefused.trans h.granted, (suffix_cons _ _).trans h.suffix, ?_, ?_, ?_⟩
  · intro other hother
    rcases h.fits other hother with hmem | hfit
    · rcases mem_cons.mp hmem with rfl | hmem
      · exact .inr hfits
      · exact .inl hmem
    · exact .inr hfit
  · rw [← h.v, hv, hcalls, herrno]
    by_cases hasks : (e.asks s.calls b.glibc s.errno).1 <;> simp [Env.accepted, hasks]
  · rw [← h.left, hcalls, herrno]
    rfl

lemma body_spec (b : Dirent) (rest : List Dirent) :
    Spec (e.Copying (b :: rest)) (e.body b) (fun _ => e.Copying rest) e.Fails := by
  apply Spec.of_states
  intro s hs
  unfold Env.body toGlibcDirent
  by_cases hfits : b.Fits
  · rw [if_pos hfits]
    refine .known rfl (.look (.known rfl (.branch (fun hasks => ?_) fun hasks => ?_)))
    · have hasked : State.Held { s with errno := (e.asks s.calls b.glibc s.errno).2, calls := s.calls + 1 } :=
        ⟨hs.blocks, hs.whole, hs.closed⟩
      refine .seq (grow_spec hasked) fun _ => .of_states ?_
      rintro _ ⟨hheld, array, cap, made, freed, rfl⟩
      refine allocate_spec hheld (hs.next hfits ⟨?_, ?_, hheld.closed⟩ rfl rfl rfl (by simp [hasks]))
      · simp only [Multiset.range_succ, hheld.blocks, map_append, ← Multiset.coe_add,
          ← Multiset.singleton_add, map_cons, map_nil, Multiset.coe_singleton]
        abel
      · simp only [forall_mem_append, forall_mem_singleton]
        exact ⟨hheld.whole, rfl, b.glibc_whole⟩
    · refine .unchanged (hs.next hfits ⟨hs.blocks, hs.whole, hs.closed⟩ rfl rfl rfl ?_)
      simp [hasks]
  · rw [if_neg hfits]
    refine .compute (fun g hg => by cases hg) ?_
    rintro saved u ⟨⟩ rfl
    exact ⟨hs.toHeld, .inl ⟨rfl, b, hs.suffix.subset mem_cons_self, hfits⟩⟩

lemma loop_spec : Spec (· = {}) (each e.body e.entries) (fun _ => e.Copying []) e.Fails := by
  refine (Spec.of_each e.Copying body_spec e.entries).before ?_
  rintro _ rfl
  exact ⟨⟨rfl, by simp, rfl⟩, rfl, suffix_rfl, fun _ h => .inl h, rfl, rfl⟩

lemma fail_spec {saved : ℕ} {ok : List Slot → State → Prop} {err : ℕ → State → Prop} (hs : s.Held)
    (h : ∀ t : State, t.freed = Multiset.range t.made → t.closed = 1 → t.refused = s.refused → err saved t) :
    Spec (s = ·) (Env.fail saved) ok err := by
  refine .write (err saved) ?_ (.of_throw fun _ h => h)
  rintro _ rfl
  exact h _ hs.blocks.symm (by rw [hs.closed]) rfl

lemma sorted_perm (e : Env) (v : List Slot) : (e.sorted v).Perm v := by
  unfold Env.sorted
  split_ifs
  · cases e.compar with
    | none => rfl
    | some sort => exact sort.2 v
  · rfl

/-- A failed call frees every allocation once and closes the directory. It fails for its cause, or
because the calls of the filter left `errno` set; otherwise it returns what the filter accepts. -/
theorem nvgScandir_exact (e : Env) : Spec (· = {}) e.nvgScandir
    (fun v s => e.opendir = none ∧ e.readdir = none ∧ (∀ b ∈ e.entries, b.Fits) ∧ s.refused = false ∧
      (e.accepted 0 0 e.entries).2 = 0 ∧ s.closed = 1 ∧ (∀ slot ∈ v, slot.Whole) ∧
      (v.map Slot.entry).Perm (e.accepted 0 0 e.entries).1 ∧
      Multiset.range s.made = s.freed + v.map Slot.block + s.array.toList)
    fun errno s => s.freed = Multiset.range s.made ∧ s.closed = (if e.opendir = none then 1 else 0) ∧
      (e.opendir.map PNat.val = some errno ∨ e.readdir.map PNat.val = some errno ∨
        errno = eoverflow ∧ (∃ b ∈ e.entries, ¬ b.Fits) ∨ errno = enomem ∧ s.refused = true ∨
        errno = (e.accepted 0 0 e.entries).2 ∧ errno ≠ 0) := by
  unfold Env.nvgScandir
  cases hopen : e.opendir with
  | some errno =>
    refine .of_throw ?_
    rintro _ rfl
    simp
  | none =>
    refine .observe loop_spec (fun _ => ?_) fun saved => ?_
    · refine .read fun s hs => .branch (fun herrno => fail_spec hs.toHeld ?_) fun herrno => .last ?_
      · intro t hfreed hclosed _
        refine ⟨hfreed, hclosed, ?_⟩
        cases hread : e.readdir with
        | some errno => simp
        | none =>
          rw [hread] at herrno
          exact .inr (.inr (.inr (.inr ⟨hs.left, herrno⟩)))
      · have hread : e.readdir = none := by
          cases hread : e.readdir with
          | some errno => simp [hread] at herrno
          | none => rfl
        rw [hread, not_not] at herrno
        have hperm := sorted_perm e s.v
        refine ⟨rfl, hread, fun b hb => (hs.fits b hb).resolve_left nofun, hs.granted, hs.left.symm.trans herrno,
          by rw [hs.closed], fun slot hslot => hs.whole slot (hperm.mem_iff.mp hslot), ?_, ?_⟩
        · have hv := hs.v
          simp only [Env.accepted, append_nil] at hv
          exact hv ▸ hperm.map Slot.entry
        · rw [Multiset.coe_eq_coe.mpr (hperm.map Slot.block)]
          exact hs.blocks
    · refine .of_states fun s hs => fail_spec hs.1 ?_
      intro t hfreed hclosed hrefused
      refine ⟨hfreed, hclosed, .inr (.inr ?_)⟩
      rw [hrefused]
      exact hs.2.imp_right .inl

/-- The filter accepts the one entry and sets `errno`. -/
def noisy : Env where
  entries := [⟨1, 0, 8, [97], by decide⟩]
  filter := some fun _ _ _ => (true, 2)

theorem nvgScandir_fails_after_filter : noisy.opendir = none ∧ noisy.readdir = none ∧
    (∀ b ∈ noisy.entries, b.Fits) ∧ (∀ k, noisy.alloc k = true) ∧
    failure (exec noisy.nvgScandir {}).1 = some 2 := by
  refine ⟨rfl, rfl, by decide, fun _ => rfl, rfl⟩

end NvidiaProlapse.Scandir
