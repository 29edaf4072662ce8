import Mathlib.Tactic

/-!
# Programs that keep their changes when they fail

A program reads and writes a state and returns a value or an error. What it wrote
before an error stays written. `Spec pre p ok err` says that from every state with
`pre` the program returns a value and a state related by `ok`, or an error and a
state related by `err`.
-/
namespace NvidiaProlapse.Programs

variable {σ τ ε α β : Type}

abbrev Prog (σ ε : Type) := ExceptT ε (StateM σ)

/-- The outcome of a program and the state it leaves. -/
def exec (p : Prog σ ε α) (s : σ) : Except ε α × σ := p.run.run s

/-- The error of a failed computation. -/
def failure : Except ε α → Option ε
  | .ok _ => none
  | .error e => some e

/-- The outcome as a value. -/
def attempt (p : Prog σ ε α) : Prog σ ε (Except ε α) :=
  ExceptT.mk fun s => (.ok (exec p s).1, (exec p s).2)

/-- A computed outcome. -/
def outcome (r : Except ε α) : Prog σ ε α := ExceptT.mk (pure r)

/-- A program whose result is not looked at. -/
def ignore (p : Prog σ ε α) : Prog σ ε Unit := do
  let _ ← p
  pure ()

def onlyIf (c : Prop) [Decidable c] (p : Prog σ ε Unit) : Prog σ ε Unit :=
  if c then p else pure ()

/-- A program on a part of the state. -/
def focus (view : σ → τ) (update : τ → σ → σ) (p : Prog τ ε α) : Prog σ ε α :=
  ExceptT.mk fun s => ((exec p (view s)).1, update (exec p (view s)).2 s)

/-- The body for each element in turn, up to the first error. -/
def each (body : α → Prog σ ε Unit) : List α → Prog σ ε Unit
  | [] => pure ()
  | x :: xs => do
    body x
    each body xs

/-- Visit the elements of a list kept in the state and discard those not to keep. A
discarded element leaves the list before its effect; the elements not visited yet
are still in it. -/
def sweep (update : List α → σ → σ) (visit : α → β → Prog σ ε (Bool × β)) (discard : α → σ → σ) :
    List α → List α → β → Prog σ ε β
  | _, [], b => pure b
  | kept, x :: rest, b => do
    let (keep, b) ← visit x b
    if keep then sweep update visit discard (kept ++ [x]) rest b
    else do
      modify fun s => discard x (update (kept ++ rest) s)
      sweep update visit discard kept rest b

/-! ## Execution -/

@[simp] lemma exec_pure (a : α) (s : σ) : exec (pure a : Prog σ ε α) s = (.ok a, s) := rfl

@[simp] lemma exec_throw (e : ε) (s : σ) : exec (throw e : Prog σ ε α) s = (.error e, s) := rfl

@[simp] lemma exec_get (s : σ) : exec (get : Prog σ ε σ) s = (.ok s, s) := rfl

@[simp] lemma exec_modify (f : σ → σ) (s : σ) :
    exec (modify f : Prog σ ε PUnit) s = (.ok ⟨⟩, f s) := rfl

@[simp] lemma exec_outcome (r : Except ε α) (s : σ) : exec (outcome r : Prog σ ε α) s = (r, s) :=
  rfl

@[simp] lemma exec_attempt (p : Prog σ ε α) (s : σ) :
    exec (attempt p) s = (.ok (exec p s).1, (exec p s).2) := rfl

@[simp] lemma exec_focus (view : σ → τ) (update : τ → σ → σ) (p : Prog τ ε α) (s : σ) :
    exec (focus view update p) s = ((exec p (view s)).1, update (exec p (view s)).2 s) := rfl

lemma exec_bind (p : Prog σ ε α) (f : α → Prog σ ε β) (s : σ) :
    exec (p >>= f) s =
      match exec p s with
      | (.ok a, t) => exec (f a) t
      | (.error e, t) => (.error e, t) := by
  rcases h : exec p s with ⟨r, t⟩
  cases r
  all_goals
    simp_all only [exec, bind, ExceptT.bind, ExceptT.mk, StateT.bind, ExceptT.run, StateT.run]
    rfl

/-! ## Pre- and postconditions -/

def Spec (pre : σ → Prop) (p : Prog σ ε α) (ok : α → σ → Prop) (err : ε → σ → Prop) : Prop :=
  ∀ s, pre s →
    (∀ a t, exec p s = (.ok a, t) → ok a t) ∧ ∀ e t, exec p s = (.error e, t) → err e t

/-- The program keeps `inv`, whether it succeeds or fails. -/
def Keeps (inv : σ → Prop) (p : Prog σ ε α) : Prop := Spec inv p (fun _ => inv) fun _ => inv

/-- From `s` the program ends in `good`, whether it succeeds or fails. -/
abbrev Ends (s : σ) (p : Prog σ ε α) (good : σ → Prop) : Prop := Spec (s = ·) p (fun _ => good) fun _ => good

/-- What holds where the program succeeds. -/
abbrev Yields (pre : σ → Prop) (p : Prog σ ε α) (ok : α → σ → Prop) : Prop := Spec pre p ok fun _ _ => True

/-- The program never fails. -/
def Total (p : Prog σ ε α) : Prop := Spec (fun _ => True) p (fun _ _ => True) fun _ _ => False

section Rules

variable {pre : σ → Prop} {ok : α → σ → Prop} {err : ε → σ → Prop}

variable {err' : ε → σ → Prop} {ok' : α → σ → Prop} {p : Prog σ ε α} {s : σ} {f : β → Prog σ ε α}
  {inv : σ → Prop} {body : β → Prog σ ε Unit} {xs : List β}

lemma Spec.weaken {pre' : σ → Prop} (h : Spec pre' p ok' err') (hpre : ∀ s, pre s → pre' s)
    (hok : ∀ a s, ok' a s → ok a s) (herr : ∀ e s, err' e s → err e s) : Spec pre p ok err := by
  intro s hs
  obtain ⟨h1, h2⟩ := h s (hpre s hs)
  exact ⟨fun a t hrun => hok a t (h1 a t hrun), fun e t hrun => herr e t (h2 e t hrun)⟩

lemma Spec.both (h : Spec pre p ok err) (h' : Spec pre p ok' err') :
    Spec pre p (fun a s => ok a s ∧ ok' a s) fun e s => err e s ∧ err' e s := by
  intro s hs
  obtain ⟨h1, h2⟩ := h s hs
  obtain ⟨h1', h2'⟩ := h' s hs
  exact ⟨fun a t hrun => ⟨h1 a t hrun, h1' a t hrun⟩, fun e t hrun => ⟨h2 e t hrun, h2' e t hrun⟩⟩

lemma Spec.pair {pre' : σ → Prop} (h : Spec pre p ok err) (h' : Spec pre' p ok' err') :
    Spec (fun s => pre s ∧ pre' s) p (fun a s => ok a s ∧ ok' a s) fun e s => err e s ∧ err' e s :=
  (h.weaken (fun _ hs => hs.1) (fun _ _ h => h) fun _ _ h => h).both
    (h'.weaken (fun _ hs => hs.2) (fun _ _ h => h) fun _ _ h => h)

/-- Nothing is said about what a program does. -/
lemma Spec.anything (pre : σ → Prop) (p : Prog σ ε α) :
    Spec pre p (fun _ _ => True) fun _ _ => True :=
  fun _ _ => ⟨fun _ _ _ => trivial, fun _ _ _ => trivial⟩

/-- The same holds of the state after success and after failure. -/
lemma Spec.state {good : σ → Prop} (h : Spec (s = ·) p (fun _ => good) fun _ => good) :
    good (exec p s).2 := by
  obtain ⟨h1, h2⟩ := h s rfl
  rcases hrun : exec p s with ⟨r, t⟩
  cases r with
  | ok a => exact h1 a t hrun
  | error e => exact h2 e t hrun

/-- A program that never fails needs no case for it. -/
lemma Total.spec (hp : Total p) (h : Spec pre p ok err') : Spec pre p ok err := by
  intro s hs
  refine ⟨(h s hs).1, ?_⟩
  intro e t hrun
  exact ((hp s trivial).2 e t hrun).elim

/-- A specification may be proved from each state by itself. -/
lemma Spec.of_states (h : ∀ s, pre s → Spec (s = ·) p ok err) :
    Spec pre p ok err := fun s hs => h s hs s rfl

/-- A specification at one of its states. -/
lemma Spec.enter (h : Spec pre p ok err) (hs : pre s) : Spec (s = ·) p ok err := by
  rintro _ rfl
  exact h s hs

/-- The outcome of a known state is known, too. -/
lemma Spec.traced (h : Spec (s = ·) p ok err) :
    Spec (s = ·) p (fun a t => ok a t ∧ exec p s = (.ok a, t))
      fun e t => err e t ∧ exec p s = (.error e, t) := by
  rintro _ rfl
  obtain ⟨h1, h2⟩ := h s rfl
  exact ⟨fun a t hrun => ⟨h1 a t hrun, hrun⟩, fun e t hrun => ⟨h2 e t hrun, hrun⟩⟩

lemma Spec.of_pure {a : α} (h : ∀ s, pre s → ok a s) :
    Spec pre (pure a : Prog σ ε α) ok err := by
  intro s hs
  constructor
  · rintro _ _ hrun
    cases hrun
    exact h s hs
  · rintro _ _ hrun
    cases hrun

lemma Spec.of_throw {e : ε} (h : ∀ s, pre s → err e s) :
    Spec pre (throw e : Prog σ ε α) ok err := by
  intro s hs
  constructor
  · rintro _ _ hrun
    cases hrun
  · rintro _ _ hrun
    cases hrun
    exact h s hs

lemma Spec.ret {a : α} : Spec pre (pure a : Prog σ ε α) (fun _ => pre) err :=
  Spec.of_pure fun _ h => h

/-- Nothing is said of an error. -/
lemma Spec.thrown {e : ε} : Spec pre (throw e : Prog σ ε α) ok fun _ _ => True :=
  Spec.of_throw fun _ _ => trivial

lemma Spec.raise {e : ε} : Spec pre (throw e : Prog σ ε α) ok fun _ => pre :=
  Spec.of_throw fun _ h => h

/-- A weaker postcondition. -/
lemma Spec.post (h : Spec pre p ok' err') (hok : ∀ a s, ok' a s → ok a s)
    (herr : ∀ e s, err' e s → err e s) : Spec pre p ok err := h.weaken (fun _ h => h) hok herr

/-- A weaker condition where the program fails. -/
lemma Spec.fallback (h : Spec pre p ok err') (herr : ∀ e s, err' e s → err e s) :
    Spec pre p ok err := h.post (fun _ _ h => h) herr

/-- A weaker condition where it succeeds. -/
lemma Spec.after (h : Spec pre p ok' err) (hok : ∀ a s, ok' a s → ok a s) : Spec pre p ok err :=
  h.post hok fun _ _ h => h

/-- A stronger condition before it. -/
lemma Spec.before {pre' : σ → Prop} (h : Spec pre' p ok err) (hpre : ∀ s, pre s → pre' s) :
    Spec pre p ok err := h.weaken hpre (fun _ _ h => h) fun _ _ h => h

lemma Spec.of_modify {ok : PUnit → σ → Prop} {f : σ → σ} (h : ∀ s, pre s → ok ⟨⟩ (f s)) :
    Spec pre (modify f : Prog σ ε PUnit) ok err := by
  intro s hs
  constructor
  · rintro _ _ hrun
    cases hrun
    exact h s hs
  · rintro _ _ hrun
    cases hrun

lemma Spec.of_outcome {r : Except ε α} (hok : ∀ a s, pre s → r = .ok a → ok a s)
    (herr : ∀ e s, pre s → r = .error e → err e s) :
    Spec pre (outcome r : Prog σ ε α) ok err := by
  intro s hs
  constructor
  · rintro a _ hrun
    cases hrun
    exact hok a s hs rfl
  · rintro e _ hrun
    cases hrun
    exact herr e s hs rfl

lemma Spec.branch {c : Prop} [Decidable c] {q : Prog σ ε α} (hp : c → Spec pre p ok err)
    (hq : ¬ c → Spec pre q ok err) : Spec pre (if c then p else q) ok err := by
  split_ifs with hc
  · exact hp hc
  · exact hq hc

/-- Both branches do whatever the condition. -/
lemma Spec.either {c : Prop} [Decidable c] {q : Prog σ ε α} (hp : Spec pre p ok err)
    (hq : Spec pre q ok err) : Spec pre (if c then p else q) ok err :=
  Spec.branch (fun _ => hp) fun _ => hq

lemma Spec.seq {p : Prog σ ε β} {mid : β → σ → Prop} (hp : Spec pre p mid err)
    (hf : ∀ b, Spec (mid b) (f b) ok err) : Spec pre (p >>= f) ok err := by
  intro s hs
  obtain ⟨hgood, hbad⟩ := hp s hs
  rw [exec_bind]
  rcases hrun : exec p s with ⟨r, t⟩
  cases r with
  | ok b => exact hf b t (hgood b t hrun)
  | error e =>
    constructor
    · rintro _ _ h
      cases h
    · rintro _ _ h
      cases h
      exact hbad e t hrun

/-- What follows a program that returns nothing. -/
lemma Spec.next {p : Prog σ ε PUnit} {f : PUnit → Prog σ ε α} {mid : σ → Prop}
    (hp : Spec pre p (fun _ => mid) err) (hf : Spec mid (f ⟨⟩) ok err) : Spec pre (p >>= f) ok err :=
  Spec.seq hp fun _ => hf

/-- A step that keeps the precondition. -/
lemma Spec.keeping {p : Prog σ ε β} (hp : Keeps pre p) (herr : ∀ e s, pre s → err e s)
    (hf : ∀ b, Spec pre (f b) ok err) : Spec pre (p >>= f) ok err :=
  Spec.seq (hp.weaken (fun _ h => h) (fun _ _ h => h) herr) hf

/-- A computed outcome leaves the state as it is. -/
lemma Spec.compute {r : Except ε β} (hok : ∀ b, r = .ok b → Spec pre (f b) ok err)
    (herr : ∀ e s, r = .error e → pre s → err e s) : Spec pre (outcome r >>= f) ok err := by
  intro s hs
  cases r with
  | ok b => exact hok b rfl s hs
  | error e =>
    constructor
    · rintro _ _ h
      cases h
    · rintro _ _ h
      cases h
      exact herr e s rfl hs

/-- At a known state a computed outcome may be an error. -/
lemma Spec.given {r : Except ε β} {good : σ → Prop} (hs : good s)
    (hok : ∀ b, r = .ok b → Spec (s = ·) (f b) ok fun _ => good) :
    Spec (s = ·) (outcome r >>= f) ok fun _ => good := .compute hok fun _ _ _ h => h ▸ hs

lemma Spec.tried {r : Except ε β} (hok : ∀ b, r = .ok b → Spec pre (f b) ok fun _ _ => True) :
    Spec pre (outcome r >>= f) ok fun _ _ => True := .compute hok fun _ _ _ _ => trivial

lemma Spec.refused {e : ε} (hs : err e s) : Spec (s = ·) (throw e : Prog σ ε α) ok err :=
  Spec.of_throw fun _ h => h ▸ hs

lemma Spec.unchanged {a : α} (hs : ok a s) : Spec (s = ·) (pure a : Prog σ ε α) ok err :=
  Spec.of_pure fun _ h => h ▸ hs

/-- A call that is refused under a condition. -/
lemma Spec.guarded {c : Prop} [Decidable c] {e : ε} (hs : err e s)
    (hp : ¬ c → Spec (s = ·) p ok err) : Spec (s = ·) (if c then throw e else p) ok err :=
  Spec.branch (fun _ => .refused hs) hp

/-- What follows an attempt sees its outcome. -/
lemma Spec.observe {p : Prog σ ε β} {f : Except ε β → Prog σ ε α} {good : β → σ → Prop}
    {bad : ε → σ → Prop} (hp : Spec pre p good bad)
    (hgood : ∀ b, Spec (good b) (f (.ok b)) ok err)
    (hbad : ∀ e, Spec (bad e) (f (.error e)) ok err) : Spec pre (attempt p >>= f) ok err := by
  intro s hs
  obtain ⟨h1, h2⟩ := hp s hs
  rcases hrun : exec p s with ⟨r, t⟩
  rw [exec_bind, exec_attempt, hrun]
  cases r with
  | ok b => exact hgood b t (h1 b t hrun)
  | error e => exact hbad e t (h2 e t hrun)

lemma exec_ignore_state (p : Prog σ ε α) (s : σ) : (exec (Programs.ignore p) s).2 = (exec p s).2 := by
  unfold Programs.ignore
  rw [exec_bind]
  rcases exec p s with ⟨r, t⟩
  cases r with
  | ok a => rfl
  | error e => rfl

lemma Keeps.ignore (h : Keeps inv p) :
    Keeps inv (Programs.ignore p) := .seq h fun _ => .ret

/-- What holds after a program whose result is not looked at. -/
lemma Spec.of_ignore {good : σ → Prop} (h : Spec pre (Programs.ignore p) (fun _ => good) err) :
    Spec pre p (fun _ => good) err := by
  intro s hs
  obtain ⟨h1, h2⟩ := h s hs
  unfold Programs.ignore at h1 h2
  simp only [exec_bind] at h1 h2
  refine ⟨fun a t hrun => h1 () t ?_, fun e t hrun => h2 e t ?_⟩
  · rw [hrun]
    rfl
  · rw [hrun]

lemma Keeps.onlyIf {c : Prop} [Decidable c] {p : Prog σ ε Unit} (h : Keeps inv p) :
    Keeps inv (Programs.onlyIf c p) := by
  unfold Programs.onlyIf
  split_ifs
  · exact h
  · exact .ret

/-- A step whose result from a known state is known. -/
lemma Spec.known {p : Prog σ ε β} {t : σ} {b : β} (hrun : exec p s = (.ok b, t))
    (h : Spec (t = ·) (f b) ok err) : Spec (s = ·) (p >>= f) ok err := by
  rintro _ rfl
  rw [exec_bind, hrun]
  exact h t rfl

lemma Spec.read {f : σ → Prog σ ε α} (h : ∀ s, pre s → Spec (s = ·) (f s) ok err) :
    Spec pre (get >>= f) ok err := by
  intro s hs
  exact h s hs s rfl

/-- A known state is what is read. -/
lemma Spec.look {f : σ → Prog σ ε α} (h : Spec (s = ·) (f s) ok err) :
    Spec (s = ·) (get >>= f) ok err := .known rfl h

/-- What is looked up in the state may be missing. -/
lemma Spec.fetched {r : σ → Except ε β} {f : σ → β → Prog σ ε α}
    (h : ∀ s, pre s → ∀ b, r s = .ok b → Spec (s = ·) (f s b) ok fun _ => pre) :
    Spec pre (get >>= fun s => outcome (r s) >>= f s) ok fun _ => pre :=
  Spec.read fun s hs => .given hs (h s hs)

lemma Spec.write {f : σ → σ} {rest : PUnit → Prog σ ε α} (mid : σ → Prop)
    (hmid : ∀ s, pre s → mid (f s)) (h : Spec mid (rest ⟨⟩) ok err) :
    Spec pre (modify f >>= rest) ok err := by
  intro s hs
  exact h (f s) (hmid s hs)

/-- What follows a change holds from every state. -/
lemma Spec.anew {f : σ → σ} {rest : PUnit → Prog σ ε α}
    (h : Spec (fun _ => True) (rest ⟨⟩) ok err) : Spec pre (modify f >>= rest) ok err :=
  Spec.write _ (fun _ _ => trivial) h

/-- The last change before a value is returned. -/
lemma Spec.finish {f : σ → σ} {a : α} (h : ∀ s, pre s → ok a (f s)) :
    Spec pre (modify f >>= fun _ => (pure a : Prog σ ε α)) ok err := .write (ok a) h (.of_pure fun _ h => h)

/-- The last change of a known state. -/
lemma Spec.last {f : σ → σ} {a : α} (h : ok a (f s)) :
    Spec (s = ·) (modify f >>= fun _ => (pure a : Prog σ ε α)) ok err := .finish fun _ hs => hs ▸ h

lemma Spec.change {ok : PUnit → σ → Prop} {f : σ → σ} (h : ok ⟨⟩ (f s)) :
    Spec (s = ·) (modify f : Prog σ ε PUnit) ok err := .of_modify fun _ hs => hs ▸ h

lemma Spec.of_focus {view : σ → τ} {update : τ → σ → σ} {p : Prog τ ε α}
    (h : ∀ s, pre s → Spec (view s = ·) p (fun a t => ok a (update t s))
      fun e t => err e (update t s)) :
    Spec pre (focus view update p) ok err := by
  intro s hs
  obtain ⟨hgood, hbad⟩ := h s hs (view s) rfl
  rcases hrun : exec p (view s) with ⟨r, t⟩
  constructor
  all_goals
    intro out _ heq
    simp only [exec_focus, hrun, Prod.mk.injEq] at heq
    obtain ⟨rfl, rfl⟩ := heq
  · exact hgood out t hrun
  · exact hbad out t hrun

/-- The invariant of a loop may name the elements still to come. -/
lemma Spec.of_each (inv : List β → σ → Prop)
    (hbody : ∀ x xs, Spec (inv (x :: xs)) (body x) (fun _ => inv xs) err) (xs : List β) :
    Spec (inv xs) (each body xs) (fun _ => inv []) err := by
  induction xs with
  | nil => exact .ret
  | cons x xs ih => exact .seq (hbody x xs) fun _ => ih

lemma exec_each_concat {x : β} {t u : σ} (hxs : exec (each body xs) s = (.ok (), t))
    (hx : exec (body x) t = (.ok (), u)) : exec (each body (xs ++ [x])) s = (.ok (), u) := by
  induction xs generalizing s with
  | nil =>
    cases hxs
    show exec (body x >>= fun _ => each body []) t = _
    rw [exec_bind, hx]
    rfl
  | cons y xs ih =>
    have hsplit : exec (body y >>= fun _ => each body xs) s = (.ok (), t) := hxs
    show exec (body y >>= fun _ => each body (xs ++ [x])) s = _
    rw [exec_bind] at hsplit ⊢
    rcases hy : exec (body y) s with ⟨r, v⟩
    rw [hy] at hsplit
    cases r with
    | ok a => exact ih hsplit
    | error e => cases hsplit

lemma exec_each_append {ys : List β} {u : σ} (h : exec (each body (xs ++ ys)) s = (.ok (), u)) :
    ∃ t, exec (each body xs) s = (.ok (), t) ∧ exec (each body ys) t = (.ok (), u) := by
  induction xs generalizing s with
  | nil => exact ⟨s, rfl, h⟩
  | cons x xs ih =>
    have hsplit : exec (body x >>= fun _ => each body (xs ++ ys)) s = (.ok (), u) := h
    rw [exec_bind] at hsplit
    rcases hx : exec (body x) s with ⟨r, v⟩
    rw [hx] at hsplit
    cases r with
    | error e => cases hsplit
    | ok a =>
      obtain ⟨t, hxs, hys⟩ := ih hsplit
      refine ⟨t, ?_, hys⟩
      show exec (body x >>= fun _ => each body xs) s = _
      rw [exec_bind, hx]
      exact hxs

/-- The body of a loop may use how the loop came to it. -/
lemma Spec.of_each_reached (inv : List β → σ → Prop) (hs : inv xs s)
    (hbody : ∀ before x after t, xs = before ++ x :: after → exec (each body before) s =
      (.ok (), t) → inv (x :: after) t → Spec (t = ·) (body x) (fun _ => inv after) err) :
    Spec (s = ·) (each body xs) (fun _ => inv []) err := by
  suffices h : ∀ rest before t, xs = before ++ rest → exec (each body before) s = (.ok (), t) →
      inv rest t → Spec (t = ·) (each body rest) (fun _ => inv []) err from h xs [] s rfl rfl hs
  intro rest
  induction rest with
  | nil =>
    rintro before t - - ht
    exact .of_pure fun u hu => hu ▸ ht
  | cons x rest ih =>
    intro before t hxs hbefore ht
    refine .seq ((hbody before x rest t hxs hbefore ht).traced.weaken (fun _ h => h)
      (fun _ _ h => h) fun _ _ h => h.1) ?_
    rintro ⟨⟩
    apply Spec.of_states
    rintro u ⟨hu, hx⟩
    exact ih (before ++ [x]) u (by simpa using hxs) (exec_each_concat hbefore hx) hu

lemma Keeps.of_each (hbody : ∀ x, Keeps inv (body x)) (xs : List β) : Keeps inv (each body xs) :=
  Spec.of_each (fun _ => inv) (fun x _ => hbody x) xs

/-- The invariant of a sweep names the list that is left. -/
lemma Spec.of_sweep {update : List β → σ → σ} {visit : β → α → Prog σ ε (Bool × α)}
    {discard : β → σ → σ} (inv : List β → σ → Prop)
    (hvisit : ∀ kept x rest a, Spec (inv (kept ++ x :: rest)) (visit x a)
      (fun _ => inv (kept ++ x :: rest)) err)
    (hdiscard : ∀ kept x rest s, inv (kept ++ x :: rest) s →
      inv (kept ++ rest) (discard x (update (kept ++ rest) s)))
    (kept rest : List β) (a : α) :
    Spec (inv (kept ++ rest)) (sweep update visit discard kept rest a)
      (fun _ s => ∃ left, inv left s) err := by
  induction rest generalizing kept a with
  | nil =>
    apply Spec.of_pure
    intro s hs
    exact ⟨_, hs⟩
  | cons x rest ih =>
    refine .seq (hvisit kept x rest a) ?_
    intro out
    obtain ⟨keep, a'⟩ := out
    cases keep with
    | true =>
      refine (ih (kept ++ [x]) a').weaken ?_ (fun _ _ => id) (fun _ _ => id)
      intro s hs
      simpa using hs
    | false =>
      refine .write (inv (kept ++ rest)) ?_ (ih kept a')
      intro s hs
      exact hdiscard kept x rest s hs

end Rules

/-! ## Programs that never fail -/

lemma Total.of_pure (a : α) : Total (pure a : Prog σ ε α) := Spec.of_pure fun _ _ => trivial

lemma Total.of_modify (f : σ → σ) : Total (modify f : Prog σ ε PUnit) :=
  Spec.of_modify fun _ _ => trivial

lemma Total.of_attempt (p : Prog σ ε α) : Total (attempt p) := by
  intro s _
  refine ⟨fun _ _ _ => trivial, ?_⟩
  intro e t hrun
  cases hrun

lemma Total.seq {p : Prog σ ε β} {f : β → Prog σ ε α} (hp : Total p) (hf : ∀ b, Total (f b)) :
    Total (p >>= f) := Spec.seq hp hf

lemma Total.read {f : σ → Prog σ ε α} (h : ∀ s, Total (f s)) : Total (get >>= f) :=
  Spec.read fun s _ => (h s).enter trivial

lemma Total.branch {c : Prop} [Decidable c] {p q : Prog σ ε α} (hp : Total p) (hq : Total q) :
    Total (if c then p else q) := Spec.branch (fun _ => hp) fun _ => hq

lemma Total.of_focus {view : σ → τ} {update : τ → σ → σ} {p : Prog τ ε α} (h : Total p) :
    Total (focus view update p) :=
  Spec.of_focus fun _ _ => h.enter trivial

lemma Total.of_each {body : β → Prog σ ε Unit} (h : ∀ x, Total (body x)) (xs : List β) :
    Total (each body xs) := Spec.of_each (fun _ _ => True) (fun x _ => h x) xs

lemma Total.of_sweep {update : List β → σ → σ} {visit : β → α → Prog σ ε (Bool × α)}
    {discard : β → σ → σ} (h : ∀ x a, Total (visit x a)) (kept rest : List β) (a : α) :
    Total (sweep update visit discard kept rest a) :=
  (Spec.of_sweep (fun _ _ => True) (fun _ x _ a => h x a) (fun _ _ _ _ _ => trivial) kept rest
    a).weaken (fun _ _ => trivial) (fun _ _ _ => trivial) fun _ _ h => h

end NvidiaProlapse.Programs
