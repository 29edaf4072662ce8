import NvidiaProlapse.Counted
import NvidiaProlapse.Waiters

/-!
# No wakeup is lost

The invariant of the waiting protocol. A store made after a waiter evaluated its
predicate is announced by a new generation, because the waiter was registered. A
leader that polls found its generation unchanged after it became visible as
leader, so a later `notify` writes the descriptor. A follower that sleeps found
it unchanged under the lock after it became visible as follower, so a later
`notify` reaches the condition variable.
-/
namespace NvidiaProlapse.Waiters
open Runs

variable {Mem : Type}

/-! ## Control ranges -/

namespace WaiterPc

/-- Counted in `registered`. -/
def inside : WaiterPc → Bool
  | .idle => false
  | _ => true

/-- Counted in `followers`. -/
def following : WaiterPc → Bool
  | .lock | .checkGeneration | .checkLeader | .remaining | .asleep | .unlock | .leave => true
  | _ => false

/-- Between the claim and the release of leadership. -/
def leading : WaiterPc → Bool
  | .recheck | .scanDue | .scanNow | .polling | .polled | .drain | .scan | .resign _ => true
  | _ => false

/-- After an evaluation that was false and before the next one is due. -/
def evaluated : WaiterPc → Bool
  | .deadline | .claim | .recheck | .scanDue | .polling | .join | .lock | .checkGeneration
  | .checkLeader | .remaining | .asleep => true
  | _ => false

/-- The leader has found its generation unchanged. -/
def committed : WaiterPc → Bool
  | .scanDue | .polling => true
  | _ => false

/-- The follower has found its generation unchanged, and was not notified. -/
def settled (sleeping : Bool) : WaiterPc → Bool
  | .checkLeader | .remaining => true
  | .asleep => sleeping
  | _ => false

end WaiterPc

def Bump.holding : Bump → Bool
  | .notifyAll | .unlock => true
  | _ => false

/-- Holds the lock of the condition variable. -/
def WaiterPc.holding : WaiterPc → Bool
  | .checkGeneration | .checkLeader | .remaining | .unlock => true
  | .bump stage _ => stage.holding
  | _ => false

namespace Signaller

def holding : Signaller → Bool
  | .bump stage _ _ => stage.holding
  | _ => false

def store : Signaller → Option ℕ
  | .idle => none
  | .checkRegistered n | .bump _ n _ | .checkLeader n | .wake n => some n

/-- The store for which the generation was incremented. -/
def announced : Signaller → Option ℕ
  | .bump .increment _ _ => none
  | .bump _ n _ | .checkLeader n | .wake n => some n
  | _ => none

/-- The store for which every sleeping follower was notified. -/
def woken : Signaller → Option ℕ
  | .bump .unlock n _ | .checkLeader n | .wake n => some n
  | _ => none

variable {me : Signaller} {n : ℕ}

lemma store_of_announced (h : me.announced = some n) : me.store = some n := by
  unfold announced at h
  split at h <;> simp_all [store]

lemma announced_of_woken (h : me.woken = some n) : me.announced = some n := by
  unfold woken at h
  split at h <;> simp_all [announced]

end Signaller

/-! ## One waiter against the history of stores -/

/-- The stores so far and how far their signals got. -/
structure History (Mem : Type) where
  stores : ℕ
  past : ℕ → Mem
  announced : ℕ → Prop
  woken : ℕ → Prop
  returned : ℕ → Prop

def System.history (s : System Mem) : History Mem where
  stores := s.stores
  past := s.past
  announced := fun n => s.returned n = true ∨ ∃ i, (s.signallers i).announced = some n
  woken := fun n => s.returned n = true ∨ ∃ i, (s.signallers i).woken = some n
  returned := fun n => s.returned n = true

structure WaiterOk (sh : Shared) (h : History Mem) (w : ℕ) (me : Waiter Mem) : Prop where
  loaded : (me.pc = .predicate ∨ me.pc.evaluated = true) → me.generation ≤ sh.generation
  seen_false : me.pc.evaluated = true →
    me.seen ≤ h.stores ∧ me.predicate (h.past me.seen) = false
  announced : me.pc.evaluated = true → ∀ n, me.seen ≤ n → h.announced n →
    me.generation < sh.generation
  committed : me.pc.committed = true → ∀ n, me.seen ≤ n → h.returned n → 0 < sh.wake
  settled : me.pc.settled (sh.sleeping w) = true → ∀ n, me.seen ≤ n → ¬ h.woken n

variable {h : History Mem} {me me' : Waiter Mem} {sh sh' : Shared} {w stores : ℕ} {memory : Mem}

/-- A waiter outside every range has nothing to keep. -/
lemma WaiterOk.of_outside (hpredicate : me.pc ≠ .predicate) (hevaluated : me.pc.evaluated = false) :
    WaiterOk sh h w me := by
  have hcommitted : me.pc.committed = false := by
    cases hpc : me.pc <;> simp_all [WaiterPc.evaluated, WaiterPc.committed]
  have hsettled : me.pc.settled (sh.sleeping w) = false := by
    cases hpc : me.pc <;> simp_all [WaiterPc.evaluated, WaiterPc.settled]
  refine ⟨?_, ?_, ?_, ?_, ?_⟩ <;> simp [hpredicate, hevaluated, hcommitted, hsettled]

/-- What a step of another thread may change for a waiter. -/
lemma WaiterOk.frame {h' : History Mem} (hok : WaiterOk sh h w me)
    (hgen : sh.generation ≤ sh'.generation) (hstores : h.stores ≤ h'.stores)
    (hpast : ∀ n, n ≤ h.stores → h'.past n = h.past n)
    (hsleep : sh'.sleeping w = true → sh.sleeping w = true)
    (hannounced : me.pc.evaluated = true → ∀ n, h'.announced n → h.announced n ∨
      sh.generation < sh'.generation)
    (hcommitted : me.pc.committed = true → ∀ n, h'.returned n → h.returned n ∨ 0 < sh'.wake)
    (hwake : me.pc.committed = true → 0 < sh.wake → 0 < sh'.wake)
    (hsettled : me.pc.settled (sh'.sleeping w) = true → ∀ n, h'.woken n → h.woken n) :
    WaiterOk sh' h' w me := by
  constructor
  · intro hpc
    exact (hok.loaded hpc).trans hgen
  · intro hpc
    obtain ⟨hle, hfalse⟩ := hok.seen_false hpc
    exact ⟨hle.trans hstores, by rw [hpast _ hle]; exact hfalse⟩
  · intro hpc n hn hann
    rcases hannounced hpc n hann with hold | hnew
    · exact (hok.announced hpc n hn hold).trans_le hgen
    · exact (hok.loaded (.inr hpc)).trans_lt hnew
  · intro hpc n hn hret
    rcases hcommitted hpc n hret with hold | hnew
    · exact hwake hpc (hok.committed hpc n hn hold)
    · exact hnew
  · intro hpc n hn hwoken
    have hpc' : me.pc.settled (sh.sleeping w) = true := by
      cases hs : sh'.sleeping w with
      | true =>
        rw [hsleep hs]
        rwa [hs] at hpc
      | false =>
        cases hm : me.pc <;> simp_all [WaiterPc.settled]
    exact hok.settled hpc' n hn (hsettled hpc n hwoken)

/-! ## What one operation of a waiter can do -/

namespace WaiterPc

/-- The new control point is in the same ranges, or was evaluated and is no more. -/
def sameRanges (old new : WaiterPc) : Bool :=
  new.inside == old.inside && new.following == old.following && new.leading == old.leading &&
    new.holding == old.holding && new != .predicate && (!new.evaluated || old.evaluated)

/-- It makes no new commitment. -/
def noPromise (old new : WaiterPc) : Bool :=
  (!new.committed || old.committed) && (!new.settled true || old.settled true) &&
    (!new.settled false || old.settled false)

end WaiterPc

/-- A move that touches nothing shared. A commitment is made only with an unchanged
generation. -/
structure Jump (sh : Shared) (old : WaiterPc) (generation : ℕ) (new : WaiterPc) : Prop where
  ranges : old.sameRanges new = true
  promise : old.noPromise new = true ∨ sh.generation = generation

inductive WaiterMoves (sh : Shared) (memory : Mem) (stores w : ℕ) (me : Waiter Mem) :
    Shared → Waiter Mem → Prop where
  | jump (pc : WaiterPc) (hjump : Jump sh me.pc me.generation pc) :
      WaiterMoves sh memory stores w me sh { me with pc := pc }
  | load (hpc : me.pc = .loadGeneration) :
      WaiterMoves sh memory stores w me sh { me with pc := .predicate, generation := sh.generation }
  | evaluate (hpc : me.pc = .predicate) (hfalse : me.predicate memory = false) :
      WaiterMoves sh memory stores w me sh { me with pc := .deadline, seen := stores }
  | claim (hpc : me.pc = .claim) (hfree : sh.leader = false) :
      WaiterMoves sh memory stores w me { sh with leader := true } { me with pc := .recheck }
  | drain (hpc : me.pc = .drain) :
      WaiterMoves sh memory stores w me { sh with wake := 0 } { me with pc := .scan }
  | resign (exit : Bool) (hpc : me.pc = .resign exit) :
      WaiterMoves sh memory stores w me { sh with leader := false }
        { me with pc := .bump .increment exit }
  | bump (stage : Bump) (exit : Bool) (sh' : Shared) (next : Option Bump) (pc : WaiterPc)
      (hpc : me.pc = .bump stage exit) (hbump : bumpStep sh (.waiter w) stage = some (sh', next))
      (hholding : pc.holding = (next.map Bump.holding).getD false)
      (hnext : pc = .loadGeneration ∨ pc = .deregister ∨ ∃ stage', pc = .bump stage' exit) :
      WaiterMoves sh memory stores w me sh' { me with pc := pc }
  | join (hpc : me.pc = .join) :
      WaiterMoves sh memory stores w me { sh with followers := sh.followers + 1 }
        { me with pc := .lock }
  | lock (hpc : me.pc = .lock) (hfree : sh.lock = none) :
      WaiterMoves sh memory stores w me { sh with lock := some (.waiter w) }
        { me with pc := .checkGeneration }
  | sleep (hpc : me.pc = .remaining) :
      WaiterMoves sh memory stores w me
        { sh with lock := none, sleeping := Function.update sh.sleeping w true }
        { me with pc := .asleep }
  | awake (hpc : me.pc = .asleep) (hfree : sh.lock = none) :
      WaiterMoves sh memory stores w me
        { sh with lock := some (.waiter w), sleeping := Function.update sh.sleeping w false }
        { me with pc := .checkGeneration }
  | unlock (hpc : me.pc = .unlock) :
      WaiterMoves sh memory stores w me { sh with lock := none } { me with pc := .leave }
  | leave (hpc : me.pc = .leave) :
      WaiterMoves sh memory stores w me { sh with followers := sh.followers - 1 }
        { me with pc := .loadGeneration }
  | deregister (hpc : me.pc = .deregister) :
      WaiterMoves sh memory stores w me { sh with registered := sh.registered - 1 }
        { me with pc := .idle }

variable {generation : ℕ} {new old pc : WaiterPc}

lemma Jump.plain (h : (old.sameRanges new && old.noPromise new) = true) : Jump sh old generation new := by
  rw [Bool.and_eq_true] at h
  exact ⟨h.1, .inl h.2⟩

lemma Jump.same (h : Jump sh old generation new) :
    new.inside = old.inside ∧ new.following = old.following ∧ new.leading = old.leading ∧
      new.holding = old.holding := by
  have hranges := h.ranges
  simp only [WaiterPc.sameRanges, Bool.and_eq_true, beq_iff_eq] at hranges
  obtain ⟨⟨⟨⟨⟨hinside, hfollowing⟩, hleading⟩, hholding⟩, -⟩, -⟩ := hranges
  exact ⟨hinside, hfollowing, hleading, hholding⟩

lemma waiterStep_moves {choice : Bool}
    (hstep : waiterStep sh memory stores w me choice = some (sh', me')) :
    WaiterMoves sh memory stores w me sh' me' := by
  obtain ⟨pc, predicate, generation, seen⟩ := me
  cases pc with
  | idle => cases hstep
  | loadGeneration =>
    cases hstep
    exact .load rfl
  | predicate =>
    simp only [waiterStep] at hstep
    split_ifs at hstep with htrue
    · cases hstep
      exact .jump _ (.plain rfl)
    · cases hstep
      exact .evaluate rfl (by simp_all)
  | claim =>
    simp only [waiterStep] at hstep
    split_ifs at hstep with hleader
    · cases hstep
      exact .jump _ (.plain rfl)
    · cases hstep
      exact .claim rfl (by simpa using hleader)
  | recheck | checkGeneration =>
    cases hstep
    by_cases hgen : sh.generation = generation
    · simp only [hgen, ne_eq, not_true, if_false]
      exact .jump _ ⟨rfl, .inr hgen⟩
    · simp only [hgen, ne_eq, not_false_eq_true, if_true]
      exact .jump _ (.plain rfl)
  | drain =>
    simp only [waiterStep] at hstep
    split_ifs at hstep with herror
    · cases hstep
      exact .jump _ (.plain rfl)
    · cases hstep
      exact .drain rfl
  | resign exit =>
    cases hstep
    exact .resign exit rfl
  | bump stage exit =>
    simp only [waiterStep] at hstep
    cases hbump : bumpStep sh (.waiter w) stage with
    | none => simp [hbump] at hstep
    | some out =>
      obtain ⟨sh₁, next⟩ := out
      cases next with
      | none =>
        simp only [hbump] at hstep
        cases hstep
        refine .bump stage exit _ none _ rfl hbump ?_ ?_ <;> cases exit <;> simp [WaiterPc.holding]
      | some stage' =>
        simp only [hbump] at hstep
        cases hstep
        exact .bump stage exit _ (some stage') _ rfl hbump rfl (.inr (.inr ⟨stage', rfl⟩))
  | join =>
    cases hstep
    exact .join rfl
  | lock =>
    simp only [waiterStep] at hstep
    split_ifs at hstep with hfree
    cases hstep
    exact .lock rfl hfree
  | checkLeader =>
    cases hstep
    refine .jump _ ?_
    cases sh.leader <;> exact .plain rfl
  | remaining =>
    simp only [waiterStep] at hstep
    split_ifs at hstep with hexpired
    · cases hstep
      exact .jump _ (.plain rfl)
    · cases hstep
      exact .sleep rfl
  | asleep =>
    simp only [waiterStep] at hstep
    split_ifs at hstep with hfree
    cases hstep
    exact .awake rfl hfree
  | unlock =>
    cases hstep
    exact .unlock rfl
  | leave =>
    cases hstep
    exact .leave rfl
  | deregister =>
    cases hstep
    exact .deregister rfl
  | deadline | scanDue | scanNow | polling | polled | scan =>
    cases hstep
    refine .jump _ ?_
    cases choice <;> exact .plain rfl

/-- `bump` only moves the generation forward, takes and gives back the lock, and
notifies sleepers. -/
structure BumpEffect (sh sh' : Shared) (me : Thread) (stage : Bump) (next : Option Bump) : Prop where
  registered : sh'.registered = sh.registered
  followers : sh'.followers = sh.followers
  leader : sh'.leader = sh.leader
  wake : sh'.wake = sh.wake
  generation_le : sh.generation ≤ sh'.generation
  sleeping : ∀ w, sh'.sleeping w = true → sh.sleeping w = true
  lock : (stage.holding = true → sh.lock = some me) →
    ((next.map Bump.holding).getD false = true → sh'.lock = some me) ∧
      ∀ other, other ≠ me → sh.lock = some other → sh'.lock = some other

lemma bumpStep_effect {me : Thread} {stage : Bump} {next : Option Bump}
    (hbump : bumpStep sh me stage = some (sh', next)) : BumpEffect sh sh' me stage next := by
  cases stage with
  | increment | notifyAll =>
    cases hbump
    constructor <;> simp [Bump.holding]
  | checkFollowers =>
    cases hbump
    constructor <;> simp [Bump.holding]
    split_ifs <;> simp [Bump.holding]
  | lock =>
    simp only [bumpStep] at hbump
    split_ifs at hbump with hfree
    cases hbump
    constructor <;> simp [hfree, Bump.holding]
  | unlock =>
    cases hbump
    constructor <;> simp [Bump.holding]
    intro hheld other hne
    rw [hheld, Option.some.injEq]
    exact fun heq => hne heq.symm

/-! ## A step of a waiter -/

section

variable (hmoves : WaiterMoves sh memory stores w me sh' me')

include hmoves

/-- The counters follow the waiter's ranges. -/
lemma WaiterMoves.counts (hregistered : me.pc.inside = true → 0 < sh.registered)
    (hfollowers : me.pc.following = true → 0 < sh.followers) :
    sh'.registered + me.pc.inside.toNat = sh.registered + me'.pc.inside.toNat ∧
      sh'.followers + me.pc.following.toNat = sh.followers + me'.pc.following.toNat := by
  cases hmoves with
  | jump pc hjump =>
    obtain ⟨hinside, hfollowing, -, -⟩ := hjump.same
    simp [hinside, hfollowing]
  | bump stage exit _ next pc hpc hbump hholding hnext =>
    have heffect := bumpStep_effect hbump
    rw [heffect.registered, heffect.followers, hpc]
    rcases hnext with rfl | rfl | ⟨stage', rfl⟩ <;> simp [WaiterPc.inside, WaiterPc.following]
  | leave hpc =>
    have hpos := hfollowers (by rw [hpc]; rfl)
    simp [hpc, WaiterPc.inside, WaiterPc.following, Nat.sub_add_cancel hpos]
  | deregister hpc =>
    have hpos := hregistered (by rw [hpc]; rfl)
    simp [hpc, WaiterPc.inside, WaiterPc.following, Nat.sub_add_cancel hpos]
  | load hpc | evaluate hpc | claim hpc | drain hpc | resign exit hpc | join hpc | lock hpc
  | sleep hpc | awake hpc | unlock hpc =>
    simp [hpc, WaiterPc.inside, WaiterPc.following]

/-- A waiter takes the lock only when it is free and gives back only its own. -/
lemma WaiterMoves.lock_kept (hheld : me.pc.holding = true → sh.lock = some (.waiter w)) :
    (me'.pc.holding = true → sh'.lock = some (.waiter w)) ∧
      ∀ other, other ≠ .waiter w → sh.lock = some other → sh'.lock = some other := by
  cases hmoves with
  | jump pc hjump =>
    refine ⟨?_, fun _ _ hlock => hlock⟩
    rw [hjump.same.2.2.2]
    exact hheld
  | bump stage exit _ next pc hpc hbump hholding hnext =>
    have heffect := (bumpStep_effect hbump).lock (by rw [hpc] at hheld; exact hheld)
    exact ⟨fun hnew => heffect.1 (by rw [← hholding]; exact hnew), heffect.2⟩
  | lock hpc hfree | awake hpc hfree => simp [hfree]
  | sleep hpc | unlock hpc =>
    have hlock := hheld (by rw [hpc]; rfl)
    refine ⟨by simp [WaiterPc.holding], ?_⟩
    intro other hne hother
    rw [hlock, Option.some.injEq] at hother
    exact absurd hother.symm hne
  | load hpc | evaluate hpc | claim hpc | drain hpc | resign exit hpc | join hpc | leave hpc
  | deregister hpc => simp [WaiterPc.holding, Bump.holding]

/-- Leadership is claimed when nobody has it and given up by its owner, who alone
drains the descriptor. -/
lemma WaiterMoves.leadership (hlead : me.pc.leading = true → sh.leader = true) :
    (me'.pc.leading = true → sh'.leader = true) ∧
      (me'.pc.leading = true → me.pc.leading = true ∨ sh.leader = false) ∧
      (me.pc.leading = false → sh'.wake = sh.wake ∧ (sh.leader = true → sh'.leader = true)) := by
  cases hmoves with
  | jump pc hjump =>
    simp only [hjump.same.2.2.1]
    exact ⟨hlead, .inl, fun _ => ⟨trivial, id⟩⟩
  | bump stage exit _ next pc hpc hbump hholding hnext =>
    have heffect := bumpStep_effect hbump
    rw [heffect.leader, heffect.wake]
    rcases hnext with rfl | rfl | ⟨stage', rfl⟩ <;> simp [WaiterPc.leading]
  | claim hpc hfree => simp [hfree]
  | drain hpc =>
    have := hlead (by rw [hpc]; rfl)
    simp [hpc, this, WaiterPc.leading]
  | load hpc | evaluate hpc | resign exit hpc | join hpc | lock hpc
  | sleep hpc | awake hpc | unlock hpc | leave hpc | deregister hpc =>
    simp [hpc, WaiterPc.leading]

/-- The generation only grows, and only the waiter itself goes to sleep. -/
lemma WaiterMoves.monotone :
    sh.generation ≤ sh'.generation ∧
      ∀ other, other ≠ w → sh'.sleeping other = true → sh.sleeping other = true := by
  cases hmoves with
  | bump stage exit _ next pc hpc hbump hholding hnext =>
    have heffect := bumpStep_effect hbump
    exact ⟨heffect.generation_le, fun other _ => heffect.sleeping other⟩
  | sleep hpc | awake hpc =>
    refine ⟨le_rfl, ?_⟩
    intro other hne
    simp [hne]
  | jump pc hjump => exact ⟨le_rfl, fun _ _ => id⟩
  | load hpc | evaluate hpc | claim hpc | drain hpc | resign exit hpc | join hpc | lock hpc
  | unlock hpc | leave hpc | deregister hpc => exact ⟨le_rfl, fun _ _ => id⟩

end

/-- What the signals of a history have in common. -/
structure History.Ok (h : History Mem) : Prop where
  announced_lt : ∀ n, h.announced n → n < h.stores
  announced_of_woken : ∀ n, h.woken n → h.announced n
  announced_of_returned : ∀ n, h.returned n → h.announced n

section

variable (hok : WaiterOk sh h w me)

include hok

/-- A waiter that goes on after an evaluation keeps what it knows; it commits
itself with what it finds then. -/
lemma WaiterOk.move (hpredicate : pc ≠ .predicate)
    (hevaluated : pc.evaluated = true → me.pc.evaluated = true)
    (hgen : sh'.generation = sh.generation)
    (hcommitted : pc.committed = true → ∀ n, me.seen ≤ n → h.returned n → 0 < sh'.wake)
    (hsettled : pc.settled (sh'.sleeping w) = true → ∀ n, me.seen ≤ n → ¬ h.woken n) :
    WaiterOk sh' h w { me with pc := pc } := by
  refine ⟨?_, ?_, ?_, hcommitted, hsettled⟩
  · intro hpc
    rcases hpc with hpc | hpc
    · exact absurd hpc hpredicate
    · rw [hgen]
      exact hok.loaded (.inr (hevaluated hpc))
  · exact fun hpc => hok.seen_false (hevaluated hpc)
  · intro hpc
    rw [hgen]
    exact hok.announced (hevaluated hpc)

/-- With an unchanged generation no store since the evaluation was announced. -/
lemma WaiterOk.not_announced (hevaluated : me.pc.evaluated = true)
    (hgen : sh.generation = me.generation) {n : ℕ} (hn : me.seen ≤ n) : ¬ h.announced n := by
  intro hann
  have := hok.announced hevaluated n hn hann
  omega

lemma WaiterOk.jump (hh : h.Ok) (hjump : Jump sh me.pc me.generation pc) :
    WaiterOk sh h w { me with pc := pc } := by
  have hranges := hjump.ranges
  simp only [WaiterPc.sameRanges, Bool.and_eq_true, bne_iff_ne, Bool.or_eq_true,
    Bool.not_eq_true', ne_eq] at hranges
  have himp : ∀ {a b : Bool}, a = false ∨ b = true → a = true → b = true :=
    fun hor ha => hor.resolve_left (Bool.not_eq_false _ ▸ ha)
  have hevaluated := @himp pc.evaluated me.pc.evaluated hranges.2
  refine hok.move hranges.1.2 hevaluated rfl ?_ ?_
  · intro hpc n hn hret
    rcases hjump.promise with hold | hgen
    · refine hok.committed ?_ n hn hret
      simp only [WaiterPc.noPromise, Bool.and_eq_true, Bool.or_eq_true, Bool.not_eq_true'] at hold
      exact himp hold.1.1 hpc
    · have hev : pc.evaluated = true := by
        cases pc <;> simp_all [WaiterPc.committed, WaiterPc.evaluated]
      exact absurd (hh.announced_of_returned n hret) (hok.not_announced (hevaluated hev) hgen hn)
  · intro hpc n hn hwoken
    rcases hjump.promise with hold | hgen
    · refine hok.settled ?_ n hn hwoken
      simp only [WaiterPc.noPromise, Bool.and_eq_true, Bool.or_eq_true, Bool.not_eq_true'] at hold
      cases hs : sh.sleeping w with
      | true => exact himp hold.1.2 (hs ▸ hpc)
      | false => exact himp hold.2 (hs ▸ hpc)
    · have hev : pc.evaluated = true := by
        cases pc <;> simp_all [WaiterPc.settled, WaiterPc.evaluated]
      exact absurd (hh.announced_of_woken n hwoken) (hok.not_announced (hevaluated hev) hgen hn)

lemma WaiterMoves.ok (hmoves : WaiterMoves sh (h.past h.stores) h.stores w me sh' me') (hh : h.Ok) :
    WaiterOk sh' h w me' := by
  cases hmoves with
  | jump pc hjump => exact hok.jump hh hjump
  | load hpc =>
    refine ⟨?_, ?_, ?_, ?_, ?_⟩ <;> simp [WaiterPc.evaluated, WaiterPc.committed, WaiterPc.settled]
  | evaluate hpc hfalse =>
    constructor
    · exact fun _ => hok.loaded (.inl hpc)
    · exact fun _ => ⟨le_rfl, hfalse⟩
    · intro _ n hn hann
      exact absurd (hh.announced_lt n hann) (by simp only at hn; omega)
    · simp [WaiterPc.committed]
    · simp [WaiterPc.settled]
  | claim hpc | join hpc | lock hpc | awake hpc =>
    exact hok.move (by simp) (by simp [hpc, WaiterPc.evaluated]) rfl (by simp [WaiterPc.committed])
      (by simp [WaiterPc.settled])
  | sleep hpc =>
    refine hok.move (by simp) (by simp [hpc, WaiterPc.evaluated]) rfl (by simp [WaiterPc.committed])
      ?_
    intro _ n hn
    exact hok.settled (by rw [hpc]; rfl) n hn
  | bump stage exit _ next pc hpc hbump hholding hnext =>
    rcases hnext with rfl | rfl | ⟨stage', rfl⟩ <;>
      exact .of_outside (by simp) (by simp [WaiterPc.evaluated])
  | drain hpc | resign exit hpc | unlock hpc | leave hpc | deregister hpc =>
    exact .of_outside (by simp) (by simp [WaiterPc.evaluated])

end

end NvidiaProlapse.Waiters
