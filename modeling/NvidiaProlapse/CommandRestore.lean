import NvidiaProlapse.CommandState
import NvidiaProlapse.Runs

/-!
# The application's compute state after a decode

The shadow drops a call when newer calls own all its set indices, and moves a repeated
range of push constants to the end. The first is right as long as a dropped call is
not the last to have written a descriptor: push descriptors own their set and leave
the others of that set alone.
-/
namespace NvidiaProlapse.CommandState

open LastWrites Runs List Function

/-! ## Owners -/

/-- The set indices of a call. -/
def owned (owner : ℕ → Option ℕ) (id : ℕ) : Finset ℕ :=
  (Finset.range maxSets).filter fun k => owner k = some id

lemma mem_owned {owner : ℕ → Option ℕ} {id k : ℕ} :
    k ∈ owned owner id ↔ k < maxSets ∧ owner k = some id := by
  unfold owned
  rw [Finset.mem_filter, Finset.mem_range]

/-- Calls own indices and are counted by them; `id` is a call that is not in the list yet. -/
structure Owners (id : ℕ) (t : Tracker) : Prop where
  nodup : (t.calls.map Call.id).Nodup
  older : ∀ c ∈ t.calls, c.id < id
  named : ∀ k i, t.owner k = some i → k < maxSets ∧ (i = id ∨ ∃ c ∈ t.calls, c.id = i)
  refs : ∀ c ∈ t.calls, c.refs = (owned t.owner c.id).card
  live : ∀ c ∈ t.calls, 0 < c.refs

variable {t t' : Tracker} {id k : ℕ}

lemma owned_update_of_ne {owner : ℕ → Option ℕ} {i : ℕ} (hi : i ≠ id) (hold : owner k ≠ some i) :
    owned (Function.update owner k (some id)) i = owned owner i := by
  ext j
  rw [mem_owned, mem_owned]
  by_cases hj : j = k
  · subst hj
    simp [hi.symm, hold]
  · rw [update_of_ne hj]

lemma owned_update_old {owner : ℕ → Option ℕ} {i : ℕ} (hi : i ≠ id) :
    owned (Function.update owner k (some id)) i = (owned owner i).erase k := by
  ext j
  rw [mem_owned, Finset.mem_erase, mem_owned]
  by_cases hj : j = k
  · subst hj
    simp [hi.symm]
  · simp [hj]

/-- What is kept of a call besides the count. -/
def Call.key (c : Call) : ℕ × Content := (c.id, c.content)

def Call.release (o : ℕ) (c : Call) : Call := if c.id = o then { c with refs := c.refs - 1 } else c

lemma Call.release_key (o : ℕ) (c : Call) : (c.release o).key = c.key := by
  unfold Call.release
  split_ifs
  · rfl
  · rfl

lemma release_calls (t : Tracker) (o : ℕ) : (t.release o).calls =
    (t.calls.filter fun c => !((c.release o).id = o && (c.release o).refs = 0)).map (Call.release o) :=
  filter_map

/-- After an index changed hands. -/
lemma release_owners {o : ℕ} (h : Owners id t) (hold : t.owner k = some o) :
    let owner := Function.update t.owner k (some id)
    let t' := Tracker.release { t with owner := owner } o
    Owners id t' ∧ t'.calls.map Call.key =
      (t.calls.filter fun c => decide (owned owner c.id).Nonempty).map Call.key := by
  intro owner t'
  obtain ⟨hk, -⟩ := h.named k o hold
  have hmem : k ∈ owned t.owner o := mem_owned.mpr ⟨hk, hold⟩
  -- The count of the old owner and of the others.
  have hsame : ∀ c ∈ t.calls, c.id ≠ o → owned owner c.id = owned t.owner c.id := by
    intro c hc hco
    refine owned_update_of_ne (h.older c hc).ne ?_
    rw [hold]
    exact fun heq => hco (Option.some.inj heq).symm
  have hrefs : ∀ c ∈ t.calls, (c.release o).refs = (owned owner c.id).card := by
    intro c hc
    have hne : c.id ≠ id := (h.older c hc).ne
    unfold Call.release
    split_ifs with hco
    · rw [hco] at hne ⊢
      rw [owned_update_old hne, Finset.card_erase_of_mem hmem, ← hco, ← h.refs c hc]
    · rw [hsame c hc hco, h.refs c hc]
  have hid : ∀ c : Call, (c.release o).id = c.id := fun c => congrArg Prod.fst (c.release_key o)
  have hkeep : ∀ c ∈ t.calls, (!((c.release o).id = o && (c.release o).refs = 0)) =
      decide (owned owner c.id).Nonempty := by
    intro c hc
    rw [hrefs c hc, hid c]
    by_cases hco : c.id = o
    · simp [hco, Finset.nonempty_iff_ne_empty]
    have hpos : 0 < (owned owner c.id).card := by
      rw [hsame c hc hco, ← h.refs c hc]
      exact h.live c hc
    simp [hco, Finset.card_pos.mp hpos]
  have hcalls : t'.calls =
      (t.calls.filter fun c => decide (owned owner c.id).Nonempty).map (Call.release o) := by
    rw [release_calls]
    exact congrArg _ (filter_congr hkeep)
  have hall : ∀ {P : Call → Prop}, (∀ c ∈ t.calls, (owned owner c.id).Nonempty → P (c.release o)) →
      ∀ c ∈ t'.calls, P c := by
    intro P hP
    rw [hcalls, forall_mem_map]
    intro c hc
    obtain ⟨hmem, hne⟩ := mem_filter.mp hc
    exact hP c hmem (of_decide_eq_true hne)
  refine ⟨⟨?_, hall fun c hc _ => ?_, ?_, hall fun c hc _ => ?_, hall fun c hc hne => ?_⟩, ?_⟩
  · rw [hcalls, map_map, show Call.id ∘ Call.release o = Call.id from funext hid]
    exact (filter_sublist.map _).nodup h.nodup
  · rw [hid]
    exact h.older c hc
  · intro j i hj
    have hj' : owner j = some i := hj
    by_cases hjk : j = k
    · subst hjk
      have hi : some id = some i := (update_self j _ _).symm.trans hj'
      exact ⟨hk, .inl (Option.some.inj hi).symm⟩
    have hold' : t.owner j = some i := (update_of_ne hjk _ _).symm.trans hj'
    obtain ⟨hlt, hi | ⟨c, hc, rfl⟩⟩ := h.named j i hold'
    · exact ⟨hlt, .inl hi⟩
    refine ⟨hlt, .inr ⟨c.release o, ?_, hid c⟩⟩
    rw [hcalls]
    refine mem_map_of_mem (mem_filter.mpr ⟨hc, decide_eq_true ⟨j, ?_⟩⟩)
    exact mem_owned.mpr ⟨hlt, hj'⟩
  · rw [hid]
    exact hrefs c hc
  · rw [hrefs c hc]
    exact Finset.card_pos.mpr hne
  · rw [hcalls, map_map]
    exact congrArg (map · _) (funext fun c => c.release_key o)

/-- One index goes to the new call. -/
lemma takeOver_owners (h : Owners id t) (hk : k < maxSets) (hfree : t.owner k ≠ some id) :
    let owner := Function.update t.owner k (some id)
    Owners id (t.takeOver id k) ∧
      ∃ calls, t.takeOver id k = { t with owner := owner, calls := calls } ∧ calls.map Call.key =
        (t.calls.filter fun c => decide (owned owner c.id).Nonempty).map Call.key := by
  intro owner
  cases hold : t.owner k with
  | some o =>
    have hstep : t.takeOver id k = Tracker.release { t with owner := owner } o := by
      unfold Tracker.takeOver
      rw [hold]
    obtain ⟨howners, hkeys⟩ := release_owners h hold
    rw [hstep]
    exact ⟨howners, _, rfl, hkeys⟩
  | none =>
    have hstep : t.takeOver id k = { t with owner := owner } := by
      unfold Tracker.takeOver
      rw [hold]
    have hsame : ∀ c ∈ t.calls, owned owner c.id = owned t.owner c.id := by
      intro c hc
      refine owned_update_of_ne (h.older c hc).ne ?_
      rw [hold]
      exact Option.some_ne_none _ |>.symm
    rw [hstep]
    refine ⟨⟨h.nodup, h.older, ?_, ?_, h.live⟩, t.calls, rfl, ?_⟩
    · intro j i hj
      have hj' : owner j = some i := hj
      by_cases hjk : j = k
      · subst hjk
        have hi : some id = some i := (update_self j _ _).symm.trans hj'
        exact ⟨hk, .inl (Option.some.inj hi).symm⟩
      · exact h.named j i ((update_of_ne hjk _ _).symm.trans hj')
    · intro c hc
      rw [h.refs c hc]
      exact congrArg Finset.card (hsame c hc).symm
    · rw [filter_eq_self.mpr]
      intro c hc
      rw [hsame c hc, decide_eq_true_eq, ← Finset.card_pos, ← h.refs c hc]
      exact h.live c hc

/-- The owners after a list of indices was taken over. -/
def takenBy (id : ℕ) (ks : List ℕ) (owner : ℕ → Option ℕ) (j : ℕ) : Option ℕ :=
  if j ∈ ks then some id else owner j

lemma owned_takenBy {ks : List ℕ} {owner : ℕ → Option ℕ} {i : ℕ} (hi : i ≠ id) :
    owned (takenBy id ks owner) i ⊆ owned owner i := by
  intro j hj
  obtain ⟨hlt, hown⟩ := mem_owned.mp hj
  unfold takenBy at hown
  split_ifs at hown
  · exact absurd (Option.some.inj hown).symm hi
  · exact mem_owned.mpr ⟨hlt, hown⟩

lemma filter_map_key (owner : ℕ → Option ℕ) (calls : List Call) :
    (calls.filter fun c => decide (owned owner c.id).Nonempty).map Call.key =
      (calls.map Call.key).filter fun key => decide (owned owner key.1).Nonempty := by
  rw [filter_map]
  rfl

lemma takeAll_owners (ks : List ℕ) (h : Owners id t) (hks : ∀ k ∈ ks, k < maxSets)
    (hnodup : ks.Nodup) (hfree : ∀ k ∈ ks, t.owner k ≠ some id) :
    let owner := takenBy id ks t.owner
    Owners id (ks.foldl (Tracker.takeOver id) t) ∧
      ∃ calls, ks.foldl (Tracker.takeOver id) t = { t with owner := owner, calls := calls } ∧
        calls.map Call.key =
          (t.calls.filter fun c => decide (owned owner c.id).Nonempty).map Call.key := by
  induction ks generalizing t with
  | nil =>
    refine ⟨h, t.calls, rfl, ?_⟩
    rw [filter_eq_self.mpr]
    intro c hc
    have hsame : takenBy id [] t.owner = t.owner := funext fun j => rfl
    rw [hsame, decide_eq_true_eq, ← Finset.card_pos, ← h.refs c hc]
    exact h.live c hc
  | cons k ks ih =>
    rw [nodup_cons] at hnodup
    obtain ⟨hone, calls₁, hstep, hkeys₁⟩ :=
      takeOver_owners h (hks k mem_cons_self) (hfree k mem_cons_self)
    have hfree' : ∀ j ∈ ks, (t.takeOver id k).owner j ≠ some id := by
      intro j hj
      have hne : j ≠ k := by
        rintro rfl
        exact hnodup.1 hj
      rw [hstep]
      show update t.owner k (some id) j ≠ some id
      rw [update_of_ne hne]
      exact hfree j (mem_cons_of_mem _ hj)
    obtain ⟨hall, calls₂, hrest, hkeys₂⟩ :=
      ih hone (fun j hj => hks j (mem_cons_of_mem _ hj)) hnodup.2 hfree'
    have howner : takenBy id ks (t.takeOver id k).owner = takenBy id (k :: ks) t.owner := by
      funext j
      rw [hstep]
      show (if j ∈ ks then some id else update t.owner k (some id) j) = _
      unfold takenBy
      by_cases hj : j ∈ ks
      · rw [if_pos hj, if_pos (mem_cons_of_mem _ hj)]
      rw [if_neg hj]
      by_cases hjk : j = k
      · subst hjk
        rw [update_self, if_pos mem_cons_self]
      · rw [update_of_ne hjk, if_neg (by simp [hjk, hj])]
    refine ⟨hall, calls₂, ?_, ?_⟩
    · show ks.foldl (Tracker.takeOver id) (t.takeOver id k) = _
      rw [hrest, ← howner, hstep]
    · -- The calls that own nothing after the first index own nothing at the end.
      have hcalls : (t.takeOver id k).calls = calls₁ := by rw [hstep]
      rw [hkeys₂, hcalls, howner]
      rw [filter_map_key, hkeys₁, ← filter_map_key, filter_filter]
      refine congrArg _ (filter_congr fun c hc => ?_)
      have hne : c.id ≠ id := (h.older c hc).ne
      have hsub : owned (takenBy id (k :: ks) t.owner) c.id ⊆
          owned (Function.update t.owner k (some id)) c.id := by
        rw [← howner]
        have hfirst := @owned_takenBy id ks (t.takeOver id k).owner c.id hne
        rw [hstep] at hfirst ⊢
        exact hfirst
      rw [Bool.and_eq_left_iff_imp]
      intro hsome
      exact decide_eq_true ((of_decide_eq_true hsome).mono hsub)

/-- Every call owns indices, and every index has at most one call. -/
structure Accounted (t : Tracker) : Prop where
  owners : Owners t.nextId t
  unused : ∀ k, t.owner k ≠ some t.nextId

/-- The set index is one of the command's. -/
def Content.covers (c : Content) (k : ℕ) : Prop := c.first ≤ k ∧ k < c.first + c.count

instance (c : Content) (k : ℕ) : Decidable (c.covers k) :=
  inferInstanceAs (Decidable (c.first ≤ k ∧ k < c.first + c.count))

/-- The calls that own an index which the new one does not cover. -/
def Tracker.spared (t : Tracker) (content : Content) : List Call :=
  t.calls.filter fun c => decide ((owned t.owner c.id).filter fun k => ¬ content.covers k).Nonempty

variable {content : Content} {a : Answer}

lemma addCall_accounted (h : Accounted t) (hpos : content.count ≠ 0)
    (hrange : content.first + content.count ≤ maxSets) :
    Accounted (t.addCall content) ∧
      (t.addCall content).calls.map Call.content = (t.spared content).map Call.content ++ [content] ∧
      ∃ owner calls, t.addCall content =
        { t with owner := owner, calls := calls, nextId := t.nextId + 1 } := by
  have hmem : ∀ k, k ∈ List.range' content.first content.count ↔ content.covers k := by
    intro k
    rw [mem_range'_1]
    exact Iff.rfl
  have hstart : Owners t.nextId { t with nextId := t.nextId + 1 } :=
    { h.owners with }
  obtain ⟨hall, calls, hloop, hkeys⟩ := takeAll_owners (range' content.first content.count) hstart
    (fun k hk => ((hmem k).mp hk).2.trans_le hrange) nodup_range' (fun k _ => h.unused k)
  have howner : ∀ k, takenBy t.nextId (range' content.first content.count) t.owner k =
      if content.covers k then some t.nextId else t.owner k := by
    intro k
    unfold takenBy
    rw [if_congr (hmem k) rfl rfl]
  obtain ⟨owner, hownerdef⟩ : ∃ owner, owner =
    takenBy t.nextId (range' content.first content.count) t.owner := ⟨_, rfl⟩
  have hloop' : (range' content.first content.count).foldl (Tracker.takeOver t.nextId)
      { t with nextId := t.nextId + 1 } =
        { t with owner := owner, calls := calls, nextId := t.nextId + 1 } := by
    rw [hloop, hownerdef]
  rw [hloop'] at hall
  have hadd : t.addCall content = { t with
        owner := owner
        calls := calls ++ [⟨t.nextId, content, content.count⟩]
        nextId := t.nextId + 1 } := by
    unfold Tracker.addCall
    dsimp only
    rw [hloop']
  -- The new call owns what it covers.
  have hself : owned owner t.nextId = (Finset.range maxSets).filter content.covers := by
    ext k
    rw [mem_owned, Finset.mem_filter, Finset.mem_range, hownerdef, howner]
    refine and_congr_right fun _ => ?_
    split_ifs with hk
    · exact iff_of_true rfl hk
    · exact iff_of_false (h.unused k) hk
  have hcard : (owned owner t.nextId).card = content.count := by
    have hinterval : (Finset.range maxSets).filter content.covers =
        Finset.Ico content.first (content.first + content.count) := by
      ext k
      rw [Finset.mem_filter, Finset.mem_range, Finset.mem_Ico]
      exact ⟨fun hk => hk.2, fun hk => ⟨hk.2.trans_le hrange, hk⟩⟩
    rw [hself, hinterval, Nat.card_Ico, Nat.add_sub_cancel_left]
  refine ⟨?_, ?_, owner, _, hadd⟩
  · rw [hadd]
    refine ⟨⟨?_, ?_, ?_, ?_, ?_⟩, ?_⟩
    · rw [map_append, map_singleton]
      refine nodup_append.mpr ⟨hall.nodup, nodup_singleton _, ?_⟩
      intro i hi j hj
      obtain ⟨c, hc, rfl⟩ := mem_map.mp hi
      rw [mem_singleton.mp hj]
      exact (hall.older c hc).ne
    · exact forall_mem_append.mpr ⟨fun c hc => (hall.older c hc).trans (Nat.lt_succ_self _),
        forall_mem_singleton.mpr (Nat.lt_succ_self _)⟩
    · intro k i hk
      obtain ⟨hlt, hi | ⟨c, hc, rfl⟩⟩ := hall.named k i hk
      · exact ⟨hlt, .inr ⟨_, mem_append_right _ mem_cons_self, hi.symm⟩⟩
      · exact ⟨hlt, .inr ⟨c, mem_append_left _ hc, rfl⟩⟩
    · exact forall_mem_append.mpr ⟨hall.refs, forall_mem_singleton.mpr hcard.symm⟩
    · exact forall_mem_append.mpr ⟨hall.live, forall_mem_singleton.mpr (Nat.pos_of_ne_zero hpos)⟩
    · intro k hk
      obtain ⟨-, hi | ⟨c, hc, hi⟩⟩ := hall.named k _ hk
      · exact absurd hi (Nat.succ_ne_self _)
      · have hlt := hall.older c hc
        rw [hi] at hlt
        exact absurd hlt (Nat.not_lt.mpr (Nat.le_succ _))
  · rw [hadd]
    rw [map_append, map_singleton]
    congr 1
    have hcontent : ∀ cs : List Call, cs.map Call.content = (cs.map Call.key).map Prod.snd := by
      intro cs
      rw [map_map]
      rfl
    rw [hcontent, hkeys, ← hcontent]
    refine congrArg _ (filter_congr fun c hc => ?_)
    refine decide_eq_decide.mpr ?_
    have hne : t.nextId ≠ c.id := (h.owners.older c hc).ne'
    rw [← hownerdef]
    have hsets : owned owner c.id = (owned t.owner c.id).filter fun k => ¬ content.covers k := by
      ext k
      rw [Finset.mem_filter, mem_owned, mem_owned, hownerdef, howner]
      split_ifs with hk
      · simp [hne, hk]
      · simp [hk]
    rw [hsets]

lemma Accounted.owns (h : Accounted t) : ∀ c ∈ t.calls, ∃ k < maxSets, t.owner k = some c.id := by
  intro c hc
  have hpos := h.owners.live c hc
  rw [h.owners.refs c hc, Finset.card_pos] at hpos
  obtain ⟨k, hk⟩ := hpos
  exact ⟨k, mem_owned.mp hk⟩

/-- Each call has an index of its own. -/
lemma Accounted.calls_le (h : Accounted t) : t.calls.length ≤ maxSets := by
  have hsub : (t.calls.map fun c => some c.id).Subperm ((List.range maxSets).map t.owner) := by
    refine List.Nodup.subperm ?_ ?_
    · have hids := h.owners.nodup.map (Option.some_injective ℕ)
      rwa [map_map] at hids
    intro i hi
    obtain ⟨c, hc, rfl⟩ := mem_map.mp hi
    obtain ⟨k, hk, hown⟩ := h.owns c hc
    exact mem_map.mpr ⟨k, mem_range.mpr hk, hown⟩
  simpa using hsub.length_le

/-! ## The shadow follows the application's commands -/

/-- What the shadow keeps is the application's state. -/
structure Tracks (app : ComputeState) (t : Tracker) : Prop where
  bound : t.bound = app.bound
  sets : ∀ x, latest Content.value (t.calls.map Call.content) x = app.sets x
  compute : ∀ i, latest Push.value t.push ⟨computeStage, i⟩ = app.push ⟨computeStage, i⟩
  bytes : ∀ x v, latest Push.value t.push x = some v → app.push x = some v
  early : t.pushCompute = false → t.push = []
  /-- A call is replayed as the command it came from. -/
  replayed : ∀ c ∈ t.calls, c.content.command.content = some c.content

/-- As long as nothing was lost the shadow follows the application, and what held before holds. -/
def Sound (held : Prop) (app : ComputeState) (t : Tracker) : Prop :=
  t.lost = none → held ∧ Tracks app t

/-- The new call drops no call that is the last to have written a descriptor, unless it writes that
descriptor itself. -/
def Tracker.Spares (t : Tracker) (content : Content) : Prop :=
  ∀ x, ∀ c ∈ source (fun c : Call => c.content.value) t.calls x,
    (∀ k, t.owner k = some c.id → content.covers k) → content.value x ≠ none

variable {app : ComputeState} {held : Prop}

lemma latest_spared (h : Accounted t) (hspares : t.Spares content) {x : Slot}
    (hx : content.value x = none) : latest Content.value ((t.spared content).map Call.content) x =
      latest Content.value (t.calls.map Call.content) x := by
  rw [latest_map, latest_map]
  refine latest_filter fun c hc => ?_
  have hkept : ¬ ∀ k, t.owner k = some c.id → content.covers k := fun hall => hspares x c hc hall hx
  obtain ⟨k, hk⟩ := not_forall.mp hkept
  rw [Classical.not_imp] at hk
  refine decide_eq_true ⟨k, Finset.mem_filter.mpr ⟨mem_owned.mpr ⟨?_, hk.1⟩, hk.2⟩⟩
  exact (h.owners.named k c.id hk.1).1

lemma addCall_tracks (h : Accounted t) (htracks : Tracks app t) (hspares : t.Spares content)
    (hcommand : content.command.content = some content) (hpos : content.count ≠ 0)
    (hrange : content.first + content.count ≤ maxSets) :
    Tracks (app.describe content) (t.addCall content) := by
  obtain ⟨-, hcontents, owner, calls, hadd⟩ := addCall_accounted h hpos hrange
  refine ⟨?_, fun x => ?_, ?_, ?_, ?_, fun c hc => ?_⟩
  · rw [hadd]
    exact htracks.bound
  · rw [hcontents, latest_concat]
    show _ = (content.value x).or (app.sets x)
    cases hx : content.value x with
    | some d => rfl
    | none => rw [latest_spared h hspares hx, htracks.sets x]
  · rw [hadd]
    exact htracks.compute
  · rw [hadd]
    exact htracks.bytes
  · rw [hadd]
    exact htracks.early
  · have hmem : c.content ∈ (t.spared content).map Call.content ++ [content] := by
      rw [← hcontents]
      exact mem_map_of_mem hc
    rcases mem_append.mp hmem with hmem | hmem
    · obtain ⟨c', hc', heq⟩ := mem_map.mp hmem
      rw [← heq]
      exact htracks.replayed c' (mem_of_mem_filter hc')
    · rw [mem_singleton.mp hmem]
      exact hcommand

lemma lose_sound (t : Tracker) (why : String) : Sound held app (t.lose why) := by
  intro hlost
  unfold Tracker.lose at hlost
  cases h : t.lost with
  | none | some s => simp [h] at hlost

section

variable (h : Accounted t)

include h

lemma Accounted.same (hcalls : t'.calls = t.calls) (howner : t'.owner = t.owner)
    (hnext : t'.nextId = t.nextId) : Accounted t' := by
  obtain ⟨⟨hnodup, holder, hnamed, hrefs, hlive⟩, hunused⟩ := h
  rw [← hcalls, ← howner, ← hnext] at *
  exact ⟨⟨hnodup, holder, hnamed, hrefs, hlive⟩, hunused⟩

lemma lose_accounted (why : String) : Accounted (t.lose why) := h.same rfl rfl rfl

lemma newCall_accounted : Accounted (t.newCall a content) := by
  unfold Tracker.newCall
  split_ifs with hrange hmemory
  · exact lose_accounted h _
  · exact lose_accounted h _
  · push Not at hrange
    exact (addCall_accounted h hrange.1 (by omega)).1

lemma newCall_sound (hsound : Sound held app t) (hspares : t.Spares content)
    (hcommand : content.command.content = some content) :
    Sound held (app.describe content) (t.newCall a content) := by
  unfold Tracker.newCall
  split_ifs with hrange hmemory
  · exact lose_sound t _
  · exact lose_sound t _
  push Not at hrange
  have hend : content.first + content.count ≤ maxSets := by omega
  obtain ⟨-, -, owner, calls, hadd⟩ := addCall_accounted h hrange.1 hend
  intro hlost
  rw [hadd] at hlost
  exact ⟨(hsound hlost).1, addCall_tracks h (hsound hlost).2 hspares hcommand hrange.1 hend⟩

lemma record_accounted (why : String) : Accounted (t.record a why content) := by
  unfold Tracker.record
  split_ifs
  · exact lose_accounted h _
  · exact newCall_accounted h

lemma record_sound {why : String} (hsound : Sound held app t) (hspares : t.Spares content)
    (hcommand : content.command.content = some content) :
    Sound held (app.describe content) (t.record a why content) := by
  unfold Tracker.record
  split_ifs
  · exact lose_sound t _
  · exact newCall_sound h hsound hspares hcommand

end

section PushDescriptors

variable {fn : Bool} {layout set : ℕ} {writes : List DescriptorWrite}

lemma recordPushDesc_accounted (h : Accounted t) :
    Accounted (t.recordPushDesc a fn layout set writes) := by
  unfold Tracker.recordPushDesc
  split_ifs
  · exact lose_accounted h _
  · exact lose_accounted h _
  · exact lose_accounted h _
  · exact newCall_accounted h

lemma recordPushDesc_sound (h : Accounted t) (hsound : Sound held app t)
    (hspares : t.Spares ⟨layout, set, 1, .pushDesc writes⟩) :
    Sound held (app.describe ⟨layout, set, 1, .pushDesc writes⟩)
      (t.recordPushDesc a fn layout set writes) := by
  unfold Tracker.recordPushDesc
  split_ifs
  · exact lose_sound t _
  · exact lose_sound t _
  · exact lose_sound t _
  · exact newCall_sound h hsound hspares rfl

end PushDescriptors

/-! ## Push constants -/

variable {p q : Push} {x : Byte}

lemma value_sameRange (h : p.sameRange q = true) (hp : p.value x = none) : q.value x = none := by
  unfold Push.sameRange at h
  simp only [Bool.and_eq_true, decide_eq_true_eq] at h
  obtain ⟨⟨⟨-, hstages⟩, hoffset⟩, hlength⟩ := h
  unfold Push.value at hp ⊢
  rw [← hstages, ← hoffset]
  split_ifs at hp ⊢ with hrange
  · rw [getElem?_eq_none_iff] at hp ⊢
    omega
  · rfl

lemma value_other_stage (h : p.stages.testBit x.stage = false) : p.value x = none := by
  unfold Push.value
  simp [h]

/-- The update is appended, with or without an older one of its range. -/
lemma push_tracks {push : List Push} {compute : Bool} (htracks : Tracks app t)
    (hlatest : ∀ x, p.value x = none → latest Push.value push x = latest Push.value t.push x)
    (hcompute : compute = true) :
    Tracks (app.pushConstants p) { t with push := push ++ [p], pushCompute := compute } := by
  refine { htracks with
    compute := fun i => ?_, bytes := fun x v hv => ?_, early := fun hcontra => ?_ }
  · show latest Push.value (push ++ [p]) _ = (p.value _).or (app.push _)
    rw [latest_concat]
    cases hx : p.value ⟨computeStage, i⟩ with
    | some v => rfl
    | none => rw [hlatest _ hx, htracks.compute i]
  · show (p.value x).or (app.push x) = some v
    have hv' : latest Push.value (push ++ [p]) x = some v := hv
    rw [latest_concat] at hv'
    cases hx : p.value x with
    | some v' =>
      rw [hx] at hv'
      exact hv'
    | none =>
      rw [hx, Option.none_or, hlatest x hx] at hv'
      exact htracks.bytes x v hv'
  · rw [show compute = false from hcontra] at hcompute
    cases hcompute

lemma keepPush_accounted (h : Accounted t) : Accounted (t.keepPush a p) := by
  unfold Tracker.keepPush
  dsimp only
  split_ifs
  · exact lose_accounted h _
  all_goals exact h.same rfl rfl rfl

lemma keepPush_sound (hsound : Sound held app t)
    (hkeeps : (t.pushCompute || p.stages.testBit computeStage) = true) :
    Sound held (app.pushConstants p) (t.keepPush a p) := by
  unfold Tracker.keepPush
  dsimp only
  split_ifs
  · exact lose_sound t _
  · intro hlost
    exact ⟨(hsound hlost).1,
      push_tracks (hsound hlost).2 (fun x hx => latest_eraseP fun q hq => value_sameRange hq hx) hkeeps⟩
  · exact lose_sound _ _
  · exact lose_sound _ _
  · intro hlost
    exact ⟨(hsound hlost).1, push_tracks (hsound hlost).2 (fun _ _ => rfl) hkeeps⟩

/-- Before the first update of the compute stage nothing of it can be disturbed. -/
lemma skip_tracks (htracks : Tracks app t) (hearly : t.pushCompute = false)
    (hstage : p.stages.testBit computeStage = false) : Tracks (app.pushConstants p) t := by
  have hnone := htracks.early hearly
  refine { htracks with compute := fun i => ?_, bytes := fun x v hv => ?_ }
  · show _ = (p.value _).or (app.push _)
    rw [value_other_stage hstage, htracks.compute i]
    rfl
  · rw [hnone] at hv
    cases hv

/-! ## Commands -/

/-- A command buffer without a shadow has an empty one. -/
def tracker (cs : Option Tracker) : Tracker := cs.getD {}

variable {cs : Option Tracker} {keep : Tracker → Tracker}

lemma csOf_available (h : cs ≠ none ∨ a.shadow = true) : csOf cs a = some (tracker cs) := by
  unfold csOf tracker
  cases cs with
  | some t => rfl
  | none =>
    rw [h.resolve_left (fun hne => hne rfl)]
    rfl

lemma tracker_shadowIf {concerned : Bool} (h : cs ≠ none ∨ a.shadow = true) :
    tracker (Command.shadowIf cs a concerned keep) =
      if concerned then keep (tracker cs) else tracker cs := by
  unfold Command.shadowIf
  rw [csOf_available h]
  cases concerned with
  | true => rfl
  | false => rfl

lemma bind_sound {b : Bound} (h : Sound held app t) :
    Sound held (app.bind b) { t with bound := some b } := by
  intro hlost
  obtain ⟨hheld, htracks⟩ := h hlost
  exact ⟨hheld, rfl, htracks.sets, htracks.compute, htracks.bytes, htracks.early, htracks.replayed⟩

lemma conditional_sound (h : Sound held app t) (inside : Bool) :
    Sound held app { t with conditional := inside } := by
  intro hlost
  obtain ⟨hheld, htracks⟩ := h hlost
  exact ⟨hheld, htracks.bound, htracks.sets, htracks.compute, htracks.bytes, htracks.early,
    htracks.replayed⟩

lemma empty_accounted : Accounted {} := by
  refine ⟨⟨nodup_nil, ?_, ?_, ?_, ?_⟩, ?_⟩
  · intro c hc
    cases hc
  · intro k i hk
    cases hk
  · intro c hc
    cases hc
  · intro c hc
    cases hc
  · intro k hk
    cases hk

section

variable (h : ∀ t ∈ cs, Accounted t)

include h

/-- The shadow is there and accounted for, or it is not there yet. -/
lemma shadowIf_accounted {concerned : Bool} (hkeep : ∀ t, Accounted t → Accounted (keep t)) :
    ∀ t ∈ Command.shadowIf cs a concerned keep, Accounted t := by
  unfold Command.shadowIf
  split_ifs
  · intro t ht
    obtain ⟨t₀, ht₀, rfl⟩ := Option.mem_map.mp ht
    refine hkeep t₀ ?_
    cases cs with
    | some t' => exact h t₀ ht₀
    | none =>
      unfold csOf at ht₀
      cases hshadow : a.shadow with
      | true =>
        rw [hshadow] at ht₀
        cases ht₀
        exact empty_accounted
      | false =>
        rw [hshadow] at ht₀
        cases ht₀
  · exact h

lemma shadow2_accounted {stages : ℕ} {next : Bool} {why : String}
    (hkeep : ∀ t, Accounted t → Accounted (keep t)) :
    ∀ t ∈ Command.shadow2 cs a stages next why keep, Accounted t := by
  refine shadowIf_accounted h fun t ht => ?_
  cases next with
  | true => exact lose_accounted ht why
  | false => exact hkeep t ht

lemma shadow_accounted (c : Command) : ∀ t ∈ c.shadow cs a, Accounted t := by
  cases c with
  | bindPipeline compute p | beginConditionalRendering => exact shadowIf_accounted h fun t ht => ht.same rfl rfl rfl
  | bindShaders stages shaders =>
    rw [Command.shadow]
    generalize computeShaders stages shaders = ss
    induction ss generalizing cs with
    | nil => exact h
    | cons s ss ih => exact ih (shadowIf_accounted h fun t ht => ht.same rfl rfl rfl)
  | bindDescriptorSets compute layout first sets dyn
  | setDescriptorBufferOffsets compute layout first indices offsets
  | bindEmbeddedSamplers compute layout set =>
    exact shadowIf_accounted h fun t ht => record_accounted ht _
  | bindDescriptorSets2 stages next layout first sets dyn
  | setDescriptorBufferOffsets2 stages next layout first indices offsets
  | bindEmbeddedSamplers2 stages next layout set =>
    exact shadow2_accounted h fun t ht => record_accounted ht _
  | pushConstants p => exact shadowIf_accounted h fun t ht => keepPush_accounted ht
  | pushConstants2 next p =>
    refine shadowIf_accounted h fun t ht => ?_
    cases next with
    | true => exact lose_accounted ht _
    | false => exact keepPush_accounted ht
  | pushDescriptorSet compute layout set writes =>
    exact shadowIf_accounted h fun t ht => recordPushDesc_accounted ht
  | pushDescriptorSet2 stages next fn layout set writes =>
    exact shadow2_accounted h fun t ht => recordPushDesc_accounted ht
  | pushDescriptorSetWithTemplate compute layout set writes =>
    exact shadowIf_accounted h fun t ht => lose_accounted ht _
  | endConditionalRendering =>
    intro t ht
    obtain ⟨t₀, ht₀, rfl⟩ := Option.mem_map.mp ht
    exact (h t₀ ht₀).same rfl rfl rfl
  | heap => exact shadowIf_accounted h fun t ht => lose_accounted ht _

end

section Following

variable {cs : Option Tracker} (havail : cs ≠ none ∨ a.shadow = true)
  (hsound : Sound held app (tracker cs))
include havail hsound

variable {keep : Tracker → Tracker}

/-- A binding of descriptors for compute is followed, another one does not concern the shadow. -/
lemma shadowIf_sound {concerned : Bool}
    (hspares : ∀ k ∈ if concerned then some content else none, (tracker cs).Spares k)
    (hkeep : (tracker cs).Spares content → Sound held (app.describe content) (keep (tracker cs))) :
    Sound held ((if concerned then some content else none).elim app app.describe)
      (tracker (Command.shadowIf cs a concerned keep)) := by
  rw [tracker_shadowIf havail]
  cases concerned with
  | true => exact hkeep (hspares content rfl)
  | false => exact hsound

lemma shadow2_sound {stages : ℕ} {next : Bool} {why : String}
    (hspares : ∀ k ∈ if stages.testBit computeStage then some content else none, (tracker cs).Spares k)
    (hkeep : (tracker cs).Spares content → Sound held (app.describe content) (keep (tracker cs))) :
    Sound held ((if stages.testBit computeStage then some content else none).elim app app.describe)
      (tracker (Command.shadow2 cs a stages next why keep)) := by
  refine shadowIf_sound havail hsound hspares fun hspared => ?_
  cases next with
  | true => exact lose_sound _ why
  | false => exact hkeep hspared

lemma pushConstants_sound
    (hkeep : ((tracker cs).pushCompute || p.stages.testBit computeStage) = true →
      Sound held (app.pushConstants p) (keep (tracker cs))) :
    Sound held (app.pushConstants p)
      (tracker (Command.shadowIf cs a (Command.keepsPush cs p.stages) keep)) := by
  have hkeeps : Command.keepsPush cs p.stages = ((tracker cs).pushCompute || p.stages.testBit computeStage) := by
    rw [Bool.or_comm]
    cases cs with
    | none => rfl
    | some t => rfl
  rw [tracker_shadowIf havail, hkeeps]
  split_ifs with hconcerned
  · exact hkeep hconcerned
  · rw [Bool.not_eq_true, Bool.or_eq_false_iff] at hconcerned
    intro hlost
    exact ⟨(hsound hlost).1, skip_tracks (hsound hlost).2 hconcerned.1 hconcerned.2⟩

lemma bindShaders_sound (ss : List ℕ) :
    Sound held (ss.foldl (fun g s => g.bind (.shader s)) app) (tracker (ss.foldl
      (fun cs s => Command.shadowIf cs a true fun t => { t with bound := some (.shader s) }) cs)) := by
  induction ss generalizing cs app with
  | nil => exact hsound
  | cons s ss ih =>
    refine ih (.inl ?_) ?_
    · unfold Command.shadowIf
      beta_reduce
      rw [csOf_available havail]
      exact Option.some_ne_none _
    · rw [tracker_shadowIf havail]
      exact bind_sound hsound

/-- The shadow follows a recorded command that drops no descriptor of the application. -/
lemma shadow_sound (c : Command) (h : Accounted (tracker cs))
    (hspares : ∀ k ∈ c.content, (tracker cs).Spares k) :
    Sound held (c.effect app) (tracker (c.shadow cs a)) := by
  cases c with
  | bindPipeline compute p =>
    rw [Command.effect, Command.shadow, tracker_shadowIf havail]
    cases compute with
    | true => exact bind_sound hsound
    | false => exact hsound
  | bindShaders stages shaders => exact bindShaders_sound havail hsound _
  | bindDescriptorSets compute layout first sets dyn
  | setDescriptorBufferOffsets compute layout first indices offsets
  | bindEmbeddedSamplers compute layout set =>
    exact shadowIf_sound havail hsound hspares fun hspared => record_sound h hsound hspared rfl
  | bindDescriptorSets2 stages next layout first sets dyn
  | setDescriptorBufferOffsets2 stages next layout first indices offsets
  | bindEmbeddedSamplers2 stages next layout set =>
    exact shadow2_sound havail hsound hspares fun hspared => record_sound h hsound hspared rfl
  | pushConstants p => exact pushConstants_sound havail hsound (keepPush_sound hsound)
  | pushConstants2 next p =>
    refine pushConstants_sound havail hsound fun hkeeps => ?_
    cases next with
    | true => exact lose_sound _ _
    | false => exact keepPush_sound hsound hkeeps
  | pushDescriptorSet compute layout set writes =>
    exact shadowIf_sound havail hsound hspares (recordPushDesc_sound h hsound)
  | pushDescriptorSet2 stages next fn layout set writes =>
    exact shadow2_sound havail hsound hspares (recordPushDesc_sound h hsound)
  | pushDescriptorSetWithTemplate compute layout set writes | heap =>
    rw [Command.shadow, tracker_shadowIf havail]
    exact lose_sound _ _
  | beginConditionalRendering =>
    rw [Command.shadow, tracker_shadowIf havail]
    exact conditional_sound hsound true
  | endConditionalRendering =>
    cases cs with
    | none => exact hsound
    | some t => exact conditional_sound hsound false

end Following

end NvidiaProlapse.CommandState
