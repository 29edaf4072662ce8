import NvidiaProlapse.H264Codec

/-!
# Long-term frame indices

Each operation on the references keeps their long-term indices distinct and within the
maximum. The index of the current picture is checked where the list decides it, but the
picture joins the references only after the whole list: operations that follow may give
the index to another reference or lower the maximum. `Fate` follows what a list does to
the index of the current picture.
-/
namespace NvidiaProlapse.H264.Decoder

open Programs Video Option List

variable {d t : Decoder} {r : RefPic} {i idx : ℕ}

/-- The long-term index at a position. -/
def longAt (d : Decoder) (i : ℕ) : Option ℕ := (d.entry i).bind RefPic.longTermIdx

/-- Long-term indices are distinct and at most the maximum. -/
structure Indexed (d : Decoder) : Prop where
  unique : ∀ i j idx, d.longAt i = some idx → d.longAt j = some idx → i = j
  bounded : ∀ i idx, d.longAt i = some idx → d.aboveMax idx = false

/-- No reference is long-term. -/
def NoLong (d : Decoder) : Prop := ∀ i, d.longAt i = none

lemma NoLong.indexed (h : NoLong d) : Indexed d := by
  constructor
  · intro i j idx hi
    rw [h i] at hi
    cases hi
  · intro i idx hi
    rw [h i] at hi
    cases hi

/-- Long-term references only left. -/
structure LongSub (d t : Decoder) : Prop where
  long : ∀ i idx, t.longAt i = some idx → d.longAt i = some idx
  maximum : t.maxLtIdx = d.maxLtIdx

lemma LongSub.refl (d : Decoder) : LongSub d d := ⟨fun _ _ h => h, rfl⟩

lemma LongSub.trans {u : Decoder} (h : LongSub d t) (h' : LongSub t u) : LongSub d u :=
  ⟨fun i idx hi => h.long i idx (h'.long i idx hi), h'.maximum.trans h.maximum⟩

lemma LongSub.of_eq (hdpb : t.dpb = d.dpb) (hmax : t.maxLtIdx = d.maxLtIdx) : LongSub d t := by
  refine ⟨?_, hmax⟩
  intro i idx hi
  rwa [longAt, entry, hdpb] at hi

lemma LongSub.indexed (h : LongSub d t) (hd : Indexed d) : Indexed t := by
  constructor
  · intro i j idx hi hj
    exact hd.unique i j idx (h.long i idx hi) (h.long j idx hj)
  · intro i idx hi
    rw [aboveMax, h.maximum]
    exact hd.bounded i idx (h.long i idx hi)

lemma LongSub.noLong (h : LongSub d t) (hd : NoLong d) : NoLong t := by
  intro i
  cases hi : t.longAt i with
  | none => rfl
  | some idx =>
    have := h.long i idx hi
    rw [hd i] at this
    cases this

lemma longAt_setDpb (d : Decoder) (i j : ℕ) (e : Option RefPic) :
    (setDpb i e d).longAt j =
      if i = j ∧ i < d.dpb.length then e.bind RefPic.longTermIdx else d.longAt j := by
  unfold longAt
  rw [entry_setDpb]
  split_ifs <;> rfl

lemma LongSub.clear (d : Decoder) (i : ℕ) : LongSub d (setDpb i none d) := by
  refine ⟨?_, rfl⟩
  intro j idx hj
  rw [longAt_setDpb] at hj
  split_ifs at hj
  · cases hj
  · exact hj

lemma noLong_of_empty (hd : d.dpb = replicate dpbPositions none) : NoLong d := by
  intro i
  rw [longAt, entry_replicate _ hd]
  rfl

/-- A filter on long-term indices. -/
lemma longAt_dropRefs (q : ℕ → Bool) (d : Decoder) (i : ℕ) :
    (dropRefs (fun r => r.longTermIdx.any q) d).longAt i = (d.longAt i).filter fun idx => !q idx := by
  unfold longAt
  rw [entry_dropRefs]
  cases d.entry i with
  | none => rfl
  | some r =>
    cases hr : r.longTermIdx with
    | none => simp [Option.filter, hr]
    | some idx =>
      cases hq : q idx with
      | true | false => simp [Option.filter, hr, hq]

variable {frameNum max k i : ℕ} {x : ℤ}

lemma findShort_some (h : d.findShort x frameNum max = some i) :
    i < d.dpb.length ∧ ∃ r, d.entry i = some r ∧ r.longTermIdx = none := by
  obtain ⟨hi, hp, -⟩ := findIdx?_eq_some_iff_getElem.mp h
  refine ⟨hi, ?_⟩
  have hentry : d.entry i = d.dpb[i] := by rw [entry, getD_eq_getElem _ _ hi]
  rw [hentry]
  cases he : d.dpb[i] with
  | none => simp [he] at hp
  | some r =>
    refine ⟨r, rfl, ?_⟩
    simp only [he, Option.any_some, Bool.and_eq_true, Option.isNone_iff_eq_none] at hp
    exact hp.1

lemma findLong_some (h : d.findLong idx = some i) : d.longAt i = some idx := by
  obtain ⟨hi, hp, -⟩ := findIdx?_eq_some_iff_getElem.mp h
  rw [longAt, entry, getD_eq_getElem _ _ hi]
  cases he : d.dpb[i] with
  | none => simp [he] at hp
  | some r => simpa [he] using hp

lemma findLong_none (h : d.findLong idx = none) (i : ℕ) : d.longAt i ≠ some idx := by
  intro hi
  obtain ⟨r, hr, hidx⟩ := bind_eq_some_iff.mp hi
  have hmem : some r ∈ d.dpb := by
    have := mem_refs.mpr ⟨i, hr⟩
    rwa [refs, reduceOption_mem_iff] at this
  have := findIdx?_eq_none_iff.mp h _ hmem
  simp [hidx] at this

/-! ## The fate of the current picture's index -/

/-- The index of the current picture, whether another reference took it since, and
whether it is above the maximum by now. -/
structure Fate where
  idx : ℕ
  taken : Bool := false
  above : Bool := false
  deriving DecidableEq, Repr

def Fate.spoiled (f : Fate) : Bool := f.taken || f.above

/-- What an operation does to the index that was decided before it. -/
def Fate.after (f : Fate) : Mmco → Fate
  | .shortUnused _ => f
  | .longUnused n => if n = f.idx then { f with taken := false } else f
  | .shortToLong _ idx => if idx = f.idx then { f with taken := true } else f
  | .maxLongTermIdx plus1 =>
    if plus1 ≤ f.idx then ⟨f.idx, false, true⟩ else { f with above := false }
  | .reset => ⟨f.idx, false, true⟩
  | .currentToLong idx => ⟨idx, false, false⟩

def nextFate (f : Option Fate) : Mmco → Option Fate
  | .currentToLong idx => some ⟨idx, false, false⟩
  | op => f.map (·.after op)

/-- The index that the current picture joins the references with. -/
def fateOf (h : SliceHeader) : Option Fate :=
  if h.idr then (if h.longTermReferenceFlag then some ⟨0, false, false⟩ else none)
  else (h.mmco.getD []).foldl nextFate none

/-- The operations after the last `currentToLong` gave its index away or lowered the
maximum below it. -/
def spoils (h : SliceHeader) : Bool := h.nalRefIdc ≠ 0 && (fateOf h).any Fate.spoiled

/-- The fate is the truth about the references. -/
structure Tracks (f : Option Fate) (m : Marking) (d : Decoder) : Prop where
  indexed : Indexed d
  current : m.curLt = f.map Fate.idx
  taken : ∀ g ∈ f, g.taken = true ↔ ∃ i, d.longAt i = some g.idx
  above : ∀ g ∈ f, g.above = d.aboveMax g.idx

variable {f : Option Fate} {m : Marking}

/-- An operation that does not decide the current picture's index. -/
lemma Tracks.step (hd : Tracks f m d) (ht : Indexed t) {op : Mmco}
    (h : ∀ g ∈ f, (g.after op).idx = g.idx ∧
      ((g.after op).taken = true ↔ ∃ i, t.longAt i = some g.idx) ∧
      (g.after op).above = t.aboveMax g.idx) :
    Tracks (f.map (·.after op)) m t := by
  have hmem : ∀ g' ∈ f.map (·.after op), ∃ g ∈ f, g.after op = g' := by
    intro g' hg'
    obtain ⟨g, hg, rfl⟩ := map_eq_some_iff.mp hg'
    exact ⟨g, hg, rfl⟩
  refine ⟨ht, ?_, ?_, ?_⟩
  · rw [hd.current]
    cases f with
    | none => rfl
    | some g => exact congrArg some (h g rfl).1.symm
  · intro g' hg'
    obtain ⟨g, hg, rfl⟩ := hmem g' hg'
    rw [(h g hg).1]
    exact (h g hg).2.1
  · intro g' hg'
    obtain ⟨g, hg, rfl⟩ := hmem g' hg'
    rw [(h g hg).1]
    exact (h g hg).2.2

lemma longAt_clear_ne (hne : d.longAt k ≠ some idx) :
    (∃ i, (setDpb k none d).longAt i = some idx) ↔ ∃ i, d.longAt i = some idx := by
  constructor
  · rintro ⟨i, hi⟩
    exact ⟨i, (LongSub.clear d k).long i _ hi⟩
  rintro ⟨i, hi⟩
  refine ⟨i, ?_⟩
  rw [longAt_setDpb, if_neg, hi]
  rintro ⟨rfl, -⟩
  exact hne hi

lemma shortUnused_tracks (frameNum max diff : ℕ) :
    Spec (Tracks f m) (applyMmco frameNum max m (.shortUnused diff))
      (Tracks (f.map (·.after (.shortUnused diff)))) fun _ => Indexed := by
  refine .read fun d hd => ?_
  dsimp only
  cases hfind : d.findShort (frameNum - (diff + 1)) frameNum max with
  | none => exact .refused hd.indexed
  | some k =>
    refine .last ?_
    refine hd.step ((LongSub.clear d k).indexed hd.indexed) ?_
    intro g hg
    refine ⟨rfl, (hd.taken g hg).trans (longAt_clear_ne ?_).symm, hd.above g hg⟩
    obtain ⟨-, r, hr, hshort⟩ := findShort_some hfind
    rw [longAt, hr]
    simp [hshort]

/-- The position of a long-term index is cleared. -/
lemma longAt_clear_eq (hd : Indexed d) (hfind : d.findLong idx = some k) (i : ℕ) :
    (setDpb k none d).longAt i ≠ some idx := by
  intro hi
  have hk := findLong_some hfind
  have hlt : k < d.dpb.length := (findIdx?_eq_some_iff_getElem.mp hfind).1
  obtain rfl := hd.unique i k idx ((LongSub.clear d k).long i _ hi) hk
  rw [longAt_setDpb, if_pos ⟨rfl, hlt⟩] at hi
  cases hi

lemma longUnused_tracks (frameNum max n : ℕ) :
    Spec (Tracks f m) (applyMmco frameNum max m (.longUnused n))
      (Tracks (f.map (·.after (.longUnused n)))) fun _ => Indexed := by
  refine .read fun d hd => ?_
  cases hfind : d.findLong n with
  | none => exact .refused hd.indexed
  | some k =>
    refine .last ?_
    refine hd.step ((LongSub.clear d k).indexed hd.indexed) ?_
    intro g hg
    by_cases hn : n = g.idx
    · subst hn
      simp only [Fate.after, if_true, true_and]
      exact ⟨by simpa using longAt_clear_eq hd.indexed hfind, hd.above g hg⟩
    simp only [Fate.after, if_neg hn, true_and]
    refine ⟨(hd.taken g hg).trans (longAt_clear_ne ?_).symm, hd.above g hg⟩
    rw [findLong_some hfind]
    exact fun h => hn (some.inj h)

/-- The references without a long-term index. -/
lemma freeLong_frees (hd : Indexed d) : Spec (d = ·) (freeLong idx (d.findShort x frameNum max))
      (fun _ t => LongSub d t ∧ (∀ i, t.longAt i ≠ some idx) ∧
        ∀ i, d.longAt i ≠ some idx → t.entry i = d.entry i)
      fun _ => Indexed := by
  refine .look ?_
  cases hfind : d.findLong idx with
  | none =>
    refine .unchanged ?_
    exact ⟨.refl d, findLong_none hfind, fun _ _ => rfl⟩
  | some k =>
    have hne : some k ≠ d.findShort x frameNum max := by
      intro heq
      obtain ⟨-, r, hr, hshort⟩ := findShort_some heq.symm
      have hk := findLong_some hfind
      rw [longAt, hr] at hk
      simp [hshort] at hk
    show Spec _ (onlyIf _ _) _ _
    rw [onlyIf, if_pos hne]
    refine .change ?_
    refine ⟨.clear d k, longAt_clear_eq hd hfind, ?_⟩
    intro i hi
    rw [entry_setDpb, if_neg]
    rintro ⟨rfl, -⟩
    exact hi (findLong_some hfind)

lemma longAt_setLong (hk : d.entry k = some r) (i : ℕ) :
    (setLong k idx d).longAt i = if k = i then some idx else d.longAt i := by
  show (setDpb k ((d.entry k).map _) d).longAt i = _
  rw [longAt_setDpb, hk]
  simp [entry_lt hk]

lemma Indexed.setLong (hd : Indexed d) (hk : d.entry k = some r)
    (hfree : ∀ i, d.longAt i ≠ some idx) (hmax : d.aboveMax idx = false) :
    Indexed (setLong k idx d) := by
  constructor
  · intro i j idx' hi hj
    rw [longAt_setLong hk] at hi hj
    split_ifs at hi hj with hki hkj
    · rw [← hki, ← hkj]
    · exact absurd (hi ▸ hj) (hfree j)
    · exact absurd (hj ▸ hi) (hfree i)
    · exact hd.unique i j idx' hi hj
  · intro i idx' hi
    rw [longAt_setLong hk] at hi
    split_ifs at hi with hki
    · rw [← some.inj hi]
      exact hmax
    · exact hd.bounded i idx' hi

lemma shortToLong_tracks (frameNum max diff idx : ℕ) :
    Spec (Tracks f m) (applyMmco frameNum max m (.shortToLong diff idx))
      (Tracks (f.map (·.after (.shortToLong diff idx)))) fun _ => Indexed := by
  refine .read fun d hd => ?_
  refine .guarded hd.indexed fun hmax => ?_
  refine .next (freeLong_frees hd.indexed) ?_
  cases hfind : d.findShort (frameNum - (diff + 1)) frameNum max with
  | none => exact .of_throw fun t ht => ht.1.indexed hd.indexed
  | some k =>
    obtain ⟨-, r, hr, hshort⟩ := findShort_some hfind
    refine .finish ?_
    rintro t ⟨hsub, hfree, hother⟩
    have hk : t.entry k = some r := by
      rw [hother k, hr]
      rw [longAt, hr]
      simp [hshort]
    have habove : ∀ j, t.aboveMax j = d.aboveMax j := by
      intro j
      rw [aboveMax, aboveMax, hsub.maximum]
    refine hd.step ((hsub.indexed hd.indexed).setLong hk hfree ?_) ?_
    · rw [habove]
      simpa using hmax
    intro g hg
    have hfate : (g.after (.shortToLong diff idx)).above = (setLong k idx t).aboveMax g.idx := by
      have hsame : (g.after (.shortToLong diff idx)).above = g.above := by
        simp only [Fate.after]
        split_ifs <;> rfl
      rw [hsame, hd.above g hg]
      exact (habove g.idx).symm
    by_cases hidx : idx = g.idx
    · refine ⟨by simp [Fate.after, hidx], ?_, hfate⟩
      simp only [Fate.after, if_pos hidx, true_iff]
      exact ⟨k, by rw [longAt_setLong hk, if_pos rfl, hidx]⟩
    refine ⟨by simp [Fate.after, hidx], ?_, hfate⟩
    simp only [Fate.after, if_neg hidx]
    rw [hd.taken g hg]
    constructor
    · rintro ⟨i, hi⟩
      have hki : k ≠ i := by
        rintro rfl
        rw [longAt, hr] at hi
        simp [hshort] at hi
      refine ⟨i, ?_⟩
      rw [longAt_setLong hk, if_neg hki, longAt, hother i, ← hi]
      · rfl
      · rw [hi]
        exact fun h => hidx (some.inj h).symm
    · rintro ⟨i, hi⟩
      rw [longAt_setLong hk] at hi
      split_ifs at hi with hki
      · exact absurd (some.inj hi) hidx
      · exact ⟨i, hsub.long i _ hi⟩

lemma longAt_capLong (newMax : Option ℕ) (d : Decoder) (i : ℕ) :
    (capLong newMax d).longAt i = (d.longAt i).filter fun idx => !newMax.all fun m => m < idx :=
  longAt_dropRefs _ _ i

lemma longAt_capLong_iff {newMax : Option ℕ} :
    (capLong newMax d).longAt i = some idx ↔
      d.longAt i = some idx ∧ (newMax.all fun m => m < idx) = false := by
  rw [longAt_capLong, Option.filter_eq_some_iff]
  simp

lemma maxLongTermIdx_tracks (frameNum max plus1 : ℕ) :
    Spec (Tracks f m) (applyMmco frameNum max m (.maxLongTermIdx plus1))
      (Tracks (f.map (·.after (.maxLongTermIdx plus1)))) fun _ => Indexed := by
  refine .finish ?_
  intro d hd
  have hcap : ∀ j, (Option.all (fun m => decide (m < j))
      (if plus1 = 0 then none else some (plus1 - 1))) = decide (plus1 ≤ j) := by
    intro j
    split_ifs with hzero
    · simp [hzero]
    · simp only [Option.all_some, decide_eq_decide]
      omega
  refine hd.step ⟨?_, ?_⟩ ?_
  · intro i j idx hi hj
    exact hd.indexed.unique i j idx (longAt_capLong_iff.mp hi).1 (longAt_capLong_iff.mp hj).1
  · intro i idx hi
    exact (longAt_capLong_iff.mp hi).2
  intro g hg
  have habove : (capLong (if plus1 = 0 then none else some (plus1 - 1)) d).aboveMax g.idx =
      decide (plus1 ≤ g.idx) := hcap g.idx
  rw [habove]
  simp only [longAt_capLong_iff, hcap]
  by_cases hle : plus1 ≤ g.idx
  · simp [Fate.after, hle]
  · simp [Fate.after, hle, hd.taken g hg]

lemma reset_tracks (frameNum max : ℕ) :
    Spec (Tracks f m) (applyMmco frameNum max m .reset) (Tracks (f.map (·.after .reset)))
      fun _ => Indexed := by
  refine .write (Tracks _ m) ?_ (.of_pure fun d h => { h with })
  intro d hd
  have hempty := noLong_of_empty
    (d := { d with dpb := replicate dpbPositions none, maxLtIdx := none }) rfl
  refine hd.step hempty.indexed ?_
  intro g _
  refine ⟨rfl, ?_, rfl⟩
  simp [Fate.after, hempty _]

lemma currentToLong_tracks (frameNum max idx : ℕ) :
    Spec (Tracks f m) (applyMmco frameNum max m (.currentToLong idx))
      (Tracks (some ⟨idx, false, false⟩)) fun _ => Indexed := by
  refine .read fun d hd => ?_
  refine .guarded hd.indexed fun hmax => ?_
  refine .last ?_
  have hdrop : (dropRefs (fun r => decide (r.longTermIdx = some idx)) d) =
      dropRefs (fun r => r.longTermIdx.any fun i => decide (i = idx)) d := by
    congr 1
    funext r
    cases r.longTermIdx <;> simp
  have hlong : ∀ i idx', (dropRefs (fun r => decide (r.longTermIdx = some idx)) d).longAt i =
      some idx' ↔ d.longAt i = some idx' ∧ idx' ≠ idx := by
    intro i idx'
    rw [hdrop, longAt_dropRefs, Option.filter_eq_some_iff]
    simp
  refine ⟨⟨?_, ?_⟩, rfl, ?_, ?_⟩
  · intro i j idx' hi hj
    exact hd.indexed.unique i j idx' ((hlong i idx').mp hi).1 ((hlong j idx').mp hj).1
  · intro i idx' hi
    exact hd.indexed.bounded i idx' ((hlong i idx').mp hi).1
  · rintro _ ⟨⟩
    simp [hlong]
  · rintro _ ⟨⟩
    exact (Bool.eq_false_iff.mpr hmax).symm

lemma applyMmco_tracks (frameNum max : ℕ) (op : Mmco) :
    Spec (Tracks f m) (applyMmco frameNum max m op) (Tracks (nextFate f op)) fun _ => Indexed := by
  cases op with
  | shortUnused diff => exact shortUnused_tracks frameNum max diff
  | longUnused n => exact longUnused_tracks frameNum max n
  | shortToLong diff idx => exact shortToLong_tracks frameNum max diff idx
  | maxLongTermIdx plus1 => exact maxLongTermIdx_tracks frameNum max plus1
  | reset => exact reset_tracks frameNum max
  | currentToLong idx => exact currentToLong_tracks frameNum max idx

lemma applyMmcos_tracks (frameNum max : ℕ) (ops : List Mmco) :
    Spec (Tracks f m) (applyMmcos frameNum max ops m) (Tracks (ops.foldl nextFate f))
      fun _ => Indexed := by
  induction ops generalizing f m with
  | nil => exact .of_pure fun _ h => h
  | cons op ops ih => exact .seq (applyMmco_tracks frameNum max op) fun m => ih

/-! ## Marking -/

lemma longAt_insert (hi : i < d.dpb.length) (j : ℕ) :
    (setDpb i (some r) d).longAt j = if i = j then r.longTermIdx else d.longAt j := by
  rw [longAt_setDpb]
  simp [hi]

lemma longSub_preserved : Preserved (LongSub d) where
  same ht hdpb _ hmax := ht.trans (.of_eq hdpb hmax)
  clear i ht := ht.trans (.clear _ i)
  gap ht hi _ _ _ hnone := by
    refine ht.trans ⟨?_, rfl⟩
    intro j idx hj
    rw [longAt_insert hi, hnone] at hj
    split_ifs at hj
    exact hj

lemma tracks_none (hd : Indexed d) : Tracks none {} d := by
  refine ⟨hd, rfl, ?_, ?_⟩
  · rintro _ ⟨⟩
  · rintro _ ⟨⟩

lemma markRefs_tracks (hd : Indexed d) (h : SliceHeader) (sps : Sps) (hidr : h.idr → NoLong d) :
    Spec (d = ·) (markRefs h sps) (Tracks (fateOf h)) fun _ => Indexed := by
  refine .branch (fun hi => ?_) fun hi => ?_
  · refine .write (fun t => NoLong t ∧
      t.maxLtIdx = if h.longTermReferenceFlag then some 0 else none) ?_ (.of_pure ?_)
    · rintro _ rfl
      exact ⟨hidr hi, rfl⟩
    rintro t ⟨hlong, hmax⟩
    simp only [fateOf, hi, if_true]
    cases hflag : h.longTermReferenceFlag with
    | false => exact tracks_none hlong.indexed
    | true =>
      rw [hflag] at hmax
      refine ⟨hlong.indexed, rfl, ?_, ?_⟩
      · rintro _ ⟨⟩
        simp [hlong _]
      · rintro _ ⟨⟩
        simp [aboveMax, hmax]
  · have hfate : fateOf h = (h.mmco.getD []).foldl nextFate none := by
      simp [fateOf, hi]
    rw [hfate]
    cases h.mmco with
    | some ops =>
      exact (applyMmcos_tracks h.frameNum sps.maxFrameNum ops).enter (tracks_none hd)
    | none =>
      refine .seq (((slidingWindow_keeps longSub_preserved.clear sps h.frameNum).enter (LongSub.refl d)).fallback
        fun _ _ h => h.indexed hd) fun _ => ?_
      exact .of_pure fun t ht => tracks_none (ht.indexed hd)

/-- The current picture joins with an index that is free and allowed, or the indices are
in order no longer. -/
lemma indexed_insert_iff (hd : Tracks f m d) (hi : i < d.dpb.length) (hnone : d.entry i = none)
    (hr : r.longTermIdx = m.curLt) : Indexed (setDpb i (some r) d) ↔ f.any Fate.spoiled = false := by
  cases f with
  | none =>
    refine iff_of_true ?_ rfl
    have hsub : LongSub d (setDpb i (some r) d) := by
      refine ⟨?_, rfl⟩
      intro j idx hj
      rw [longAt_insert hi, hr, hd.current] at hj
      split_ifs at hj
      · cases hj
      · exact hj
    exact hsub.indexed hd.indexed
  | some g =>
    have hidx : r.longTermIdx = some g.idx := by rw [hr, hd.current]; rfl
    have hlong : ∀ j, d.longAt j = some g.idx → i ≠ j := by
      rintro j hj rfl
      rw [longAt, hnone] at hj
      cases hj
    rw [any_some, Fate.spoiled, Bool.or_eq_false_iff, Bool.eq_false_iff, Bool.eq_false_iff]
    constructor
    · intro ht
      have hself : (setDpb i (some r) d).longAt i = some g.idx := by
        rw [longAt_insert hi, if_pos rfl, hidx]
      constructor
      · rw [Ne, hd.taken g rfl]
        rintro ⟨j, hj⟩
        have hthere : (setDpb i (some r) d).longAt j = some g.idx := by
          rw [longAt_insert hi, if_neg (hlong j hj), hj]
        exact hlong j hj (ht.unique i j g.idx hself hthere)
      · rw [hd.above g rfl]
        exact Bool.eq_false_iff.mp (ht.bounded i g.idx hself)
    · rintro ⟨htaken, habove⟩
      rw [Ne, hd.taken g rfl] at htaken
      constructor
      · intro j k idx hj hk
        rw [longAt_insert hi, hidx] at hj hk
        split_ifs at hj hk with hij hik
        · rw [← hij, ← hik]
        · exact absurd ⟨k, hk.trans hj.symm⟩ htaken
        · exact absurd ⟨j, hj.trans hk.symm⟩ htaken
        · exact hd.indexed.unique j k idx hj hk
      · intro j idx hj
        rw [longAt_insert hi, hidx] at hj
        split_ifs at hj with hij
        · rw [← some.inj hj]
          show d.aboveMax g.idx = false
          rw [← hd.above g rfl]
          exact Bool.eq_false_iff.mpr habove
        · exact hd.indexed.bounded j idx hj

lemma indexed_congr (d t : Decoder) (hdpb : t.dpb = d.dpb) (hmax : t.maxLtIdx = d.maxLtIdx) :
    Indexed t ↔ Indexed d :=
  ⟨fun h => (LongSub.of_eq hdpb.symm hmax.symm).indexed h,
    fun h => (LongSub.of_eq hdpb hmax).indexed h⟩

lemma mark_indexed_iff (hd : Indexed d) (h : SliceHeader) (sps : Sps) (poc : ℤ × ℤ) (msb : ℤ)
    (surface slot : ℕ) (hidr : h.idr → NoLong d) :
    Spec (d = ·) (mark h sps poc msb surface slot) (fun _ t => Indexed t ↔ spoils h = false)
      fun _ => Indexed := by
  refine .branch (fun hzero => ?_) fun href => ?_
  · refine .change ?_
    have hkept : Indexed (updatePoc h sps {} poc msb d) :=
      (indexed_congr d (updatePoc h sps {} poc msb d) rfl rfl).mpr hd
    simp [spoils, hzero, hkept]
  · refine .seq (markRefs_tracks hd h sps hidr) fun m => ?_
    have hinsert : Spec (Tracks (fateOf h) m)
        (insertCurrent h sps m (if m.mmco5 then rebase poc else poc) surface slot)
        (fun _ t => Indexed t ↔ spoils h = false) fun _ => Indexed := by
      refine .read fun t ht => ?_
      refine .guarded ht.indexed fun _ => ?_
      refine (insertRef_sets _).post ?_ fun _ _ h => h ▸ ht.indexed
      rintro _ _ ⟨i, hi, hnone, rfl⟩
      rw [indexed_insert_iff ht hi hnone rfl]
      simp [spoils, href]
    refine .next hinsert (.of_modify fun t ht => ?_)
    refine Iff.trans ?_ ht
    apply indexed_congr
    · rfl
    · rfl

lemma complete_indexed_iff (hd : Indexed d) (b : Begun) (surface : ℕ)
    (hidr : b.pic.hdr.idr → NoLong d) :
    Spec (d = ·) (complete b surface) (fun _ t => Indexed t ↔ spoils b.pic.hdr = false)
      fun _ => Indexed := by
  refine .look ?_
  refine .guarded hd fun _ => ?_
  cases d.colocatedSlot surface with
  | none => exact .refused hd
  | some slot =>
    refine .write (LongSub d) ?_ ?_
    · rintro _ rfl
      exact .of_eq rfl rfl
    refine .write (LongSub d) ?_ ?_
    · intro t ht
      unfold chooseErrSlot
      split_ifs
      all_goals exact ht.trans (.of_eq rfl rfl)
    refine .read fun t ht => ?_
    refine .seq (mark_indexed_iff (ht.indexed hd) _ _ _ _ surface slot
      fun hi => ht.noLong (hidr hi)) fun _ => ?_
    refine .finish ?_
    intro u hu
    refine Iff.trans ?_ hu
    apply indexed_congr
    · rfl
    · rfl

/-! ## The first phase -/

/-- The first phase only removes long-term references; an IDR picture removes them all. -/
def Begins (d t : Decoder) : Prop := LongSub d t ∨ NoLong t

lemma Begins.indexed (h : Begins d t) (hd : Indexed d) : Indexed t :=
  h.elim (fun h => h.indexed hd) NoLong.indexed

lemma Begins.noLong (h : Begins d t) (hd : NoLong d) : NoLong t :=
  h.elim (fun h => h.noLong hd) id

lemma begin_begins (au : List Nal) :
    Spec (d = ·) (begin au) (fun b t => Begins d t ∧ ∀ b' ∈ b, b'.pic.hdr.idr → NoLong t)
      fun _ => Begins d := by
  refine ((begin_spec NoLong longSub_preserved (fun _ => noLong_of_empty rfl)
    (fun t epoch ht => LongSub.noLong (.of_eq rfl rfl) ht) au).enter (.refl d)).post ?_ fun _ _ h => h.symm
  rintro b t (ht | ⟨ht, hidr⟩)
  · exact ⟨.inr ht, fun _ _ _ => ht⟩
  · refine ⟨.inl ht, fun b' hb' h => ?_⟩
    rw [hidr b' hb'] at h
    cases h

end NvidiaProlapse.H264.Decoder

namespace NvidiaProlapse.H264.H264Decoder

open Programs Runs Video Decoder

variable {s : H264Decoder}

/-- Where an IDR picture is pending, no reference is long-term. -/
def Unmarked (s : H264Decoder) : Prop := ∀ b ∈ s.pending, b.pic.hdr.idr → NoLong s.dec

lemma nextJob_unmarked : Keeps Unmarked nextJob := by
  refine nextJob_spec (fun b s => b.pic.hdr.idr → NoLong s.dec) (fun _ _ hs => hs) ?_ ?_
  · intro au
    refine .of_focus fun s hs => (begin_begins au).post (fun b t ht => ⟨?_, ht.2⟩) fun _ t ht => ?_
    · exact fun b' hb' hidr => ht.1.noLong (hs b' hb' hidr)
    · exact fun b' hb' hidr => ht.noLong (hs b' hb' hidr)
  · rintro s b - hb _ ⟨⟩
    exact hb

lemma nextJob_indexed : Keeps (fun s => Indexed s.dec) nextJob := by
  refine nextJob_spec (fun _ _ => True) (fun _ _ hs => hs) ?_ fun _ _ hs _ => hs
  intro au
  refine .of_focus fun s hs => (begin_begins au).post ?_ ?_
  · exact fun _ t ht => ⟨ht.1.indexed hs, fun _ _ => trivial⟩
  · exact fun _ t ht => ht.indexed hs

lemma unmarked_of_no_pending (hs : s.pending = none) : Unmarked s := by
  intro b hb
  rw [hs] at hb
  cases hb

lemma build_unmarked (ctx : BuildContext) : Keeps Unmarked (build ctx) := by
  refine .of_states fun s _ => build_spec (fun _ _ => unmarked_of_no_pending rfl) fun b _ => ?_
  exact (Spec.anything _ _).post (fun _ _ _ => unmarked_of_no_pending rfl)
    fun _ _ _ => unmarked_of_no_pending rfl

lemma build_indexed (hs : Indexed s.dec) (hpending : Unmarked s) (ctx : BuildContext) :
    Spec (s = ·) (build ctx)
      (fun _ t => ∃ b, s.pending = some b ∧ (Indexed t.dec ↔ spoils b.pic.hdr = false))
      fun _ t => Indexed t.dec := by
  refine build_spec (fun _ _ => hs) fun b hb => ?_
  exact (complete_indexed_iff hs b ctx.current (hpending b hb)).after fun _ _ h => ⟨b, hb, h⟩

/-! ## Whole streams -/

/-- The call completes a picture whose operations spoil its own index. -/
def Spoiled (s : H264Decoder) : CodecCall AccessUnit → Prop
  | .build _ ctx => (∃ b, s.pending = some b ∧ spoils b.pic.hdr = true) ∧
      ∃ planes, (exec (build ctx) s).1 = .ok planes
  | _ => False

lemma build_indexed_iff (hs : Indexed s.dec) (hpending : Unmarked s) (ctx : BuildContext) :
    Indexed (exec (build ctx) s).2.dec ↔ ¬((∃ b, s.pending = some b ∧ spoils b.pic.hdr = true) ∧
        ∃ planes, (exec (build ctx) s).1 = .ok planes) := by
  have hspec := build_indexed hs hpending ctx s rfl
  cases hbuild : exec (build ctx) s with
  | mk result t =>
    cases result with
    | error e => simp [hspec.2 e t hbuild]
    | ok planes =>
      obtain ⟨b, hb, hiff⟩ := hspec.1 planes t hbuild
      simp [hb, hiff]

lemma perform_unmarked (hs : Unmarked s) (call : CodecCall AccessUnit) :
    Unmarked (codec.perform s call) := by
  cases call with
  | pushUnit data => exact hs
  | nextJob => exact Spec.state (nextJob_unmarked.enter hs)
  | build job ctx => exact Spec.state ((build_unmarked ctx).enter hs)
  | finish job current readback => exact hs
  | flush => exact unmarked_of_no_pending rfl

lemma perform_indexed_iff (hs : Indexed s.dec) (hpending : Unmarked s)
    (call : CodecCall AccessUnit) : Indexed (codec.perform s call).dec ↔ ¬Spoiled s call := by
  cases call with
  | pushUnit data | finish job current readback => exact iff_of_true hs id
  | nextJob => exact iff_of_true (Spec.state (nextJob_indexed.enter hs)) id
  | build job ctx => exact build_indexed_iff hs hpending ctx
  | flush => exact iff_of_true (noLong_of_empty rfl).indexed id

/-- Along a stream the indices stay distinct and within the maximum exactly as long as no
picture is marked whose operations spoil its own index. -/
theorem long_term_indices_iff (newH264 : Bool) (max : ℕ × ℕ) (calls : List (CodecCall AccessUnit)) :
    (∀ before after, calls = before ++ after →
      Indexed (before.foldl codec.perform (fresh newH264 max)).dec) ↔
      Along (fun s call => some (codec.perform s call)) (fun s call => ¬Spoiled s call)
        (fresh newH264 max) calls := by
  have hstart : Unmarked (fresh newH264 max) := unmarked_of_no_pending rfl
  have hindexed : Indexed (fresh newH264 max).dec := (noLong_of_empty rfl).indexed
  rw [← @always_iff_along _ _ _ _ Unmarked (fun s => Indexed s.dec) ?_ ?_ _ hstart hindexed]
  · simp
  · rintro s call _ hs ⟨⟩
    exact perform_unmarked hs call
  · intro s call hpending hs
    rw [← perform_indexed_iff hs hpending]
    simp

/-- An IDR picture is decoded into surface 0. The next reference picture takes index 0 and then
gives it to the IDR picture as well. -/
def indexTwice : List (CodecCall AccessUnit) :=
  let idr : SliceHeader := { idr := true, nalRefIdc := 1, frameNum := 0 }
  let info : Info := ⟨64, 64, (0, 0, 0, 0), (2, 2, 2, false), true⟩
  let ops : List Mmco := [.maxLongTermIdx 1, .currentToLong 0, .shortToLong 0 0]
  [.pushUnit (parameterSets ++ [smallSlice idr]), .nextJob,
    .build (jobOf ⟨⟨idr, 0, smallSps, []⟩, (0, 0), 0, 2 ^ 32, info⟩) ⟨0, 0, 0⟩,
    .pushUnit [smallSlice { idr := false, nalRefIdc := 1, frameNum := 1, mmco := some ops }], .nextJob]

theorem long_term_index_shared :
    let s := indexTwice.foldl codec.perform (fresh true (64, 64))
    (exec (build ⟨0, 1, 1⟩) s).1.toOption.isSome ∧ ¬Indexed (exec (build ⟨0, 1, 1⟩) s).2.dec := by
  refine ⟨by decide +kernel, fun h => ?_⟩
  exact absurd (h.unique 0 1 0 (by decide +kernel) (by decide +kernel)) (by decide)

end NvidiaProlapse.H264.H264Decoder
