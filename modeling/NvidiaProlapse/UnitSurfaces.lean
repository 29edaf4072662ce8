import NvidiaProlapse.Av1
import NvidiaProlapse.SessionSteps
import Mathlib.Data.Finset.Card

/-!
# Surfaces of an admitted unit

Inside a unit every decoded picture takes a surface, references are refreshed, and shown
pictures are held. A unit that was admitted by the number of free surfaces never runs out of
them. One that was admitted by the bound on the references runs out when the pictures it
showed itself fill the pool.
-/
namespace NvidiaProlapse.Video

open Programs Runs Finset Session

variable {υ σ : Type}

/-! ## Within a unit -/

/-- A decode job that went through: built, finished and, if it is shown, emitted. -/
inductive Filled (codec : Codec υ σ) (job : DecodeJob) (current : ℕ) (s : Session σ) :
    Session σ → Prop
  | hidden {len index : ℕ} {planes : List SurfaceRef} {readback : Option (List UInt8)} {c c' : σ}
      (hbuild : exec (codec.build job ⟨len, index, current⟩) s.codec = (.ok planes, c))
      (hfinish : exec (codec.finish job current readback) c = (.ok (), c'))
      (hshown : job.shown = false) : Filled codec job current s (s.trying current c')
  | shown {len index : ℕ} {planes : List SurfaceRef} {readback : Option (List UInt8)} {c c' : σ}
      (hbuild : exec (codec.build job ⟨len, index, current⟩) s.codec = (.ok planes, c))
      (hfinish : exec (codec.finish job current readback) c = (.ok (), c'))
      (hshown : job.shown = true) (p : Picture) (hp : p.surface = current) :
      Filled codec job current s ((s.trying current c').emit codec p job.displayKey)

/-- The session within a unit that began at `s`, after `d` decoded and `k` shown pictures. -/
inductive InUnit (codec : Codec υ σ) (s : Session σ) : ℕ → ℕ → Session σ → Prop
  | start : InUnit codec s 0 0 s
  | quiet {d k : ℕ} {t u : Session σ} (h : InUnit codec s d k t) (hq : Quiet t u) : InUnit codec s d k u
  | showExisting {d k : ℕ} {t : Session σ} {surface : ℕ} {info : PictureInfo} {c : σ}
      (h : InUnit codec s d k t)
      (hjob : exec codec.nextJob t.codec = (.ok (some (.showExisting surface info)), c))
      (p : Picture) (hp : p.surface = surface) :
      InUnit codec s d (k + 1) (Session.emit codec p none { t with codec := c })
  | decode {d k : ℕ} {t u : Session σ} {job : DecodeJob} {c : σ} {current : ℕ}
      (h : InUnit codec s d k t) (hjob : exec codec.nextJob t.codec = (.ok (some (.decode job)), c))
      (hfree : (Session.freeSurfaces codec { t with codec := c }).head? = some current)
      (hfilled : Filled codec job current { t with codec := c } u) :
      InUnit codec s (d + 1) (if job.shown then k + 1 else k) u

/-- The codec hands out a decode job, and no surface is left for it. -/
def Dry (codec : Codec υ σ) (t : Session σ) : Prop :=
  ∃ job c, exec codec.nextJob t.codec = (.ok (some (.decode job)), c) ∧
    Session.freeSurfaces codec { t with codec := c } = []

def refs (codec : Codec υ σ) (c : σ) : Finset ℕ := (codec.referenced c).toFinset

def Session.heldSet (s : Session σ) : Finset ℕ := (s.values.map Picture.surface).toFinset

/-- What a unit asks for: at most `need` decode jobs, at most `shown` pictures shown before one of
them, at most `n` references at one of them; references come only from decoded pictures. -/
structure Within (codec : Codec υ σ) (s : Session σ) (n : Option ℕ) (need shown : ℕ) : Prop where
  next : ∀ {d k t job c}, InUnit codec s d k t → exec codec.nextJob t.codec = (.ok (some job), c) →
    refs codec c ⊆ refs codec t.codec
  shows : ∀ {d k t surface info c}, InUnit codec s d k t →
    exec codec.nextJob t.codec = (.ok (some (.showExisting surface info)), c) →
      surface ∈ refs codec t.codec
  fills : ∀ {d k t job c current len index planes readback c₁ c₂}, InUnit codec s d k t →
    exec codec.nextJob t.codec = (.ok (some (.decode job)), c) →
    exec (codec.build job ⟨len, index, current⟩) c = (.ok planes, c₁) →
    exec (codec.finish job current readback) c₁ = (.ok (), c₂) →
      refs codec c₂ ⊆ insert current (refs codec c)
  count : ∀ {d k t job c}, InUnit codec s d k t →
    exec codec.nextJob t.codec = (.ok (some (.decode job)), c) →
      d < need ∧ k ≤ shown ∧ ∀ m ∈ n, (refs codec c).card ≤ m

variable {codec : Codec υ σ} {device : Device υ} {s t u : Session σ} {d k : ℕ}

/-! ## Surfaces in use -/

lemma mem_heldSet {x : ℕ} : x ∈ s.heldSet ↔ ∃ p ∈ s.values, p.surface = x := by
  simp [heldSet]

lemma freeSurfaces_eq_nil :
    Session.freeSurfaces codec s = [] ↔ range s.surfaces ⊆ refs codec s.codec ∪ s.heldSet := by
  unfold freeSurfaces
  rw [List.filter_eq_nil_iff]
  constructor
  · intro h x hx
    have hused := h x (mem_range.mpr (mem_range.mp hx))
    rw [mem_union, refs, List.mem_toFinset, mem_heldSet]
    by_contra hfree
    push Not at hfree
    exact hused (decide_eq_true hfree)
  · intro h x hx hfree
    have hused := h (mem_range.mpr (mem_range.mp hx))
    rw [mem_union, refs, List.mem_toFinset, mem_heldSet] at hused
    obtain ⟨hr, hp⟩ := of_decide_eq_true hfree
    rcases hused with hused | ⟨p, hmem, hpx⟩
    · exact hr hused
    · exact hp p hmem hpx

lemma heldSet_congr (h : t.pictures = s.pictures) : t.heldSet = s.heldSet := by
  unfold heldSet values
  rw [h]

lemma emit_pictures (s : Session σ) (p : Picture) (key : Option ℤ) :
    (s.emit codec p key).pictures = s.pictures.insert s.nextId p := by
  cases key with
  | none => rfl
  | some key => rfl

lemma emit_surfaces (s : Session σ) (p : Picture) (key : Option ℤ) :
    (s.emit codec p key).surfaces = s.surfaces := by
  cases key with
  | none => rfl
  | some key => rfl

lemma emit_codec (s : Session σ) (p : Picture) (key : Option ℤ) :
    (s.emit codec p key).codec = s.codec := by
  cases key with
  | none => rfl
  | some key => rfl

lemma emit_heldSet_subset (codec : Codec υ σ) (s : Session σ) (p : Picture) (key : Option ℤ) :
    (s.emit codec p key).heldSet ⊆ insert p.surface s.heldSet := by
  intro x hx
  rw [mem_heldSet] at hx
  obtain ⟨q, hq, rfl⟩ := hx
  unfold values at hq
  rw [emit_pictures, AList.entries_insert, List.map_cons, List.mem_cons] at hq
  rw [mem_insert, mem_heldSet]
  rcases hq with rfl | hq
  · exact .inl rfl
  · exact .inr ⟨q, ((List.kerase_sublist _ _).map _).subset hq, rfl⟩

lemma emit_heldSet (p : Picture) (key : Option ℤ) (hfresh : s.nextId ∉ s.pictures) :
    (s.emit codec p key).heldSet = insert p.surface s.heldSet := by
  unfold heldSet values
  rw [emit_pictures, AList.entries_insert_of_notMem hfresh]
  simp

variable {n : Option ℕ} {need shown : ℕ}

/-- The surfaces a unit brought into use: at most one for each decoded picture, at most one held for
each shown one. -/
lemma InUnit.accounts (hw : Within codec s n need shown) (h : InUnit codec s d k t) :
    t.surfaces = s.surfaces ∧ (∃ X : Finset ℕ, X.card ≤ d ∧
        refs codec t.codec ∪ t.heldSet ⊆ refs codec s.codec ∪ s.heldSet ∪ X) ∧
      ∃ Y : Finset ℕ, Y.card ≤ k ∧ t.heldSet ⊆ s.heldSet ∪ Y := by
  induction h with
  | start => exact ⟨rfl, ⟨∅, by simp⟩, ⟨∅, by simp⟩⟩
  | quiet h hq ih =>
    rw [hq.surfaces, hq.codec, heldSet_congr hq.pictures]
    exact ih
  | @showExisting d k t surface info c h hjob p hp ih =>
    obtain ⟨hsurfaces, ⟨X, hX, hused⟩, Y, hY, hheld⟩ := ih
    have hshown : p.surface ∈ refs codec t.codec := hp ▸ hw.shows h hjob
    have hnext := hw.next h hjob
    have hemit := emit_heldSet_subset codec { t with codec := c } p none
    refine ⟨(emit_surfaces _ p none).trans hsurfaces, ⟨X, hX, ?_⟩, insert p.surface Y, ?_, ?_⟩
    · refine Finset.Subset.trans (union_subset ?_ ?_) hused
      · exact hnext.trans subset_union_left
      · refine hemit.trans (insert_subset ?_ subset_union_right)
        exact mem_union_left _ hshown
    · exact (card_insert_le _ _).trans (by omega)
    · rw [union_insert]
      exact hemit.trans (insert_subset_insert _ hheld)
  | @decode d k t u job c current h hjob hfree hfilled ih =>
    obtain ⟨hsurfaces, ⟨X, hX, hused⟩, Y, hY, hheld⟩ := ih
    have hnext := hw.next h hjob
    have hrefs : ∀ {c₂}, refs codec c₂ ⊆ insert current (refs codec c) →
        refs codec c₂ ∪ t.heldSet ⊆ refs codec s.codec ∪ s.heldSet ∪ insert current X := by
      intro c₂ hc₂
      rw [union_insert]
      refine union_subset (hc₂.trans (insert_subset_insert _ ?_)) ?_
      · exact (hnext.trans subset_union_left).trans hused
      · exact (subset_union_right.trans hused).trans (subset_insert _ _)
    have hcard : (insert current X).card ≤ d + 1 := (card_insert_le _ _).trans (by omega)
    cases hfilled with
    | hidden hbuild hfinish hshown =>
      have hfill := hw.fills h hjob hbuild hfinish
      rw [if_neg (by simp [hshown])]
      exact ⟨hsurfaces, ⟨_, hcard, hrefs hfill⟩, Y, hY, hheld⟩
    | @shown len index planes readback c₁ c₂ hbuild hfinish hshown p hp =>
      have hfill := hw.fills h hjob hbuild hfinish
      have hemit := emit_heldSet_subset codec
        (trying { t with codec := c } current c₂) p job.displayKey
      have hall := hrefs hfill
      rw [if_pos hshown]
      refine ⟨(emit_surfaces _ p _).trans hsurfaces, ⟨_, hcard, ?_⟩, insert current Y, ?_, ?_⟩
      · rw [emit_codec]
        refine union_subset (subset_union_left.trans hall) (hemit.trans ?_)
        refine insert_subset ?_ (subset_union_right.trans hall)
        rw [hp]
        exact mem_union_right _ (mem_insert_self _ _)
      · exact (card_insert_le _ _).trans (by omega)
      · rw [hp] at hemit
        rw [union_insert]
        exact hemit.trans (insert_subset_insert _ hheld)

/-- Where the pictures that the unit shows count as held, an admitted unit never runs out. -/
lemma InUnit.not_dry (hw : Within codec s n need shown)
    (hadmitted : unitAdmitted need (s.surfaces - (refs codec s.codec ∪ s.heldSet).card) n (s.heldSet.card + shown) s.surfaces = true)
    (h : InUnit codec s d k t) : ¬Dry codec t := by
  rintro ⟨job, c, hjob, hfree⟩
  obtain ⟨hneed, hshown, hbound⟩ := hw.count h hjob
  obtain ⟨hsurfaces, ⟨X, hX, hused⟩, Y, hY, hheld⟩ := h.accounts hw
  have hall : range s.surfaces ⊆ refs codec c ∪ t.heldSet :=
    hsurfaces ▸ freeSurfaces_eq_nil.mp hfree
  have htotal : s.surfaces ≤ (refs codec c ∪ t.heldSet).card := by
    simpa using card_le_card hall
  rw [unitAdmitted, Bool.or_eq_true, decide_eq_true_iff] at hadmitted
  rcases hadmitted with hfits | hfits
  · have hle : (refs codec c ∪ t.heldSet).card ≤ (refs codec s.codec ∪ s.heldSet).card + X.card := by
      refine (card_le_card ?_).trans (card_union_le _ _)
      exact (union_subset_union_left (hw.next h hjob)).trans hused
    omega
  · cases n with
    | none => cases hfits
    | some m =>
      have hm : (refs codec c).card ≤ m := hbound m rfl
      have hle : t.heldSet.card ≤ s.heldSet.card + Y.card :=
        (card_le_card hheld).trans (card_union_le _ _)
      have hunion := card_union_le (refs codec c) t.heldSet
      have hpool : m + 1 + (s.heldSet.card + shown) ≤ s.surfaces := by simpa using hfits
      omega

/-! ## Units that run out

A scripted codec decodes one picture for each flag. It drops the references that are held at the
first job, and keeps every hidden picture as a reference. -/

structure Script where
  refs : List ℕ
  dropped : List ℕ
  jobs : List Bool

def scriptJob (shown : Bool) : DecodeJob :=
  { info := default, shown, displayKey := none, bitstream := [], readback := none }

def Script.next (c : Script) (jobs : List Bool) : Script :=
  { c with refs := c.refs.filter fun x => x ∉ c.dropped, jobs }

def scriptCodec : Codec Unit Script where
  dpbSize := 0
  surfacesNeeded c _ := .ok c.jobs.length
  pushUnit _ := pure ()
  nextJob := do
    let c ← get
    match c.jobs with
    | [] => pure none
    | shown :: jobs => do
      set (c.next jobs)
      pure (some (.decode (scriptJob shown)))
  build _ _ := pure []
  finish job current _ := modify fun c => if job.shown then c else { c with refs := current :: c.refs }
  referenced := Script.refs
  flush c := c
  backlog c := c.jobs.length

section Script

variable {c c' : Script} {current : ℕ} {R H : Finset ℕ} {flags : List Bool} {total : ℕ}
  {t : Session Script}

lemma script_nextJob {job : Job} (h : exec scriptCodec.nextJob c = (.ok (some job), c')) :
    ∃ shown jobs, c.jobs = shown :: jobs ∧ job = .decode (scriptJob shown) ∧ c' = c.next jobs := by
  obtain ⟨rs, ds, jobs⟩ := c
  cases jobs with
  | nil => cases h
  | cons shown jobs =>
    cases h
    exact ⟨shown, jobs, rfl, rfl, rfl⟩

variable {shown : Bool} {jobs : List Bool} {i : ℕ}

lemma script_finish {readback : Option (List UInt8)} {result : Except VideoError Unit}
    (h : exec (scriptCodec.finish (scriptJob shown) current readback) c = (result, c')) :
    c' = if shown then c else { c with refs := current :: c.refs } := by
  cases h
  rfl

lemma script_build {job : DecodeJob} {ctx : BuildContext} {result : Except VideoError (List SurfaceRef)}
    (h : exec (scriptCodec.build job ctx) c = (result, c')) : c' = c := by
  cases h
  rfl

lemma refs_next (c : Script) (jobs : List Bool) :
    refs scriptCodec (c.next jobs) = refs scriptCodec c \ c.dropped.toFinset := by
  ext x
  simp [refs, scriptCodec, Script.next]

/-- What a scripted session is after `d` pictures: the flags left, and the references the hidden
ones of the `d` became. -/
structure Scripted (R H : Finset ℕ) (flags : List Bool) (d k : ℕ) (c : Script) : Prop where
  jobs : c.jobs = flags.drop d
  dropped : c.dropped.toFinset = H
  shown : k = (flags.take d).count true
  added : ∃ Z : Finset ℕ, Z.card ≤ (flags.take d).count false ∧ refs scriptCodec c \ H ⊆ (R \ H) ∪ Z

variable {d k x : ℕ}

lemma Scripted.fill (h : Scripted R H flags d k c) (hjobs : c.jobs = shown :: jobs)
    (hc' : c' = if shown then c.next jobs else { c.next jobs with refs := current :: 
      (c.next jobs).refs }) :
    Scripted R H flags (d + 1) (if shown then k + 1 else k) c' := by
  have hdrop : flags.drop d = shown :: jobs := h.jobs.symm.trans hjobs
  have htake : flags.take (d + 1) = flags.take d ++ [shown] := by
    have hget : flags[d]? = some shown := by
      rw [← List.head?_drop, hdrop]
      rfl
    rw [List.take_add_one, hget]
    rfl
  have hrest : flags.drop (d + 1) = jobs := by
    rw [← List.drop_drop, hdrop]
    rfl
  have hnext := refs_next c jobs
  rw [h.dropped] at hnext
  obtain ⟨Z, hZ, hadded⟩ := h.added
  cases shown with
  | true =>
    cases hc'
    refine ⟨hrest.symm, h.dropped, ?_, Z, ?_, ?_⟩
    · simp [htake, ← h.shown]
    · simpa [htake] using hZ
    · change refs scriptCodec (c.next jobs) \ H ⊆ _
      rw [hnext, Finset.sdiff_idem]
      exact hadded
  | false =>
    cases hc'
    refine ⟨hrest.symm, h.dropped, ?_, insert current Z, ?_, ?_⟩
    · simp [htake, ← h.shown]
    · rw [htake, List.count_append]
      exact (card_insert_le _ _).trans (Nat.succ_le_succ hZ)
    intro x hx
    have hmem : (x = current ∨ x ∈ refs scriptCodec (c.next jobs)) ∧ x ∉ H := by
      simpa [refs, scriptCodec] using hx
    rw [hnext] at hmem
    rw [union_insert, mem_insert]
    obtain ⟨rfl | hx, hH⟩ := hmem
    · exact .inl rfl
    · exact .inr (hadded hx)

/-- A session that decodes by the script from references `R` and held surfaces `H`. -/
noncomputable def scriptSession (R H : Finset ℕ) (flags : List Bool) (total : ℕ) : Session Script where
  codec := ⟨R.toList, H.toList, flags⟩
  surfaces := total
  ring := []
  surfaceHdr := []
  pictures := ⟨H.toList.map fun x => ⟨x, x, default, 0, 0, {}⟩, by
    rw [List.NodupKeys, List.keys, List.map_map]
    exact (List.map_id H.toList).symm ▸ H.nodup_toList⟩
  nextId := total

lemma scriptSession_refs : refs scriptCodec (scriptSession R H flags total).codec = R := by
  simp [refs, scriptCodec, scriptSession]

lemma scriptSession_heldSet : (scriptSession R H flags total).heldSet = H := by
  ext x
  simp [heldSet, values, scriptSession]

lemma InUnit.scripted (h : InUnit scriptCodec (scriptSession R H flags total) d k t) :
    Scripted R H flags d k t.codec := by
  induction h with
  | start =>
    refine ⟨rfl, by simp [scriptSession], by simp, ∅, by simp, ?_⟩
    rw [scriptSession_refs, union_empty]
  | quiet h hq ih => exact hq.codec ▸ ih
  | showExisting h hjob p hp ih =>
    obtain ⟨_, _, _, hdecode, _⟩ := script_nextJob hjob
    cases hdecode
  | decode h hjob hfree hfilled ih =>
    obtain ⟨shown, jobs, hjobs, hdecode, rfl⟩ := script_nextJob hjob
    cases hdecode
    cases hfilled with
    | hidden hbuild hfinish hshown | shown hbuild hfinish hshown p hp =>
      cases script_build hbuild
      exact ih.fill hjobs (script_finish hfinish)

/-- `shown` pictures that are shown, then `hidden` ones that are not. -/
def flagsOf (shown hidden : ℕ) : List Bool := List.replicate shown true ++ List.replicate hidden false

lemma script_within {a b need shown : ℕ} {n : Option ℕ} (hneed : a + b < need) (hshown : a ≤ shown)
    (hn : ∀ m ∈ n, (R \ H).card + b ≤ m) :
    Within scriptCodec (scriptSession R H (flagsOf a (b + 1)) total) n need shown := by
  have hnext : ∀ {d k : ℕ} {t : Session Script} {job : Job} {c : Script},
      InUnit scriptCodec (scriptSession R H (flagsOf a (b + 1)) total) d k t →
      exec scriptCodec.nextJob t.codec = (.ok (some job), c) →
        refs scriptCodec c = refs scriptCodec t.codec \ H := by
    intro d k t job c h hjob
    obtain ⟨_, jobs, _, _, rfl⟩ := script_nextJob hjob
    rw [refs_next, h.scripted.dropped]
  refine ⟨fun h hjob => ?_, fun h hjob => ?_, fun h hjob hbuild hfinish => ?_, fun {d k t job c} h hjob => ?_⟩
  · rw [hnext h hjob]
    exact sdiff_subset
  · obtain ⟨_, _, _, hdecode, _⟩ := script_nextJob hjob
    cases hdecode
  · obtain ⟨shown, jobs, _, hdecode, rfl⟩ := script_nextJob hjob
    cases hdecode
    cases script_build hbuild
    rw [script_finish hfinish]
    cases shown with
    | true => exact subset_insert _ _
    | false => simp [refs, scriptCodec]
  · have hs := h.scripted
    obtain ⟨shown', jobs, hjobs, _, _⟩ := script_nextJob hjob
    have hd : d < a + (b + 1) := by
      by_contra hd
      have hnil : (flagsOf a (b + 1)).drop d = [] := by simp [flagsOf]; omega
      rw [hs.jobs, hnil] at hjobs
      cases hjobs
    have htake : (flagsOf a (b + 1)).take d =
        List.replicate (min d a) true ++ List.replicate (min (d - a) (b + 1)) false := by
      simp [flagsOf, List.take_append]
    have htrue : k = min d a := by simpa [htake, List.count_replicate] using hs.shown
    obtain ⟨Z, hZ, hadded⟩ := hs.added
    have hfalse : Z.card ≤ min (d - a) (b + 1) := by simpa [htake, List.count_replicate] using hZ
    refine ⟨by omega, by omega, fun m hm => ?_⟩
    rw [hnext h hjob]
    have hcard := (card_le_card hadded).trans (card_union_le _ _)
    have hroom := hn m hm
    omega

lemma mem_freeSurfaces_head {σ : Type} {codec : Codec Unit σ} {s : Session σ}
    (h : ¬range s.surfaces ⊆ refs codec s.codec ∪ s.heldSet) :
    ∃ x, (Session.freeSurfaces codec s).head? = some x ∧ x < s.surfaces ∧
      x ∉ refs codec s.codec ∧ x ∉ s.heldSet := by
  cases hfree : freeSurfaces codec s with
  | nil => exact absurd (freeSurfaces_eq_nil.mp hfree) h
  | cons x rest =>
    have hmem : x ∈ Session.freeSurfaces codec s := by simp [hfree]
    rw [freeSurfaces, List.mem_filter, List.mem_range] at hmem
    obtain ⟨hr, hp⟩ := of_decide_eq_true hmem.2
    refine ⟨x, rfl, hmem.1, ?_, ?_⟩
    · simpa [refs] using hr
    · rw [mem_heldSet]
      rintro ⟨p, hmem, hpx⟩
      exact hp p hmem hpx

/-- The surfaces that are not free at the next job. -/
def used (H : Finset ℕ) (t : Session Script) : Finset ℕ := (refs scriptCodec t.codec \ H) ∪ t.heldSet

/-- The session after the next picture of the script went to surface `x`. -/
def scriptFill (t : Session Script) (x : ℕ) (jobs : List Bool) : Bool → Session Script
  | true => Session.emit scriptCodec ⟨x, default, 0, 0, {}⟩ none
      (Session.trying { t with codec := t.codec.next jobs } x (t.codec.next jobs))
  | false => Session.trying { t with codec := t.codec.next jobs } x
      { t.codec.next jobs with refs := x :: (t.codec.next jobs).refs }

lemma scriptFill_filled (t : Session Script) (x : ℕ) (jobs : List Bool) (shown : Bool) :
    Filled scriptCodec (scriptJob shown) x { t with codec := t.codec.next jobs }
      (scriptFill t x jobs shown) := by
  have hbuild : exec (scriptCodec.build (scriptJob shown) ⟨0, 0, x⟩) (t.codec.next jobs) =
      (.ok [], t.codec.next jobs) := rfl
  have hfinish : exec (scriptCodec.finish (scriptJob shown) x none) (t.codec.next jobs) =
      (.ok (), if shown then t.codec.next jobs
        else { t.codec.next jobs with refs := x :: (t.codec.next jobs).refs }) := rfl
  cases shown with
  | true => exact .shown hbuild hfinish rfl ⟨x, default, 0, 0, {}⟩ rfl
  | false => exact .hidden hbuild hfinish rfl

/-- A scripted session that brought `i` surfaces into use. -/
structure Filling (R H : Finset ℕ) (total i : ℕ) (t : Session Script) : Prop where
  held : H ⊆ t.heldSet
  surfaces : t.surfaces = total
  fresh : ∀ id ∈ t.pictures, id < t.nextId
  range : used H t ⊆ range total
  card : (used H t).card = (R ∪ H).card + i

lemma Filling.heldSet_fill (h : Filling R H total i t) :
    (scriptFill t x jobs true).heldSet = insert x t.heldSet :=
  emit_heldSet _ none fun hmem => lt_irrefl _ (h.fresh _ hmem)

lemma Filling.used_fill (h : Filling R H total i t) (hdropped : t.codec.dropped.toFinset = H)
    (hx : x ∉ H) (shown : Bool) : used H (scriptFill t x jobs shown) = insert x (used H t) := by
  have hrefs : refs scriptCodec (t.codec.next jobs) = refs scriptCodec t.codec \ H := by
    rw [refs_next, hdropped]
  cases shown with
  | true =>
    have hcodec : (scriptFill t x jobs true).codec = t.codec.next jobs := rfl
    rw [used, h.heldSet_fill, hcodec, hrefs, Finset.sdiff_idem, union_insert, used]
  | false =>
    have hheld : (scriptFill t x jobs false).heldSet = t.heldSet := rfl
    have hcodec : refs scriptCodec (scriptFill t x jobs false).codec =
        insert x (refs scriptCodec (t.codec.next jobs)) := by
      simp [refs, scriptCodec, scriptFill, trying]
    rw [used, hheld, hcodec, hrefs, insert_sdiff_of_notMem _ hx, Finset.sdiff_idem,
      insert_union, used]

lemma Filling.fill (h : Filling R H total i t) (hdropped : t.codec.dropped.toFinset = H)
    (hx : x < total) (hxH : x ∉ H) (hfree : x ∉ used H t) (shown : Bool) :
    Filling R H total (i + 1) (scriptFill t x jobs shown) := by
  have hused : used H (scriptFill t x jobs shown) = insert x (used H t) := h.used_fill hdropped hxH shown
  have hrange : used H (scriptFill t x jobs shown) ⊆ Finset.range total := by
    rw [hused]
    exact insert_subset (mem_range.mpr hx) h.range
  have hcard : (used H (scriptFill t x jobs shown)).card = (R ∪ H).card + (i + 1) := by
    rw [hused, card_insert_of_notMem hfree, h.card, Nat.add_assoc]
  cases shown with
  | true =>
    refine ⟨?_, h.surfaces, fun id hid => ?_, hrange, hcard⟩
    · rw [h.heldSet_fill]
      exact h.held.trans (subset_insert _ _)
    · rcases (AList.mem_insert _).mp hid with rfl | hid
      · exact Nat.lt_succ_self _
      · exact (h.fresh id hid).trans (Nat.lt_succ_self _)
  | false => exact { h with range := hrange, card := hcard }

lemma scriptSession_filling (hR : R ⊆ range total) (hH : H ⊆ range total) :
    Filling R H total 0 (scriptSession R H flags total) := by
  have hused : used H (scriptSession R H flags total) = R ∪ H := by
    rw [used, scriptSession_refs, scriptSession_heldSet, sdiff_union_self_eq_union]
  refine ⟨scriptSession_heldSet.ge, rfl, fun id hid => ?_, ?_, congrArg card hused⟩
  · have hmem : id ∈ H := by
      have hkeys : id ∈ (scriptSession R H flags total).pictures.keys := hid
      simpa [scriptSession, AList.keys, List.keys] using hkeys
    exact mem_range.mp (hH hmem)
  · rw [hused]
    exact union_subset hR hH

lemma script_next_eq (h : c.jobs = shown :: jobs) :
    exec scriptCodec.nextJob c = (.ok (some (.decode (scriptJob shown))), c.next jobs) := by
  obtain ⟨rs, ds, js⟩ := c
  cases h
  rfl

/-- Each picture of the script takes one more surface. -/
lemma script_run (hR : R ⊆ range total) (hH : H ⊆ range total)
    (hi : (R ∪ H).card + i ≤ total) (hflags : i ≤ flags.length) :
    ∃ k t, InUnit scriptCodec (scriptSession R H flags total) i k t ∧ Filling R H total i t := by
  induction i with
  | zero => exact ⟨0, _, .start, scriptSession_filling hR hH⟩
  | succ i ih =>
    obtain ⟨k, t, h, hfilling⟩ := ih (by omega) (by omega)
    have hs := h.scripted
    obtain ⟨shown, jobs, hjobs⟩ : ∃ shown jobs, t.codec.jobs = shown :: jobs := by
      rw [hs.jobs, List.drop_eq_getElem_cons (by omega)]
      exact ⟨_, _, rfl⟩
    have hused : refs scriptCodec (t.codec.next jobs) ∪ t.heldSet = used H t := by
      rw [refs_next, hs.dropped, used]
    have hroom : ¬range t.surfaces ⊆ refs scriptCodec (t.codec.next jobs) ∪ t.heldSet := by
      intro hall
      have hle := card_le_card hall
      rw [hused, card_range, hfilling.surfaces, hfilling.card] at hle
      omega
    obtain ⟨x, hx, hlt, hxr, hxh⟩ := mem_freeSurfaces_head
      (show ¬range { t with codec := t.codec.next jobs }.surfaces ⊆ _ from hroom)
    refine ⟨_, _, h.decode (script_next_eq hjobs) hx (scriptFill_filled t x jobs shown), ?_⟩
    refine hfilling.fill hs.dropped (hfilling.surfaces ▸ hlt) (fun hmem => hxh (hfilling.held hmem)) ?_ _
    rw [← hused, mem_union]
    exact fun hmem => hmem.elim hxr hxh

/-- A script of more pictures than free surfaces runs dry. -/
lemma script_dry (hR : R ⊆ range total) (hH : H ⊆ range total)
    (hflags : total - (R ∪ H).card < flags.length) :
    ∃ d k t, InUnit scriptCodec (scriptSession R H flags total) d k t ∧ Dry scriptCodec t := by
  have hle : (R ∪ H).card ≤ total := by
    simpa using card_le_card (union_subset hR hH)
  obtain ⟨k, t, h, hfilling⟩ := script_run hR hH
    (show (R ∪ H).card + (total - (R ∪ H).card) ≤ total by omega) hflags.le
  have hs := h.scripted
  refine ⟨_, k, t, h, ?_⟩
  obtain ⟨shown, jobs, hjobs⟩ : ∃ shown jobs, t.codec.jobs = shown :: jobs := by
    rw [hs.jobs, List.drop_eq_getElem_cons hflags]
    exact ⟨_, _, rfl⟩
  refine ⟨_, _, script_next_eq hjobs, freeSurfaces_eq_nil.mpr ?_⟩
  have hused : refs scriptCodec (t.codec.next jobs) ∪ t.heldSet = used H t := by
    rw [refs_next, hs.dropped, used]
  have hall : used H t = range total := by
    refine eq_of_subset_of_card_le hfilling.range ?_
    rw [card_range, hfilling.card]
    omega
  exact (hfilling.surfaces ▸ hall.symm.trans hused.symm).subset

end Script

/-- Frames of 64x64 in one tile. The header byte after the first names the references it refreshes;
all of them makes a key frame. -/
def plainHeaders : Av1.Headers Unit where
  start := ()
  sequence := fun _ => .ok {}
  existing := fun _ _ _ => .error (.truncated "f(n)")
  coded := fun _ _ o =>
    let refresh := (o.payload.getD 1 0).toNat
    (.ok {
      frameType := if refresh = 0xff then 0 else 1
      frameIsIntra := refresh = 0xff
      showFrame := true
      refreshFrameFlags := refresh
      frameHeight := 64
      upscaledWidth := 64
      headerBytes := 2 }, ())
  updateRefs := fun _ refs => refs
  tileGroup := fun _ payload _ => .ok (true, ⟨payload, [(0, payload.length)]⟩)

/-- A frame OBU of three bytes. -/
def plainFrame (refresh : UInt8) : List UInt8 := [0x32, 3, 0, refresh, 0]

/-- Eight frames that end up in one reference each, every one shown and released. -/
def eightReferences : List (Call (List UInt8)) :=
  [.decode (some ([0x0a, 0] ++ plainFrame 0xff)) 0 0, .nextPicture, .release 1] ++
    (List.range 7).flatMap fun i =>
      [.decode (some (plainFrame (UInt8.ofNat (2 ^ (i + 1))))) 0 0, .nextPicture, .release (i + 2)]

end NvidiaProlapse.Video
