import NvidiaProlapse.H264Codec
import NvidiaProlapse.SessionSteps

/-!
# Picture ids

Ids wait in the display queue or in the reorder list, and the pictures are stored by id.
A release takes the id out of the display queue and the picture out of the store; it does
not look into the reorder list.
-/
namespace NvidiaProlapse.Video.Session

open Programs Runs List

variable {υ σ : Type} {codec : Codec υ σ} {device : Device υ} {s t : Session σ}

/-- The ids that wait for output. -/
def ids (s : Session σ) : List ℕ := s.display ++ s.reorder.map Prod.snd

/-- Every id that waits is the key of a picture, and no id waits twice. -/
structure Consistent (s : Session σ) : Prop where
  known : ∀ id ∈ s.ids, id ∈ s.pictures
  nodup : s.ids.Nodup

/-- Ids are given out in order and wait once. -/
structure Numbered (s : Session σ) : Prop where
  below : ∀ id ∈ s.ids, id < s.nextId
  nodup : s.ids.Nodup

/-! ## Steps of a decode call -/

/-- The same ids wait and the same pictures are stored. -/
structure SameBooks (s t : Session σ) : Prop where
  ids : t.ids.Perm s.ids
  pictures : t.pictures = s.pictures
  nextId : t.nextId = s.nextId

/-- A new id waits for a new picture. -/
structure Issued (s t : Session σ) : Prop where
  ids : t.ids.Perm (s.ids ++ [s.nextId])
  pictures : ∃ p, t.pictures = s.pictures.insert s.nextId p
  nextId : t.nextId = s.nextId + 1

lemma bump_ids (ready : ℕ → Bool) (waiting : List (ℤ × ℕ)) :
    (bump ready waiting).1 ++ (bump ready waiting).2.map Prod.snd = waiting.map Prod.snd := by
  induction waiting with
  | nil => rfl
  | cons first rest ih =>
    by_cases h : ready (rest.length + 1) = true
    · simp [bump, h, ih]
    · simp [bump, h]

lemma emit_ids (p : Picture) (key : Option ℤ) (s : Session σ) :
    (s.emit codec p key).ids.Perm (s.ids ++ [s.nextId]) := by
  cases key with
  | none =>
    show (s.display ++ [s.nextId] ++ s.reorder.map Prod.snd).Perm _
    rw [ids, append_assoc, append_assoc]
    exact perm_append_comm.append_left s.display
  | some key =>
    show (s.display ++ (bump _ _).1 ++ (bump _ _).2.map Prod.snd).Perm _
    rw [append_assoc, bump_ids, ids, append_assoc]
    refine List.Perm.append_left s.display ?_
    simpa using (perm_insertionSort KeyLe (s.reorder ++ [(key, s.nextId)])).map Prod.snd

lemma SameBooks.issued (h : SameBooks s t) (p : Picture) (key : Option ℤ) :
    Issued s (t.emit codec p key) := by
  refine ⟨?_, ⟨p, ?_⟩, ?_⟩
  · rw [← h.nextId]
    exact (emit_ids p key t).trans (h.ids.append_right _)
  · rw [← h.pictures, ← h.nextId]
    cases key <;> rfl
  · rw [← h.nextId]
    cases key <;> rfl

lemma sameBooks_drain : SameBooks s s.drain := by
  refine ⟨?_, rfl, rfl⟩
  show (s.display ++ (s.reorder.insertionSort KeyLe).map Prod.snd ++ []).Perm _
  rw [append_nil]
  exact ((perm_insertionSort KeyLe s.reorder).map Prod.snd).append_left s.display

lemma step_books (h : Step codec s t) : SameBooks s t ∨ Issued s t := by
  cases h with
  | quiet h =>
    refine .inl ⟨?_, h.pictures, h.nextId⟩
    rw [ids, h.display, h.reorder, ids]
  | push data | advance => exact .inl ⟨List.Perm.refl _, rfl, rfl⟩
  | showExisting hjob p hp =>
    refine .inr (SameBooks.issued ?_ p none)
    exact ⟨List.Perm.refl _, rfl, rfl⟩
  | decode hjob hfree h =>
    cases h with
    | stopped hc => exact .inl ⟨List.Perm.refl _, rfl, rfl⟩
    | shown hc p hp hshown =>
      refine .inr (SameBooks.issued ?_ p _)
      exact ⟨List.Perm.refl _, rfl, rfl⟩
  | drain => exact .inl sameBooks_drain

lemma step_numbered (h : Step codec s t) (hs : Numbered s) : Numbered t := by
  rcases step_books h with h | h
  · refine ⟨?_, h.ids.nodup_iff.mpr hs.nodup⟩
    intro id hid
    rw [h.nextId]
    exact hs.below id (h.ids.mem_iff.mp hid)
  · have hfresh : s.nextId ∉ s.ids := fun hmem => lt_irrefl _ (hs.below _ hmem)
    refine ⟨?_, h.ids.nodup_iff.mpr ?_⟩
    · intro id hid
      rw [h.nextId]
      rcases mem_append.mp (h.ids.mem_iff.mp hid) with hid | hid
      · exact Nat.lt_succ_of_lt (hs.below id hid)
      · rw [mem_singleton.mp hid]
        exact Nat.lt_succ_self _
    · rw [nodup_append_comm, singleton_append, nodup_cons]
      exact ⟨hfresh, hs.nodup⟩

lemma step_known (h : Step codec s t) (hs : ∀ id ∈ s.ids, id ∈ s.pictures) :
    ∀ id ∈ t.ids, id ∈ t.pictures := by
  intro id hid
  rcases step_books h with h | h
  · rw [h.pictures]
    exact hs id (h.ids.mem_iff.mp hid)
  obtain ⟨p, hp⟩ := h.pictures
  rw [hp, AList.mem_insert]
  rcases mem_append.mp (h.ids.mem_iff.mp hid) with hid | hid
  · exact .inr (hs id hid)
  · exact .inl (mem_singleton.mp hid)

/-! ## Calls -/

/-- The call does not release a picture that still waits for its turn. -/
def Patient (s : Session σ) : Call υ → Prop
  | .release id => id ∉ s.reorder.map Prod.snd
  | _ => True

lemma exec_release (id : ℕ) (s : Session σ) :
    (exec (release id) s).2 =
      { s with display := s.display.filter (· ≠ id), pictures := s.pictures.erase id } := by
  unfold release
  by_cases h : id ∈ s.pictures
  all_goals simp [exec_bind, h]

/-- The map index finds its picture. -/
lemma nextPicture_isSome (hs : ∀ id ∈ s.ids, id ∈ s.pictures) : s.nextPicture.isSome := by
  unfold nextPicture
  cases hd : s.display with
  | nil => rfl
  | cons id display =>
    have hid : id ∈ s.pictures := hs id (by simp [ids, hd])
    simpa using AList.lookup_isSome.mpr hid

lemma nextPicture_state (h : s.nextPicture.map Prod.snd = some t) :
    t = { s with display := s.display.tail } := by
  unfold nextPicture at h
  cases hd : s.display with
  | nil =>
    rw [hd] at h
    cases h
    rw [tail_nil, ← hd]
  | cons id display =>
    simp only [hd, Option.map_map, Option.map_eq_some_iff] at h
    obtain ⟨p, -, rfl⟩ := h
    rfl

lemma tail_ids_sublist (s : Session σ) : ({ s with display := s.display.tail } : Session σ).ids.Sublist s.ids :=
  (tail_sublist s.display).append_right _

lemma release_ids_sublist (id : ℕ) (s : Session σ) : (exec (release id) s).2.ids.Sublist s.ids := by
  rw [exec_release]
  exact filter_sublist.append_right _

lemma perform_numbered {call : Call υ} (hs : Numbered s)
    (h : perform codec device s call = some t) : Numbered t := by
  cases call with
  | decode data timestamp flags =>
    cases h
    exact decode_invariant (fun _ _ => step_numbered) hs data timestamp flags
  | nextPicture =>
    obtain rfl := nextPicture_state h
    have hsub := tail_ids_sublist s
    exact ⟨fun id hid => hs.below id (hsub.subset hid), hs.nodup.sublist hsub⟩
  | release id =>
    cases h
    have hsub := release_ids_sublist id s
    refine ⟨?_, hs.nodup.sublist hsub⟩
    intro id' hid
    rw [exec_release]
    exact hs.below id' (hsub.subset hid)
  | pictureHdr id =>
    cases h
    exact hs
  | flush =>
    cases h
    exact ⟨by simp [flush, ids], by simp [flush, ids]⟩

lemma release_known_iff (hs : ∀ id ∈ s.ids, id ∈ s.pictures) (id : ℕ) :
    (∀ id' ∈ (exec (release id) s).2.ids, id' ∈ (exec (release id) s).2.pictures) ↔
      id ∉ s.reorder.map Prod.snd := by
  rw [exec_release]
  simp only [ids, AList.mem_erase]
  constructor
  · intro h hid
    exact (h id (mem_append_right _ hid)).1 rfl
  intro h id' hid'
  rcases mem_append.mp hid' with hid' | hid'
  · obtain ⟨hmem, hne⟩ := mem_filter.mp hid'
    exact ⟨by simpa using hne, hs id' (mem_append_left _ hmem)⟩
  · exact ⟨fun heq => h (heq ▸ hid'), hs id' (mem_append_right _ hid')⟩

/-- From a consistent state a call neither panics nor breaks the books, unless it releases a
picture that still waits for its turn. -/
lemma perform_known_iff (hs : ∀ id ∈ s.ids, id ∈ s.pictures) (call : Call υ) :
    (∃ t, perform codec device s call = some t ∧ ∀ id ∈ t.ids, id ∈ t.pictures) ↔
      Patient s call := by
  cases call with
  | decode data timestamp flags =>
    refine iff_of_true ⟨_, rfl, ?_⟩ trivial
    exact decode_invariant (fun _ _ => step_known) hs data timestamp flags
  | nextPicture =>
    obtain ⟨⟨picture, t⟩, ht⟩ := Option.isSome_iff_exists.mp (nextPicture_isSome hs)
    have hperform : s.nextPicture.map Prod.snd = some t := by rw [ht, Option.map_some]
    obtain rfl := nextPicture_state hperform
    exact iff_of_true ⟨_, hperform, fun id hid => hs id ((tail_ids_sublist s).subset hid)⟩ trivial
  | release id =>
    rw [Patient, ← release_known_iff hs]
    constructor
    · rintro ⟨_, ⟨⟩, h⟩
      exact h
    · exact fun h => ⟨_, rfl, h⟩
  | pictureHdr id => exact iff_of_true ⟨s, rfl, hs⟩ trivial
  | flush => exact iff_of_true ⟨_, rfl, by simp [flush, ids]⟩ trivial

lemma numbered_create (state : σ) (extra : ℕ) : Numbered (create codec state extra) :=
  ⟨by simp [create, ids], by simp [create, ids]⟩

/-- Along a run the books stay consistent and no call panics exactly as long as nobody
releases a picture that still waits for its turn. -/
theorem display_consistent_iff (codec : Codec υ σ) (device : Device υ) (state : σ) (extra : ℕ)
    (calls : List (Call υ)) :
    (∀ before after, calls = before ++ after →
      ∃ t, run (perform codec device) (create codec state extra) before = some t ∧ Consistent t) ↔
      Along (perform codec device) Patient (create codec state extra) calls := by
  rw [← always_iff_along (fun _ _ _ => perform_numbered) (fun s call _ hs => perform_known_iff hs call)
    (numbered_create state extra) (by simp [create, ids])]
  constructor
  · intro h before after heq
    obtain ⟨t, hrun, ht⟩ := h before after heq
    exact ⟨t, hrun, ht.known⟩
  intro h before after heq
  obtain ⟨t, hrun, ht⟩ := h before after heq
  refine ⟨t, hrun, ht, ?_⟩
  exact (run_invariant (fun _ _ _ => perform_numbered) (numbered_create state extra) hrun).nodup

/-- An IDR picture is decoded and waits. It is released before its turn, then the stream ends. -/
def earlyRelease : List (Call H264.AccessUnit) :=
  let idr : H264.SliceHeader := { idr := true, nalRefIdc := 1, frameNum := 0 }
  [.decode (some (H264.Decoder.parameterSets ++ [H264.Decoder.smallSlice idr])) 0 0, .release 1,
    .decode none 0 1]

theorem nextPicture_panics_after_early_release :
    let start := create H264.codec (H264.fresh true (64, 64)) 0
    let perform := perform H264.codec (workingDevice H264.AccessUnit)
    (run perform start earlyRelease).map (fun s => (s.display, s.values.length)) = some ([1], 0) ∧
      (run perform start (earlyRelease ++ [.nextPicture])).isNone := by
  decide +kernel

variable {id : ℕ} {picture : ℕ × ℕ × PictureInfo}

/-- The id was given out and does not wait. -/
def Gone (id : ℕ) (s : Session σ) : Prop := id < s.nextId ∧ id ∉ s.ids

lemma step_gone (h : Step codec s t) (hs : Gone id s) : Gone id t := by
  rcases step_books h with h | h
  · exact ⟨h.nextId ▸ hs.1, fun hid => hs.2 (h.ids.mem_iff.mp hid)⟩
  refine ⟨h.nextId ▸ Nat.lt_succ_of_lt hs.1, fun hid => ?_⟩
  rcases mem_append.mp (h.ids.mem_iff.mp hid) with hid | hid
  · exact hs.2 hid
  · exact hs.1.ne (mem_singleton.mp hid)

lemma perform_gone {call : Call υ} (hs : Gone id s)
    (h : perform codec device s call = some t) : Gone id t := by
  cases call with
  | decode data timestamp flags =>
    cases h
    exact decode_invariant (fun _ _ => step_gone) hs data timestamp flags
  | nextPicture =>
    obtain rfl := nextPicture_state h
    exact ⟨hs.1, fun hid => hs.2 ((tail_ids_sublist s).subset hid)⟩
  | release other =>
    cases h
    refine ⟨?_, fun hid => hs.2 ((release_ids_sublist other s).subset hid)⟩
    rw [exec_release]
    exact hs.1
  | pictureHdr id =>
    cases h
    exact hs
  | flush =>
    cases h
    exact ⟨hs.1, by simp [flush, ids]⟩

lemma nextPicture_display (h : s.nextPicture = some (some picture, t)) :
    s.display = picture.1 :: t.display := by
  unfold nextPicture at h
  split at h
  · cases h
  · next hd =>
    obtain ⟨p, -, hp⟩ := Option.map_eq_some_iff.mp h
    cases hp
    exact hd

/-- Whatever the caller does, a picture that was returned is not returned again. -/
theorem returned_once {state : σ} {extra : ℕ} {before after : List (Call υ)} {u : Session σ}
    (hrun : run (perform codec device) (create codec state extra) before = some s)
    (hnext : s.nextPicture = some (some picture, t))
    (hlater : run (perform codec device) t after = some u) :
    ∀ later v, u.nextPicture = some (some later, v) → later.1 ≠ picture.1 := by
  have hs := run_invariant (fun _ _ _ => perform_numbered) (numbered_create state extra) hrun
  have hstate : t = { s with display := s.display.tail } :=
    nextPicture_state (congrArg (Option.map Prod.snd) hnext)
  have hids : s.ids = picture.1 :: t.ids := by
    rw [ids, nextPicture_display hnext, ids]
    rw [hstate]
    rfl
  have hgone : Gone picture.1 t :=
    ⟨hstate ▸ hs.below _ (by simp [hids]), (nodup_cons.mp (hids ▸ hs.nodup)).1⟩
  have hu := run_invariant (fun _ _ _ => perform_gone) hgone hlater
  intro later v hagain heq
  exact hu.2 (heq ▸ by simp [ids, nextPicture_display hagain])

/-- The picture of `earlyRelease`, not released. -/
theorem returned_once_idr :
    let perform := perform H264.codec (workingDevice H264.AccessUnit)
    ∃ s t picture, nextPicture s = some (some picture, t) ∧ ∀ after u, run perform t after = some u →
      ∀ later v, u.nextPicture = some (some later, v) → later.1 ≠ picture.1 := by
  intro perform
  have h : (run perform (create H264.codec (H264.fresh true (64, 64)) 0) (earlyRelease.eraseIdx 1)).map
      (fun s => (s.nextPicture.bind Prod.fst).isSome) = some true := by decide +kernel
  obtain ⟨s, hrun, hview⟩ := exists_run_of_view h
  obtain ⟨picture, hp⟩ := Option.isSome_iff_exists.mp hview
  obtain ⟨⟨_, t⟩, hnext, rfl⟩ := Option.bind_eq_some_iff.mp hp
  exact ⟨s, t, picture, hnext, fun _ _ => returned_once hrun hnext⟩

end NvidiaProlapse.Video.Session
