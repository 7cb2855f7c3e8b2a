import OmniRealtime.Lib.TrailingPrefix
import OmniRealtime.Vision.FrameWindow

/-!
# The window settles in one round

What `plan_frame_window` leaves behind, for records whose rational timestamps do not
decrease.

1. `windowAfter_eq`: the frames kept are the tail of the virtual ones and the tail of the raw
   ones.
2. `agedOf_kept`, `evictedOf_kept`: on these no frame is left to fold or to evict.
3. `window_planning_converges`: so the planner is done, and the windows hold.
-/

namespace OmniRealtime

open List Option

open TrailingPrefix

section Rounds

variable {τ : Type}

/-- The records once the result of a round is applied. -/
def windowAfter (records : List (RealtimeFrameRecord τ)) :
    Option (FrameWindowPlan τ) → List (RealtimeFrameRecord τ)
  | none => records
  | some plan => plan.newRecords

def virtualsOf (records : List (RealtimeFrameRecord τ)) : List (RealtimeFrameRecord τ) :=
  records.takeWhile (·.pooled)

def rawsOf (records : List (RealtimeFrameRecord τ)) : List (RealtimeFrameRecord τ) :=
  records.dropWhile (·.pooled)

theorem virtualsOf_append_rawsOf (records : List (RealtimeFrameRecord τ)) :
    virtualsOf records ++ rawsOf records = records :=
  takeWhile_append_dropWhile

variable [Zero τ] [Sub τ] [LT τ] [DecidableLT τ]
  (records : List (RealtimeFrameRecord τ)) (config : RealtimeFrameWindowConfig τ)

def agedOf : Nat := agedRawCount (rawsOf records) config.rawWindowS

def foldedOf : List RawChunk × List (RealtimeFrameRecord τ) :=
  if config.poolingEnabled then
    poolLoop (rawsOf records) config.poolRatio (agedOf records config / config.poolRatio) 0
  else if agedOf records config = 0 then ([], [])
  else ([⟨0, agedOf records config, false⟩], [])

def poolableCount : Nat :=
  if config.poolingEnabled then agedOf records config / config.poolRatio * config.poolRatio
  else agedOf records config

/-- Every virtual frame of the round, those it produces included. -/
def windowVirtuals : List (RealtimeFrameRecord τ) :=
  virtualsOf records ++ (foldedOf records config).2

def evictedOf : Nat := expiredVirtualCount (windowVirtuals records config) config.poolWindowS

theorem planFrameWindow_eq :
    planFrameWindow records config =
      if !config.enabled || records.isEmpty then .ok none
      else if (rawsOf records).any (·.pooled) then .error .pooledNotLeading
      else if evictedOf records config = 0 ∧ (foldedOf records config).1 = [] then .ok none
      else
        .ok (some
          { evictedVirtualCount :=
              if 0 < evictedOf records config - (virtualsOf records).length then
                (virtualsOf records).length
              else evictedOf records config
            rawChunks :=
              expireProduced (evictedOf records config - (virtualsOf records).length)
                (foldedOf records config).1
            newRecords :=
              (windowVirtuals records config).drop (evictedOf records config) ++
                (rawsOf records).drop (poolableCount records config) }) :=
  rfl

theorem foldedOf_spec :
    chunkTotal (foldedOf records config).1 = poolableCount records config ∧
      Produces (rawsOf records) (foldedOf records config).1 (foldedOf records config).2 := by
  have h := folded_spec (rawsOf records) config (agedRawCount_le (rawsOf records) config.rawWindowS)
  exact ⟨h.2.1, h.2.2.2⟩

theorem poolableCount_le : poolableCount records config ≤ agedOf records config := by
  unfold poolableCount
  split
  · exact Nat.div_mul_le_self _ _
  · exact le_rfl

theorem windowVirtuals_pooled : ∀ v ∈ windowVirtuals records config, v.pooled = true := by
  intro v hv
  rw [windowVirtuals, mem_append] at hv
  cases hv with
  | inl hold => exact mem_takeWhile_imp hold
  | inr hnew => exact (foldedOf_spec records config).2.pooled v hnew

variable {records config}

/-- A round that is not refused keeps the tail of the virtual frames and the tail of the raw
    frames. -/
theorem windowAfter_eq {result : Option (FrameWindowPlan τ)} (henabled : config.enabled = true)
    (h : planFrameWindow records config = .ok result) :
    windowAfter records result = (windowVirtuals records config).drop (evictedOf records config) ++
          (rawsOf records).drop (poolableCount records config) ∧
      ∀ r ∈ rawsOf records, r.pooled = false := by
  rw [planFrameWindow_eq] at h
  split at h
  · next hemp =>
    cases h
    have hnil : records = [] := by simpa [henabled] using hemp
    subst hnil
    have haged : agedOf [] config = 0 := rfl
    refine ⟨?_, nofun⟩
    have hfolded : foldedOf [] config = ([], []) := by
      simp [foldedOf, haged, poolLoop]
    simp [windowAfter, windowVirtuals, virtualsOf, rawsOf, hfolded]
  · split at h
    · cases h
    · next hany =>
      have hraw : ∀ r ∈ rawsOf records, r.pooled = false := by
        intro r hr
        simpa using fun hp => hany (List.any_eq_true.2 ⟨r, hr, hp⟩)
      split at h
      · next hnone =>
        cases h
        obtain ⟨htot, hprod⟩ := foldedOf_spec records config
        rw [hnone.2] at htot hprod
        have hnil : (foldedOf records config).2 = [] := forall₂_nil_left_iff.1 hprod
        refine ⟨?_, hraw⟩
        rw [hnone.1, ← htot, windowVirtuals, hnil]
        simp [windowAfter, virtualsOf, rawsOf]
      · cases h
        exact ⟨rfl, hraw⟩

end Rounds

/-! ## Frames in the order of time -/

section Sorted

/-- Timestamps that do not decrease. -/
def InOrder (frames : List (RealtimeFrameRecord ℚ)) : Prop :=
  frames.Pairwise fun a b => a.timestamp ≤ b.timestamp

instance (frames : List (RealtimeFrameRecord ℚ)) : Decidable (InOrder frames) :=
  inferInstanceAs (Decidable (List.Pairwise _ _))

variable {records raws virtuals : List (RealtimeFrameRecord ℚ)}
  {config : RealtimeFrameWindowConfig ℚ}

/-- Behind the frames a trim counts none trails the newest by more than the window. -/
theorem InOrder.within (h : InOrder raws) (newest window : ℚ) {r : RealtimeFrameRecord ℚ}
    (hr : r ∈ raws.drop (trailingCount newest window raws)) : newest - r.timestamp ≤ window := by
  have hpair : raws.Pairwise fun a b =>
      decide (window < newest - b.timestamp) = true →
        decide (window < newest - a.timestamp) = true := by
    refine List.Pairwise.imp ?_ h
    intro a b hab hb
    rw [decide_eq_true_eq] at hb ⊢
    linarith
  have hfalse := not_of_mem_drop hpair hr
  rw [decide_eq_false_iff_not] at hfalse
  exact le_of_not_gt hfalse

theorem timestamp_foldGroup {members : List (RealtimeFrameRecord ℚ)} {v : RealtimeFrameRecord ℚ}
    (h : foldGroup members = some v) : ∃ last ∈ members, v.timestamp = last.timestamp := by
  cases members with
  | nil => cases h
  | cons first rest =>
    rw [foldGroup] at h
    split at h
    · cases h
      exact ⟨_, getLast_mem (cons_ne_nil first rest), rfl⟩
    · cases h

/-- The frames folded from frames in order are in order, and each bears the time of a frame
    of its group. -/
theorem inOrder_poolLoop (ratio : Nat) (h : InOrder raws) (groups cursor : Nat) :
    InOrder (poolLoop raws ratio groups cursor).2 ∧ ∀ v ∈ (poolLoop raws ratio groups cursor).2,
        ∃ r ∈ raws.drop cursor, v.timestamp = r.timestamp := by
  induction groups generalizing cursor with
  | zero => exact ⟨List.Pairwise.nil, nofun⟩
  | succ n ih =>
    unfold poolLoop
    have hprefix : (raws.drop cursor).take ratio <+: raws.drop cursor := take_prefix _ _
    generalize hmembers : (raws.drop cursor).take ratio = members at hprefix ⊢
    have hspl : members ++ raws.drop (cursor + members.length) = raws.drop cursor := by
      rw [← drop_drop]
      exact prefix_iff_eq_append.1 hprefix
    obtain ⟨hrest, hlater⟩ := ih (cursor + members.length)
    have hmem : ∀ v ∈ (poolLoop raws ratio n (cursor + members.length)).2,
        ∃ r ∈ raws.drop cursor, v.timestamp = r.timestamp := by
      intro v hv
      obtain ⟨r, hr, heq⟩ := hlater v hv
      exact ⟨r, hspl ▸ mem_append_right members hr, heq⟩
    dsimp only
    split
    · next record hfold =>
      obtain ⟨last, hlast, hstamp⟩ := timestamp_foldGroup hfold
      refine ⟨List.Pairwise.cons ?_ hrest, ?_⟩
      · -- a later group holds later frames only
        intro v hv
        obtain ⟨r, hr, heq⟩ := hlater v hv
        have hpair : InOrder (members ++ raws.drop (cursor + members.length)) := by
          rw [hspl]
          exact List.Pairwise.sublist (drop_sublist _ _) h
        rw [hstamp, heq]
        exact (pairwise_append.1 hpair).2.2 last hlast r hr
      · intro v hv
        cases hv with
        | head => exact ⟨last, hspl ▸ mem_append_left _ hlast, hstamp⟩
        | tail _ hv => exact hmem v hv
    · exact ⟨hrest, hmem⟩

theorem InOrder.folded (config : RealtimeFrameWindowConfig ℚ) (h : InOrder (rawsOf records)) :
    InOrder (foldedOf records config).2 ∧
      ∀ v ∈ (foldedOf records config).2, ∃ r ∈ rawsOf records, v.timestamp = r.timestamp := by
  have hnone : InOrder [] ∧ ∀ v ∈ ([] : List (RealtimeFrameRecord ℚ)),
      ∃ r ∈ rawsOf records, v.timestamp = r.timestamp :=
    ⟨List.Pairwise.nil, nofun⟩
  unfold foldedOf
  split
  · obtain ⟨hpair, hmem⟩ := inOrder_poolLoop config.poolRatio h
      (agedOf records config / config.poolRatio) 0
    exact ⟨hpair, by simpa using hmem⟩
  · split
    · exact hnone
    · exact hnone

/-- Existing virtual frames, then those the round folds: all in order. -/
theorem InOrder.windowVirtuals (h : InOrder records) : InOrder (windowVirtuals records config) := by
  rw [InOrder, ← virtualsOf_append_rawsOf records, pairwise_append] at h
  obtain ⟨hvirtuals, hraws, hbef⟩ := h
  obtain ⟨hfolded, hmem⟩ := InOrder.folded config hraws
  refine pairwise_append.2 ⟨hvirtuals, hfolded, ?_⟩
  intro a ha b hb
  obtain ⟨r, hr, heq⟩ := hmem b hb
  rw [heq]
  exact hbef a ha r hr

end Sorted

/-! ## The frames kept -/

section Kept

variable {records raws virtuals : List (RealtimeFrameRecord ℚ)}
  {config : RealtimeFrameWindowConfig ℚ} {newest : RealtimeFrameRecord ℚ} {window : ℚ}

theorem agedRawCount_eq (h : raws.getLast? = some newest) :
    agedRawCount raws window = trailingCount newest.timestamp window raws := by
  simp only [agedRawCount, h]

theorem expiredVirtualCount_eq (h : virtuals.getLast? = some newest) :
    expiredVirtualCount virtuals window =
      trailingCount newest.timestamp window virtuals.dropLast := by
  simp only [expiredVirtualCount, h]

theorem agedRawCount_drop (hw : 0 < window) {k : Nat} (hk : k ≤ agedRawCount raws window) :
    agedRawCount (raws.drop k) window = agedRawCount raws window - k := by
  cases hlast : raws.getLast? with
  | none =>
    have hnil : raws = [] := getLast?_eq_none_iff.1 hlast
    simp [hnil, agedRawCount]
  | some newest =>
    rw [agedRawCount_eq hlast] at hk ⊢
    -- the newest frame does not trail itself
    have hlt : trailingCount newest.timestamp window raws < raws.length := by
      refine length_takeWhile_lt (mem_of_getLast? hlast) ?_
      rw [sub_self, decide_eq_false_iff_not]
      exact not_lt_of_gt hw
    have hdrop : (raws.drop k).getLast? = some newest := by
      rw [getLast?_drop, if_neg (Nat.not_le_of_lt (lt_of_le_of_lt hk hlt)), hlast]
    rw [agedRawCount_eq hdrop]
    exact length_takeWhile_drop hk

theorem getLast?_drop_expired (h : virtuals.getLast? = some newest) :
    (virtuals.drop (expiredVirtualCount virtuals window)).getLast? = some newest := by
  have hpos : 0 < virtuals.length := length_pos_of_mem (mem_of_getLast? h)
  have hlt : expiredVirtualCount virtuals window < virtuals.length :=
    lt_of_le_of_lt (expiredVirtualCount_le virtuals window) (Nat.sub_lt hpos one_pos)
  rw [getLast?_drop, if_neg (Nat.not_le_of_lt hlt), h]

theorem expiredVirtualCount_drop (virtuals : List (RealtimeFrameRecord ℚ)) (window : ℚ) :
    expiredVirtualCount (virtuals.drop (expiredVirtualCount virtuals window)) window = 0 := by
  cases hlast : virtuals.getLast? with
  | none =>
    have hnil : virtuals = [] := getLast?_eq_none_iff.1 hlast
    simp [hnil, expiredVirtualCount]
  | some newest =>
    rw [expiredVirtualCount_eq (getLast?_drop_expired hlast), expiredVirtualCount_eq hlast,
      dropLast_drop_eq_drop_dropLast]
    have hrest := length_takeWhile_drop (le_refl (trailingCount newest.timestamp window
      virtuals.dropLast))
    exact hrest.trans (Nat.sub_self _)

/-- What is left of the virtual frames lies in the window of the newest. -/
theorem InOrder.within_pool (h : InOrder virtuals) (hw : 0 < window)
    {kept : List (RealtimeFrameRecord ℚ)}
    (hkept : kept = virtuals.drop (expiredVirtualCount virtuals window))
    (hlast : kept.getLast? = some newest) {v : RealtimeFrameRecord ℚ} (hv : v ∈ kept) :
    newest.timestamp - v.timestamp ≤ window := by
  subst hkept
  have hnewest : virtuals.getLast? = some newest := by
    rw [getLast?_drop] at hlast
    split at hlast
    · cases hlast
    · exact hlast
  obtain ⟨front, rfl⟩ := getLast?_eq_some_iff.1 hnewest
  rw [expiredVirtualCount_eq hnewest, dropLast_concat] at hv
  rw [drop_append_of_le_length (trailingCount_le _ _ _), mem_append, mem_singleton] at hv
  cases hv with
  | inl hfront => exact InOrder.within (pairwise_append.1 h).1 _ _ hfront
  | inr heq =>
    rw [heq, sub_self]
    exact hw.le

/-! ### A second round -/

variable (hkept : ∀ r ∈ rawsOf records, r.pooled = false)

/-- The records after a round. -/
def keptRecords (records : List (RealtimeFrameRecord ℚ)) (config : RealtimeFrameWindowConfig ℚ) :
    List (RealtimeFrameRecord ℚ) :=
  (windowVirtuals records config).drop (evictedOf records config) ++
    (rawsOf records).drop (poolableCount records config)

include hkept in
theorem virtualsOf_kept :
    virtualsOf (keptRecords records config) =
      (windowVirtuals records config).drop (evictedOf records config) :=
  takeWhile_append_run (fun v hv => windowVirtuals_pooled records config v (mem_of_mem_drop hv))
    (fun r hr => hkept r (mem_of_mem_drop hr))

include hkept in
theorem rawsOf_kept :
    rawsOf (keptRecords records config) = (rawsOf records).drop (poolableCount records config) :=
  dropWhile_append_run (fun v hv => windowVirtuals_pooled records config v (mem_of_mem_drop hv))
    (fun r hr => hkept r (mem_of_mem_drop hr))

include hkept in
theorem agedOf_kept :
    agedOf (keptRecords records config) config =
      agedOf records config - poolableCount records config := by
  rw [agedOf, rawsOf_kept hkept]
  exact agedRawCount_drop config.rawWindow_pos (poolableCount_le records config)

/-- The frames that wait for their group are too few to fill one. -/
theorem waiting_lt (records : List (RealtimeFrameRecord ℚ)) (config : RealtimeFrameWindowConfig ℚ) :
    agedOf records config - poolableCount records config < config.poolRatio ∧
      (config.poolingEnabled = false →
        agedOf records config - poolableCount records config = 0) := by
  have hratio : 0 < config.poolRatio := lt_of_lt_of_le (by decide) config.two_le_poolRatio
  unfold poolableCount
  cases hpool : config.poolingEnabled with
  | true =>
    rw [if_pos rfl, ← Nat.mod_eq_sub_div_mul]
    exact ⟨Nat.mod_lt _ hratio, fun h => absurd h (by decide)⟩
  | false =>
    rw [if_neg (by decide), Nat.sub_self]
    exact ⟨hratio, fun _ => rfl⟩

include hkept in
theorem foldedOf_kept : foldedOf (keptRecords records config) config = ([], []) := by
  obtain ⟨hlt, hzero⟩ := waiting_lt records config
  unfold foldedOf
  rw [agedOf_kept hkept, Nat.div_eq_of_lt hlt]
  cases hpool : config.poolingEnabled with
  | true => rfl
  | false => simp [hzero hpool]

include hkept in
theorem windowVirtuals_kept :
    windowVirtuals (keptRecords records config) config =
      (windowVirtuals records config).drop (evictedOf records config) := by
  rw [windowVirtuals, virtualsOf_kept hkept, foldedOf_kept hkept, append_nil]

include hkept in
theorem evictedOf_kept : evictedOf (keptRecords records config) config = 0 := by
  rw [evictedOf, windowVirtuals_kept hkept]
  exact expiredVirtualCount_drop _ _

include hkept in
theorem planFrameWindow_kept : planFrameWindow (keptRecords records config) config = .ok none := by
  rw [planFrameWindow_eq, evictedOf_kept hkept, foldedOf_kept hkept, rawsOf_kept hkept]
  split
  · rfl
  · rw [if_neg, if_pos ⟨rfl, rfl⟩]
    intro hany
    obtain ⟨r, hr, hpooled⟩ := List.any_eq_true.1 hany
    rw [hkept r (mem_of_mem_drop hr)] at hpooled
    cases hpooled

end Kept

/-! ## Convergence -/

/-- A round leaves nothing for the next. The raw frames kept, some leading ones too few for a
    group apart, lie in the raw window of the newest frame, and the virtual ones in the pool
    window of the newest of them; if the round had a virtual frame, one is kept. -/
theorem window_planning_converges {records : List (RealtimeFrameRecord ℚ)}
    {config : RealtimeFrameWindowConfig ℚ} {result : Option (FrameWindowPlan ℚ)}
    (hsorted : InOrder records) (h : planFrameWindow records config = .ok result) :
    planFrameWindow (windowAfter records result) config = .ok none ∧
      (config.enabled = true →
        (∃ waiting < config.poolRatio, (config.poolingEnabled = false → waiting = 0) ∧
          ∀ newest ∈ records.getLast?,
            ∀ r ∈ (rawsOf (windowAfter records result)).drop waiting,
              newest.timestamp - r.timestamp ≤ config.rawWindowS) ∧
        (∀ newest ∈ (virtualsOf (windowAfter records result)).getLast?,
          ∀ v ∈ virtualsOf (windowAfter records result),
            newest.timestamp - v.timestamp ≤ config.poolWindowS) ∧
        (windowVirtuals records config ≠ [] → virtualsOf (windowAfter records result) ≠ [])) := by
  cases henabled : config.enabled with
  | false =>
    have hoff : ∀ rs : List (RealtimeFrameRecord ℚ), planFrameWindow rs config = .ok none := by
      intro rs
      simp [planFrameWindow_eq, henabled]
    exact ⟨hoff _, fun h => absurd h (by decide)⟩
  | true =>
    obtain ⟨hafter, hkept⟩ := windowAfter_eq henabled h
    change windowAfter records result = keptRecords records config at hafter
    rw [hafter, virtualsOf_kept hkept, rawsOf_kept hkept]
    have hvirtuals : InOrder (windowVirtuals records config) := hsorted.windowVirtuals
    refine ⟨planFrameWindow_kept hkept, fun _ => ⟨?_, ?_, ?_⟩⟩
    · obtain ⟨hlt, hzero⟩ := waiting_lt records config
      refine ⟨_, hlt, hzero, fun newest hnewest r hr => ?_⟩
      rw [drop_drop, Nat.add_sub_of_le (poolableCount_le records config)] at hr
      have hraws : InOrder (rawsOf records) :=
        List.Pairwise.sublist (dropWhile_sublist _) hsorted
      have hlast : (rawsOf records).getLast? = some newest := by
        have hne : rawsOf records ≠ [] := ne_nil_of_mem (mem_of_mem_drop hr)
        rw [← virtualsOf_append_rawsOf records, getLast?_append_of_ne_nil _ hne] at hnewest
        exact hnewest
      rw [agedOf, agedRawCount_eq hlast] at hr
      exact hraws.within _ _ hr
    · intro newest hnewest v hv
      exact hvirtuals.within_pool config.poolWindow_pos rfl hnewest hv
    · intro hne
      obtain ⟨newest, hlast⟩ := ne_none_iff_exists'.1 (mt getLast?_eq_none_iff.1 hne)
      exact ne_nil_of_mem (mem_of_getLast? (getLast?_drop_expired hlast))

/-- Five raw frames age behind a virtual one: two groups fold, the older virtual frames expire
    and one frame waits. -/
theorem window_planning_converges_two_groups :
    planFrameWindow (τ := ℚ)
        (⟨10, 1, 1, 2, true, 2⟩ ::
          [11, 12, 13, 14, 15, 90].map fun t => ⟨t, 1, 1, 2, false, 1⟩)
        ⟨true, 60, 1, 2, true, by decide, by decide, by decide⟩ =
      .ok (some
        { evictedVirtualCount := 1
          rawChunks := [⟨0, 2, false⟩, ⟨2, 2, true⟩]
          newRecords := ⟨14, 1, 1, 2, true, 2⟩ :: [15, 90].map fun t => ⟨t, 1, 1, 2, false, 1⟩ }) ∧
    planFrameWindow (τ := ℚ)
        (⟨14, 1, 1, 2, true, 2⟩ :: [15, 90].map fun t => ⟨t, 1, 1, 2, false, 1⟩)
        ⟨true, 60, 1, 2, true, by decide, by decide, by decide⟩ = .ok none :=
  have hplan : _ = Except.ok (some _) := by decide +kernel
  ⟨hplan, (window_planning_converges (by decide +kernel) hplan).1⟩

end OmniRealtime
