import OmniRealtime.Lib.SpanCount
import OmniRealtime.Vision.FrameWindow

/-!
# Spans of a plan and the visible-count remap

`covered_spans` and `visible_count_remap` of `frame_window.py`: the old rows behind each
surviving record, and the table from an old visible-frame count to the new one.

1. `coveredSpans_of_fits`: a plan covers the old records, one ordered span a new record.
2. `visibleCountRemap_of_ordered`: the table counts the spans met.
-/

namespace OmniRealtime

open SpanCount

section Spans

variable {τ : Type} {virtuals raws : List (RealtimeFrameRecord τ)} {plan : FrameWindowPlan τ}

def chunkSpans : Nat → List RawChunk → List (Nat × Nat)
  | _, [] => []
  | cursor, c :: cs =>
    if c.poolable then (cursor, cursor + c.count) :: chunkSpans (cursor + c.count) cs
    else chunkSpans (cursor + c.count) cs

def coveredSpans (records : List (RealtimeFrameRecord τ)) (plan : FrameWindowPlan τ) :
    Except WindowError (List (Nat × Nat)) :=
  let keptVirtual := oldVirtualCount records - plan.evictedVirtualCount
  let rawStart := plan.evictedVirtualCount + keptVirtual
  let keptStart := rawStart + chunkTotal plan.rawChunks
  let keptRaw := plan.newRecords.countP (!·.pooled)
  let spans :=
    units plan.evictedVirtualCount keptVirtual ++ chunkSpans rawStart plan.rawChunks ++
      units keptStart keptRaw
  if keptStart + keptRaw ≠ records.length then .error .notCovered
  else if spans.length ≠ plan.newRecords.length then .error .spansDisagree
  else .ok spans

theorem ordered_chunkSpans (cursor : Nat) {chunks : List RawChunk} {start : Nat}
    (h : ChunksFrom start chunks) :
    Ordered cursor (chunkSpans cursor chunks) (cursor + chunkTotal chunks) := by
  induction chunks generalizing cursor start with
  | nil => exact le_rfl
  | cons c cs ih =>
    obtain ⟨-, hcnt, hrest⟩ := h
    have hcs := ih (cursor + c.count) hrest
    rw [chunkTotal_cons, ← add_assoc]
    unfold chunkSpans
    split
    · exact ⟨le_rfl, Nat.lt_add_of_pos_right hcnt, hcs⟩
    · exact hcs.of_le (Nat.le_add_right _ _)

@[simp]
theorem length_chunkSpans (cursor : Nat) (chunks : List RawChunk) :
    (chunkSpans cursor chunks).length = (chunks.filter (·.poolable)).length := by
  induction chunks generalizing cursor with
  | nil => rfl
  | cons c cs ih =>
    unfold chunkSpans
    cases hc : c.poolable <;> simp [hc, ih]

/-- The spans of a plan: one for each old virtual frame it keeps, one for each group it folds,
    one for each raw frame it keeps. -/
theorem coveredSpans_eq_of_fits (h : PlanFits virtuals raws plan) :
    coveredSpans (virtuals ++ raws) plan =
      .ok (units plan.evictedVirtualCount (virtuals.length - plan.evictedVirtualCount) ++
        chunkSpans virtuals.length plan.rawChunks ++
        units (virtuals.length + chunkTotal plan.rawChunks)
          (raws.length - chunkTotal plan.rawChunks)) := by
  obtain ⟨produced, hprod, hnew⟩ := h.new_records
  have hold := oldVirtualCount_append h.virtuals_pooled h.raws_raw
  have hev := h.evicted_le
  have haged := h.aged_le
  have hkept : plan.newRecords.countP (!·.pooled) = raws.length - chunkTotal plan.rawChunks := by
    rw [hnew]
    exact h.countP_raw hprod
  have hsrt : plan.evictedVirtualCount + (virtuals.length - plan.evictedVirtualCount) =
      virtuals.length := by
    omega
  have hlen : (chunkSpans virtuals.length plan.rawChunks).length = produced.length := by
    rw [length_chunkSpans]
    exact hprod.length_eq
  unfold coveredSpans
  simp only [hold, hkept, hsrt]
  rw [if_neg, if_neg]
  · simp only [hnew, List.length_append, length_units, hlen, List.length_drop]
    omega
  · rw [List.length_append]
    omega

theorem coveredSpans_of_fits (h : PlanFits virtuals raws plan) :
    ∃ spans, coveredSpans (virtuals ++ raws) plan = .ok spans ∧
      Ordered 0 spans (virtuals ++ raws).length ∧ spans.length = plan.newRecords.length := by
  obtain ⟨produced, hprod, hnew⟩ := h.new_records
  have hev := h.evicted_le
  have haged := h.aged_le
  refine ⟨_, coveredSpans_eq_of_fits h, ?_, ?_⟩
  · have hkeptVirtual := ordered_units plan.evictedVirtualCount
      (virtuals.length - plan.evictedVirtualCount)
    have hchs := ordered_chunkSpans virtuals.length h.chunks_from
    have hkeptRaw := ordered_units (virtuals.length + chunkTotal plan.rawChunks)
      (raws.length - chunkTotal plan.rawChunks)
    rw [Nat.add_sub_of_le hev] at hkeptVirtual
    rw [add_assoc, Nat.add_sub_of_le haged, ← List.length_append] at hkeptRaw
    exact ((hkeptVirtual.append hchs).append hkeptRaw).of_le (Nat.zero_le _)
  · have hlen : (plan.rawChunks.filter (·.poolable)).length = produced.length := hprod.length_eq
    simp only [hnew, List.length_append, length_units, length_chunkSpans, hlen, List.length_drop]

/-! ## The remap -/

/-- `table[c] = value` for every `c` from `lo` up to `hi`. -/
def assignRange (table : List Nat) (lo hi value : Nat) : Except WindowError (List Nat) :=
  if lo < hi ∧ table.length < hi then .error .indexOutOfRange
  else .ok (table.mapIdx fun c old => if lo ≤ c ∧ c < hi then value else old)

/-- The loop of `visible_count_remap` over the spans. -/
def remapLoop (rows : Nat) : Nat → Nat → List (Nat × Nat) → List Nat →
    Except WindowError (List Nat)
  | cursor, produced, [], table => assignRange table cursor (rows + 1) produced
  | cursor, produced, s :: spans, table =>
    if s.1 < cursor ∨ s.2 ≤ s.1 then .error .spansUnordered
    else do
      let table ← assignRange table cursor (s.1 + 1) produced
      let table ← assignRange table (s.1 + 1) (s.2 + 1) (produced + 1)
      remapLoop rows s.2 (produced + 1) spans table

def visibleCountRemap (rows : Nat) (spans : List (Nat × Nat)) : Except WindowError (List Nat) :=
  remapLoop rows 0 0 spans (List.replicate (rows + 1) 0)

theorem assignRange_ok (table : List Nat) (lo value : Nat) {hi : Nat} (h : hi ≤ table.length) :
    ∃ table', assignRange table lo hi value = .ok table' ∧ table'.length = table.length ∧
      ∀ c, table'.getD c 0 = if c < table.length ∧ lo ≤ c ∧ c < hi then value
        else table.getD c 0 := by
  refine ⟨_, if_neg (by omega), by simp, fun c => ?_⟩
  rw [List.getD_eq_getElem?_getD, List.getD_eq_getElem?_getD, List.getElem?_mapIdx]
  by_cases hc : c < table.length
  · simp [hc]
  · simp [hc]

/-- Over ordered spans the loop leaves what is below the cursor and counts the spans met
    from there on. -/
theorem remapLoop_of_ordered {rows : Nat} {spans : List (Nat × Nat)} :
    ∀ {cursor : Nat} (produced : Nat) {table : List Nat}, Ordered cursor spans rows →
      table.length = rows + 1 →
      ∃ table', remapLoop rows cursor produced spans table = .ok table' ∧ table'.length = rows + 1 ∧
        ∀ c ≤ rows, table'.getD c 0 =
          if c < cursor then table.getD c 0 else produced + met spans c := by
  induction spans with
  | nil =>
    intro cursor produced table _ hlen
    obtain ⟨table', hok, hlen', hget⟩ :=
      assignRange_ok table cursor produced (le_of_eq hlen.symm)
    refine ⟨table', hok, hlen'.trans hlen, fun c hc => ?_⟩
    rw [hget, met_nil, add_zero]
    split <;> split <;> first | rfl | omega
  | cons s rest ih =>
    intro cursor produced table hord hlen
    obtain ⟨hcursor, hspan, hrest⟩ := hord
    have hend : s.2 ≤ rows := hrest.le
    obtain ⟨t₁, hok₁, hlen₁, hget₁⟩ :=
      assignRange_ok table cursor produced (by omega : s.1 + 1 ≤ table.length)
    obtain ⟨t₂, hok₂, hlen₂, hget₂⟩ :=
      assignRange_ok t₁ (s.1 + 1) (produced + 1) (by omega : s.2 + 1 ≤ t₁.length)
    obtain ⟨t₃, hok₃, hlen₃, hget₃⟩ :=
      ih (produced + 1) hrest (hlen₂.trans (hlen₁.trans hlen))
    refine ⟨t₃, ?_, hlen₃, fun c hc => ?_⟩
    · rw [remapLoop, if_neg (by omega), hok₁]
      show (assignRange t₁ (s.1 + 1) (s.2 + 1) (produced + 1) >>= _) = _
      rw [hok₂]
      exact hok₃
    · rw [hget₃ c hc, hget₂, hget₁]
      by_cases hlt : s.1 < c
      · rw [met_cons_of_lt hlt, if_neg (c := c < cursor) (by omega)]
        by_cases hin : c < s.2
        · -- inside the span nothing later is met yet
          rw [if_pos hin, if_pos (by omega), hrest.met_of_le_lo (by omega)]
        · rw [if_neg hin]
          omega
      · rw [met_cons_of_le (by omega), if_pos (by omega), if_neg (by omega),
          hrest.met_of_le_lo (by omega)]
        by_cases hbelow : c < cursor
        · rw [if_neg (by omega), if_pos hbelow]
        · rw [if_pos (by omega), if_neg hbelow, add_zero]

/-- Over ordered spans no remap is refused, and it sends a count to the number of spans that
    start below it. -/
theorem visibleCountRemap_of_ordered {rows : Nat} {spans : List (Nat × Nat)}
    (h : Ordered 0 spans rows) :
    ∃ table, visibleCountRemap rows spans = .ok table ∧ table.length = rows + 1 ∧
      ∀ c ≤ rows, table.getD c 0 = met spans c := by
  obtain ⟨table, hok, hlen, hget⟩ :=
    remapLoop_of_ordered 0 h (List.length_replicate (a := 0) (n := rows + 1))
  refine ⟨table, hok, hlen, fun c hc => ?_⟩
  rw [hget c hc, if_neg (Nat.not_lt_zero _), zero_add]

end Spans

end OmniRealtime
