import OmniRealtime.Vision.WindowSpans

/-!
# The visible-count remap over a session

Which old frames stand behind each frame that a plan keeps, and what the remaps of a session
make together.

1. `covers_of_fits`, `spanned_iff_of_fits`: the spans of a plan bear its new records, and the
   frames in no span are those it drops.
2. `Session.remap`: over any rounds and arrivals the composed remap is that of the composed
   spans.
-/

namespace OmniRealtime

open List Option

open SpanCount

section Covers

variable {τ : Type} {virtuals raws records : List (RealtimeFrameRecord τ)}
  {plan : FrameWindowPlan τ}

/-- The record a span bears: the one record it covers, or what its records fold into. -/
def Covers (records : List (RealtimeFrameRecord τ)) (s : Nat × Nat)
    (r : RealtimeFrameRecord τ) : Prop :=
  (s.2 = s.1 + 1 ∧ records[s.1]? = some r) ∨
    foldGroup ((records.drop s.1).take (s.2 - s.1)) = some r

/-- The row lies in the chunk, with the raw frames from row `offset` on. -/
def RawChunk.Holds (offset : Nat) (c : RawChunk) (row : Nat) : Prop :=
  offset + c.start ≤ row ∧ row < offset + c.start + c.count

/-- The old rows a plan drops: evicted virtual frames and chunks that are not pooled. -/
def Dropped (virtualCount : Nat) (plan : FrameWindowPlan τ) (row : Nat) : Prop :=
  row < plan.evictedVirtualCount ∨
    ∃ c ∈ plan.rawChunks, c.poolable = false ∧ c.Holds virtualCount row

/-- Some span covers the row. -/
def Spanned (spans : List (Nat × Nat)) (row : Nat) : Prop := ∃ s ∈ spans, s.1 ≤ row ∧ row < s.2

theorem covers_units (records : List (RealtimeFrameRecord τ)) (cursor count : Nat)
    (h : cursor + count ≤ records.length) :
    List.Forall₂ (Covers records) (units cursor count) ((records.drop cursor).take count) := by
  induction count generalizing cursor with
  | zero => simp [units]
  | succ n ih =>
    have hlt : cursor < records.length := by omega
    have hr := ih (cursor + 1) (by omega)
    rw [drop_eq_getElem_cons hlt, take_succ_cons]
    exact List.Forall₂.cons (Or.inl ⟨rfl, getElem?_eq_getElem hlt⟩) hr

theorem covers_chunks {chunks : List RawChunk} {produced : List (RealtimeFrameRecord τ)}
    {start : Nat} (hfrom : ChunksFrom start chunks) (hprod : Produces raws chunks produced) :
    List.Forall₂ (Covers (virtuals ++ raws)) (chunkSpans (virtuals.length + start) chunks)
      produced := by
  unfold Produces at hprod
  induction chunks generalizing start produced with
  | nil =>
    have hnil : produced = [] := forall₂_nil_left_iff.1 hprod
    rw [hnil]
    exact List.Forall₂.nil
  | cons c cs ih =>
    obtain ⟨hsrt, -, hr⟩ := hfrom
    unfold chunkSpans
    rw [add_assoc]
    cases hc : c.poolable with
    | true =>
      rw [filter_cons_of_pos hc] at hprod
      cases hprod with
      | cons hfold htail =>
        refine List.Forall₂.cons (Or.inr ?_) (ih hr htail)
        have hdrop : (virtuals ++ raws).drop (virtuals.length + start) = raws.drop c.start := by
          rw [hsrt, drop_append, drop_of_length_le (Nat.le_add_right _ _),
            nil_append, Nat.add_sub_cancel_left]
        dsimp only
        rwa [hdrop, ← add_assoc, Nat.add_sub_cancel_left]
    | false =>
      rw [filter_cons_of_neg (by simp [hc])] at hprod
      exact ih hr hprod

theorem covers_of_fits (h : PlanFits virtuals raws plan) {spans : List (Nat × Nat)}
    (hspans : coveredSpans (virtuals ++ raws) plan = .ok spans) :
    List.Forall₂ (Covers (virtuals ++ raws)) spans plan.newRecords := by
  obtain ⟨produced, hprod, hnew⟩ := h.new_records
  have hev := h.evicted_le
  have haged := h.aged_le
  rw [coveredSpans_eq_of_fits h] at hspans
  cases hspans
  rw [hnew]
  have hlen : (virtuals ++ raws).length = virtuals.length + raws.length := length_append
  have hkeptVirtual := covers_units (virtuals ++ raws) plan.evictedVirtualCount
    (virtuals.length - plan.evictedVirtualCount) (by omega)
  have hkeptRaw := covers_units (virtuals ++ raws) (virtuals.length + chunkTotal plan.rawChunks)
    (raws.length - chunkTotal plan.rawChunks) (by omega)
  rw [drop_append_of_le_length hev, take_left' length_drop] at hkeptVirtual
  rw [drop_append, drop_of_length_le (Nat.le_add_right _ _), nil_append,
    Nat.add_sub_cancel_left, take_of_length_le (by rw [length_drop])] at hkeptRaw
  exact rel_append (rel_append hkeptVirtual (covers_chunks h.chunks_from hprod)) hkeptRaw

/-! ### The rows in no span -/

theorem spanned_chunkSpans_iff {chunks : List RawChunk} {start offset row : Nat}
    (hfrom : ChunksFrom start chunks) (hlo : offset + start ≤ row)
    (hhi : row < offset + start + chunkTotal chunks) :
    Spanned (chunkSpans (offset + start) chunks) row ↔
      ¬∃ c ∈ chunks, c.poolable = false ∧ c.Holds offset row := by
  induction chunks generalizing start with
  | nil => exact absurd (lt_of_le_of_lt hlo hhi) (lt_irrefl _)
  | cons head rest ih =>
    obtain ⟨hsrt, hcnt, hr⟩ := hfrom
    rw [chunkTotal_cons] at hhi
    have hlater := hr.bounds
    have hspans := (ordered_iff.1 (ordered_chunkSpans (offset + (start + head.count)) hr)).2.1
    unfold chunkSpans
    rw [add_assoc offset start]
    by_cases hin : row < offset + start + head.count
    · -- the row is in the first chunk and in no later one
      have hnone : ¬Spanned (chunkSpans (offset + (start + head.count)) rest) row := by
        rintro ⟨s, hs, hle, -⟩
        have := (hspans s hs).1
        omega
      have hnot : ∀ c ∈ rest, ¬c.Holds offset row := by
        rintro c hc ⟨hle, -⟩
        have := (hlater c hc).1
        omega
      have hhead : head.Holds offset row := ⟨by omega, by omega⟩
      cases hp : head.poolable with
      | true =>
        refine iff_of_true ⟨_, mem_cons_self .., hlo, by dsimp only; omega⟩ ?_
        rintro ⟨c, hc, hcp, hholds⟩
        cases hc with
        | head => rw [hp] at hcp; cases hcp
        | tail _ hc => exact hnot c hc hholds
      | false =>
        exact iff_of_false hnone fun h => h ⟨head, mem_cons_self .., hp, hhead⟩
    · have hnot : ¬head.Holds offset row := by
        rintro ⟨-, hlt⟩
        omega
      have htail := ih hr (by omega) (by omega)
      have hcut : (∃ c ∈ head :: rest, c.poolable = false ∧ c.Holds offset row) ↔
          ∃ c ∈ rest, c.poolable = false ∧ c.Holds offset row := by
        simp [hnot]
      rw [hcut, ← htail]
      cases hp : head.poolable with
      | true =>
        constructor
        · rintro ⟨s, hs, hle, hlt⟩
          cases hs with
          | head => exact absurd hlt (by dsimp only; omega)
          | tail _ hs => exact ⟨s, hs, hle, hlt⟩
        · rintro ⟨s, hs, h⟩
          exact ⟨s, mem_cons_of_mem _ hs, h⟩
      | false => exact Iff.rfl

theorem spanned_append {spans spans' : List (Nat × Nat)} {row : Nat} :
    Spanned (spans ++ spans') row ↔ Spanned spans row ∨ Spanned spans' row := by
  simp only [Spanned, mem_append, or_and_right, exists_or]

theorem spanned_units {cursor count row : Nat} :
    Spanned (units cursor count) row ↔ cursor ≤ row ∧ row < cursor + count := by
  induction count generalizing cursor with
  | zero => simp [units, Spanned]
  | succ n ih =>
    have hcons : Spanned (units cursor (n + 1)) row ↔
        (cursor ≤ row ∧ row < cursor + 1) ∨ Spanned (units (cursor + 1) n) row := by
      simp [units, Spanned]
    rw [hcons, ih]
    omega

/-- The rows in no span are the ones the plan drops. -/
theorem spanned_iff_of_fits (h : PlanFits virtuals raws plan) {spans : List (Nat × Nat)}
    (hspans : coveredSpans (virtuals ++ raws) plan = .ok spans) {row : Nat}
    (hrow : row < (virtuals ++ raws).length) :
    Spanned spans row ↔ ¬Dropped virtuals.length plan row := by
  have hev := h.evicted_le
  have haged := h.aged_le
  rw [coveredSpans_eq_of_fits h] at hspans
  cases hspans
  rw [length_append] at hrow
  rw [spanned_append, spanned_append, spanned_units, spanned_units]
  have hspans := (ordered_iff.1 (ordered_chunkSpans virtuals.length h.chunks_from)).2.1
  have hout : row < virtuals.length ∨ virtuals.length + chunkTotal plan.rawChunks ≤ row →
      ¬Spanned (chunkSpans virtuals.length plan.rawChunks) row ∧
        ¬∃ c ∈ plan.rawChunks, c.poolable = false ∧ c.Holds virtuals.length row := by
    intro hrow
    constructor
    · rintro ⟨s, hs, hlo, hhi⟩
      have := hspans s hs
      omega
    · rintro ⟨c, hc, -, hlo, hhi⟩
      have := h.chunks_from.bounds c hc
      omega
  unfold Dropped
  rcases lt_or_ge row virtuals.length with hvirtual | hraw
  · obtain ⟨hspan, hchk⟩ := hout (Or.inl hvirtual)
    simp only [hspan, hchk, or_false]
    omega
  · rcases lt_or_ge row (virtuals.length + chunkTotal plan.rawChunks) with haged | hkept
    · have hchk : Spanned (chunkSpans virtuals.length plan.rawChunks) row ↔
          ¬∃ c ∈ plan.rawChunks, c.poolable = false ∧ c.Holds virtuals.length row :=
        spanned_chunkSpans_iff h.chunks_from hraw haged
      rw [hchk, not_or]
      constructor
      · rintro ((hkept | hchk) | hkept)
        · omega
        · exact ⟨by omega, hchk⟩
        · omega
      · rintro ⟨-, hchk⟩
        exact Or.inl (Or.inr hchk)
    · obtain ⟨hspan, hchk⟩ := hout (Or.inr hkept)
      simp only [hspan, hchk, or_false]
      omega

end Covers

/-! ## Over a session -/

section Session

variable {τ : Type} [Zero τ] [Sub τ] [LT τ] [DecidableLT τ]

/-- The plans of a round: the planner's, or the one without pooling in its place. -/
def RoundPlan (records : List (RealtimeFrameRecord τ)) (config : RealtimeFrameWindowConfig τ)
    (plan : FrameWindowPlan τ) : Prop :=
  ∃ planned, planFrameWindow records config = .ok (some planned) ∧
    (plan = planned ∨ plan = degradedPlan records planned)

theorem RoundPlan.fits {records : List (RealtimeFrameRecord τ)}
    {config : RealtimeFrameWindowConfig τ} {plan : FrameWindowPlan τ}
    (h : RoundPlan records config plan) :
    PlanFits (records.takeWhile (·.pooled)) (records.dropWhile (·.pooled)) plan := by
  obtain ⟨planned, hplanned, rfl | rfl⟩ := h
  · exact (planFrameWindow_fits hplanned).1
  · have hfits := (planFrameWindow_fits hplanned).1.degraded
    rwa [takeWhile_append_dropWhile] at hfits

/-- The rounds and arrivals of a session so far: the frames it holds, for each the span of all
    the frames that arrived, and the remaps of the rounds one after the other. -/
inductive Session (config : RealtimeFrameWindowConfig τ) :
    List (RealtimeFrameRecord τ) → Nat → List (Nat × Nat) → List Nat → Prop
  | start : Session config [] 0 [] [0]
  | arrive {records total spans table} (frames : List (RealtimeFrameRecord τ)) :
    Session config records total spans table →
      Session config (records ++ frames) (total + frames.length)
        (spans ++ units total frames.length)
        (table ++ List.range' (records.length + 1) frames.length)
  | round {records total spans table plan inner remap} :
    Session config records total spans table →
    RoundPlan records config plan →
    coveredSpans records plan = .ok inner →
    visibleCountRemap records.length inner = .ok remap →
      Session config plan.newRecords total (compose spans inner)
        (table.map fun count => remap.getD count 0)

theorem getD_range' (start count i : Nat) :
    (List.range' start count).getD i 0 = if i < count then start + i else 0 := by
  rw [getD_eq_getElem?_getD]
  split
  · next h => rw [getElem?_range' h, one_mul, getD_some]
  · next h => simp [Nat.le_of_not_lt h]

variable {records : List (RealtimeFrameRecord τ)} {config : RealtimeFrameWindowConfig τ}
  {total : Nat} {spans : List (Nat × Nat)} {table : List Nat}

/-- At any moment of a session the spans are ordered, one a frame, and the composed remap
    counts those met. -/
theorem Session.spans_met (h : Session config records total spans table) :
    Ordered 0 spans total ∧ spans.length = records.length ∧ table.length = total + 1 ∧
      ∀ c ≤ total, table.getD c 0 = met spans c := by
  induction h with
  | start =>
    refine ⟨le_rfl, rfl, rfl, fun c hc => ?_⟩
    obtain rfl : c = 0 := Nat.le_zero.1 hc
    rfl
  | @arrive records total spans table frames _ ih =>
    obtain ⟨hord, hlen, htable, hmet⟩ := ih
    refine ⟨hord.append (ordered_units _ _), ?_, ?_, fun c hc => ?_⟩
    · rw [length_append, length_append, length_units, hlen]
    · rw [length_append, length_range', htable]
      omega
    · rw [met_append, met_units]
      rcases lt_or_ge c (total + 1) with hold | hnew
      · rw [getD_append _ _ _ _ (by rwa [htable]), hmet c (Nat.le_of_lt_succ hold)]
        omega
      · rw [getD_append_right _ _ _ _ (by rwa [htable]), htable, getD_range',
          hord.met_of_hi_le (Nat.le_of_succ_le hnew), hlen]
        rw [if_pos (by omega)]
        omega
  | @round records total spans table plan inner remap _ hplan hinner hremap ih =>
    obtain ⟨hord, hlen, htable, hmet⟩ := ih
    have hfits := hplan.fits
    obtain ⟨inner', hok, hordInner, hlenInner⟩ := coveredSpans_of_fits hfits
    rw [takeWhile_append_dropWhile] at hok hordInner
    obtain rfl : inner' = inner := by
      rw [hinner] at hok
      cases hok
      rfl
    obtain ⟨remap', hokRemap, -, hmetInner⟩ := visibleCountRemap_of_ordered hordInner
    obtain rfl : remap' = remap := by
      rw [hremap] at hokRemap
      cases hokRemap
      rfl
    rw [← hlen] at hordInner hmetInner
    refine ⟨hord.compose hordInner, ?_, by rw [length_map, htable], fun c hc => ?_⟩
    · rw [compose, length_map, hlenInner]
    · have hlt : c < table.length := by rw [htable]; exact Nat.lt_succ_of_le hc
      rw [met_compose hord hordInner, getD_eq_getElem?_getD, getElem?_map,
        getElem?_eq_getElem hlt, map_some, getD_some,
        ← getD_eq_getElem table 0 hlt, hmet c hc]
      exact hmetInner _ (met_le_length _ _)

theorem Session.remap (h : Session config records total spans table) :
    visibleCountRemap total spans = .ok table := by
  obtain ⟨hord, -, htable, hmet⟩ := h.spans_met
  obtain ⟨table', hok, hlen, hmet'⟩ := visibleCountRemap_of_ordered hord
  rw [hok]
  refine congrArg _ (ext_getElem (hlen.trans htable.symm) fun c hc hc' => ?_)
  rw [← getD_eq_getElem _ 0 hc, ← getD_eq_getElem _ 0 hc']
  rw [hlen] at hc
  rw [hmet c (Nat.le_of_lt_succ hc), hmet' c (Nat.le_of_lt_succ hc)]

/-- How many spans meet the first `c` rows. -/
def seen (spans : List (Nat × Nat)) (c : Nat) : Nat :=
  spans.countP fun s => decide (∃ row < c, s.1 ≤ row ∧ row < s.2)

theorem met_eq_seen {lo hi : Nat} (h : Ordered lo spans hi) (c : Nat) :
    met spans c = seen spans c := by
  refine countP_congr fun s hs => ?_
  have hspan := ((ordered_iff.1 h).2.1 s hs).2.1
  simp only [decide_eq_true_eq]
  exact ⟨fun hlt => ⟨s.1, hlt, le_rfl, hspan⟩,
    fun ⟨row, hrow, hle, _⟩ => lt_of_le_of_lt hle hrow⟩

end Session

/-- The spans of a plan are ordered, bear its new records one by one and leave out the rows it
    drops; no remap is refused, and it sends a count to that of the spans met. Over a session
    the remaps compose to the remap of the composed spans. -/
theorem visibility_remap_exact {τ : Type} [Zero τ] [Sub τ] [LT τ] [DecidableLT τ]
    (config : RealtimeFrameWindowConfig τ) :
    (∀ records plan, RoundPlan records config plan →
      ∃ spans table, coveredSpans records plan = .ok spans ∧
        visibleCountRemap records.length spans = .ok table ∧
        Ordered 0 spans records.length ∧
        List.Forall₂ (Covers records) spans plan.newRecords ∧
        (∀ row < records.length,
          Spanned spans row ↔ ¬Dropped (oldVirtualCount records) plan row) ∧
        table.length = records.length + 1 ∧
        (∀ c ≤ records.length, table.getD c 0 = seen spans c) ∧
        ∀ c d, c ≤ d → d ≤ records.length → table.getD c 0 ≤ table.getD d 0) ∧
    ∀ records total spans table, Session config records total spans table →
      spans.length = records.length ∧ visibleCountRemap total spans = .ok table := by
  refine ⟨fun records plan h => ?_, fun _ _ _ _ h => ⟨h.spans_met.2.1, h.remap⟩⟩
  have hfits := h.fits
  have hrecords := takeWhile_append_dropWhile (p := (·.pooled)) (l := records)
  have hvirtual : oldVirtualCount records = (records.takeWhile (·.pooled)).length := by
    rw [← oldVirtualCount_append hfits.virtuals_pooled hfits.raws_raw, hrecords]
  obtain ⟨spans, hspans, hord, -⟩ := coveredSpans_of_fits hfits
  have hcovers := covers_of_fits hfits hspans
  have hdropped : ∀ row < (records.takeWhile (·.pooled) ++ records.dropWhile (·.pooled)).length,
      Spanned spans row ↔ ¬Dropped (records.takeWhile (·.pooled)).length plan row :=
    fun row hrow => spanned_iff_of_fits hfits hspans hrow
  rw [hrecords] at hspans hord hcovers hdropped
  obtain ⟨table, htable, hlen, hmet⟩ := visibleCountRemap_of_ordered hord
  refine ⟨spans, table, hspans, htable, hord, hcovers, ?_, hlen, fun c hc => ?_,
    fun c d hcd hd => ?_⟩
  · intro row hrow
    rw [hvirtual]
    exact hdropped row hrow
  · rw [hmet c hc, met_eq_seen hord]
  · rw [hmet c (hcd.trans hd), hmet d hd]
    exact met_mono spans hcd

/-- Of three frames the first has aged; the composed remap sends a view of two to one of one. -/
theorem visibility_remap_exact_drop :
    visibleCountRemap 3 [(1, 2), (2, 3)] = .ok [0, 0, 1, 2] := by
  let config : RealtimeFrameWindowConfig Int :=
    ⟨true, 60, 240, 4, false, by decide, by decide, by decide⟩
  let frames : List (RealtimeFrameRecord Int) :=
    [⟨0, 1, 1, 2, false, 1⟩, ⟨50, 1, 1, 2, false, 1⟩, ⟨90, 1, 1, 2, false, 1⟩]
  let plan : FrameWindowPlan Int := ⟨0, [⟨0, 1, false⟩], frames.drop 1⟩
  have hplan : RoundPlan frames config plan := ⟨plan, by decide, Or.inl rfl⟩
  have harrived : Session config frames 3 [(0, 1), (1, 2), (2, 3)] [0, 1, 2, 3] :=
    Session.start.arrive frames
  have hinner : coveredSpans frames plan = .ok [(1, 2), (2, 3)] := by decide
  have hremap : visibleCountRemap frames.length [(1, 2), (2, 3)] = .ok [0, 0, 1, 2] := by decide
  have hround := harrived.round hplan hinner hremap
  exact ((visibility_remap_exact config).2 _ _ _ _ hround).2

end OmniRealtime
