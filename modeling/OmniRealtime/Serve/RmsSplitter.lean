import Mathlib

/-!
# Splitting long audio

`serve/transcription_chunking.py`: `RMSSplitter`. A waveform that is longer than a chunk is cut at
the quietest window ahead of each boundary.

Samples and energies are of any type. Energies are compared by any relation.

1. `findSplitPoint_mem`: a cut lies behind the start of its search, and not behind the boundary.
2. `split_partitions`: the spans are a partition, and no span is longer than a chunk.
-/

namespace OmniRealtime

universe u v

namespace RmsSplitter

/-! ## The splitter -/

/-- `RMSSplitter`, with its search window in samples and the energy of a window. -/
structure Splitter (α : Type u) (E : Type v) where
  searchSamples : Nat
  energyWindowSamples : Nat
  energyWindowSamples_pos : 0 < energyWindowSamples
  energy : List α → E
  less : E → E → Bool

/-- A half-open range of samples. -/
abbrev Span : Type := Nat × Nat

section Split

variable {α : Type u} {E : Type v} (splitter : Splitter α E)

/-- The least energy so far, with its index, and those from an index on. -/
def argminFrom (index : Nat) (least : E) (next : Nat) : List E → Nat
  | [] => index
  | e :: es =>
    if splitter.less e least then argminFrom next e (next + 1) es
    else argminFrom index least (next + 1) es

/-- `argmin`: the first of the least energies. -/
def argmin : List E → Nat
  | [] => 0
  | e :: es => argminFrom splitter 0 e 1 es

def windows (region : List α) : List (List α) :=
  (List.range (region.length / splitter.energyWindowSamples)).map fun i =>
    (region.drop (i * splitter.energyWindowSamples)).take splitter.energyWindowSamples

def findSplitPoint (waveform : List α) (searchStart searchEnd : Nat) : Nat :=
  let region := (waveform.take searchEnd).drop searchStart
  let window := splitter.energyWindowSamples
  if region.length / window < 1 then searchEnd
  else
    let quietest := argmin splitter ((windows splitter region).map splitter.energy)
    searchStart + quietest * window + window / 2

variable (waveform : List α) (chunkSamples : Nat) (minTail : Int)

/-- The cut of the chunk that starts here: the split point, or ahead of it where the tail would be
    too short. -/
def cutOf (start : Nat) : Nat :=
  let boundary := start + chunkSamples
  let cut := findSplitPoint splitter waveform
    (max (boundary - splitter.searchSamples) (start + 1)) boundary
  let tail := waveform.length - cut
  if 0 < tail ∧ (tail : Int) < minTail ∧ minTail ≤ chunkSamples then
    max (waveform.length - minTail.toNat) (start + 1)
  else cut

/-- The loop, from a start; `none` where it does not end in that many rounds. -/
def splitFrom : Nat → Nat → Option (List Span)
  | 0, _ => none
  | rounds + 1, start =>
    if start < waveform.length then
      if waveform.length - start ≤ chunkSamples then some [(start, waveform.length)]
      else
        let cut := cutOf splitter waveform chunkSamples minTail start
        (splitFrom rounds cut).map ((start, cut) :: ·)
    else some []

/-- `split`, in a number of rounds. -/
def split (maxChunkSamples : Int) (rounds : Nat) : Option (List Span) :=
  let chunkSamples := (max maxChunkSamples 1).toNat
  if waveform.length = 0 then some []
  else if waveform.length ≤ chunkSamples then some [(0, waveform.length)]
  else splitFrom splitter waveform chunkSamples minTail rounds 0

end Split

/-! ## Partitions -/

/-- Spans that are not empty, each starting where the one ahead of it ends. -/
inductive Partition : Nat → List Span → Nat → Prop
  | nil (start : Nat) : Partition start [] start
  | cons {start cut stop : Nat} {spans : List Span} :
      start < cut → Partition cut spans stop → Partition start ((start, cut) :: spans) stop

/-! ## Cuts -/

section Cuts

variable {α : Type u} {E : Type v} (splitter : Splitter α E) (waveform : List α)
  {chunkSamples start : Nat} (minTail : Int)

theorem argminFrom_lt (es : List E) {index next : Nat} (least : E) (h : index < next) :
    argminFrom splitter index least next es < next + es.length := by
  induction es generalizing index least next with
  | nil => exact h
  | cons e es ih =>
    have hlen : next + (e :: es).length = next + 1 + es.length := by
      rw [List.length_cons, Nat.add_assoc, Nat.add_comm 1]
    rw [argminFrom, hlen]
    split
    · exact ih e (Nat.lt_succ_self next)
    · exact ih least (Nat.lt_succ_of_lt h)

theorem argmin_lt (es : List E) (h : 0 < es.length) : argmin splitter es < es.length := by
  cases es with
  | nil => exact absurd h (Nat.lt_irrefl 0)
  | cons e es =>
    have hlt := argminFrom_lt splitter es e Nat.one_pos
    rw [List.length_cons, Nat.add_comm es.length]
    exact hlt

/-- A cut lies between the start of its search and the boundary. -/
theorem findSplitPoint_mem {searchStart searchEnd : Nat} (hle : searchStart ≤ searchEnd)
    (hend : searchEnd ≤ waveform.length) :
    searchStart ≤ findSplitPoint splitter waveform searchStart searchEnd ∧
      findSplitPoint splitter waveform searchStart searchEnd ≤ searchEnd := by
  dsimp only [findSplitPoint]
  have hregion : ((waveform.take searchEnd).drop searchStart).length = searchEnd - searchStart := by
    rw [List.length_drop, List.length_take_of_le hend]
  generalize (waveform.take searchEnd).drop searchStart = region at hregion ⊢
  split
  · exact ⟨hle, Nat.le_refl _⟩
  next hcnt =>
    have hlen : ((windows splitter region).map splitter.energy).length =
        region.length / splitter.energyWindowSamples := by
      rw [List.length_map, windows, List.length_map, List.length_range]
    have hquietest := argmin_lt splitter ((windows splitter region).map splitter.energy)
      (by rw [hlen]; omega)
    rw [hlen] at hquietest
    generalize argmin splitter ((windows splitter region).map splitter.energy) = quietest
      at hquietest ⊢
    -- the window of the cut ends within the region
    have hwin : (quietest + 1) * splitter.energyWindowSamples ≤ region.length :=
      (Nat.le_div_iff_mul_le splitter.energyWindowSamples_pos).mp hquietest
    have hhalf := Nat.div_le_self splitter.energyWindowSamples 2
    rw [Nat.succ_mul, hregion] at hwin
    omega

/-- Where more than a chunk is left the cut moves on, over a chunk at most, and leaves a tail that
    is not too short. -/
theorem cutOf_spec (hpos : 0 < chunkSamples) (hlong : chunkSamples < waveform.length - start) :
    start < cutOf splitter waveform chunkSamples minTail start ∧
      cutOf splitter waveform chunkSamples minTail start ≤ start + chunkSamples ∧
      (minTail ≤ chunkSamples → minTail ≤
        (waveform.length - cutOf splitter waveform chunkSamples minTail start : Nat)) := by
  have hsearch : max (start + chunkSamples - splitter.searchSamples) (start + 1) ≤
      start + chunkSamples :=
    Nat.max_le.mpr ⟨Nat.sub_le _ _, Nat.add_le_add_left hpos start⟩
  obtain ⟨hlow, hhigh⟩ := findSplitPoint_mem splitter waveform hsearch (by omega)
  have hsrt := Nat.le_trans (Nat.le_max_right _ (start + 1)) hlow
  dsimp only [cutOf]
  generalize findSplitPoint splitter waveform _ (start + chunkSamples) = cut at hsrt hhigh ⊢
  split
  next hshort =>
    obtain ⟨-, htail, hmin⟩ := hshort
    omega
  next hfine =>
    refine ⟨hsrt, hhigh, fun hmin => ?_⟩
    by_contra hlt
    exact hfine ⟨by omega, Int.not_le.mp hlt, hmin⟩

/-! ## Runs -/

/-- The spans from a start on, in any number of rounds that is large enough. -/
structure SplitsInto (chunkSamples : Nat) (spans : List Span) (start : Nat) : Prop where
  rounds : ∀ rounds, waveform.length - start < rounds →
    splitFrom splitter waveform chunkSamples minTail rounds start = some spans
  partition : Partition start spans waveform.length
  bound : ∀ span ∈ spans, span.2 - span.1 ≤ chunkSamples
  tail : minTail ≤ chunkSamples → minTail ≤ (waveform.length - start : Nat) →
    ∃ last, spans.getLast? = some last ∧ minTail ≤ (last.2 - last.1 : Nat)

theorem exists_splitsInto (hpos : 0 < chunkSamples) (hsrt : start < waveform.length) :
    ∃ spans, SplitsInto splitter waveform minTail chunkSamples spans start := by
  induction hleft : waveform.length - start using Nat.strongRecOn generalizing start with
  | _ left ih =>
    by_cases hlast : waveform.length - start ≤ chunkSamples
    · refine ⟨[(start, waveform.length)], ?_, .cons hsrt (.nil _), ?_, ?_⟩
      · intro rounds hrounds
        cases rounds with
        | zero => exact absurd hrounds (Nat.not_lt_zero _)
        | succ rounds => rw [splitFrom, if_pos hsrt, if_pos hlast]
      · intro span hspan
        rw [List.mem_singleton.mp hspan]
        exact hlast
      · exact fun _ hmin => ⟨_, rfl, hmin⟩
    · have hlong := Nat.not_le.mp hlast
      obtain ⟨hcut, hchunk, htail⟩ := cutOf_spec splitter waveform minTail hpos hlong
      have hinside : cutOf splitter waveform chunkSamples minTail start < waveform.length := by
        omega
      obtain ⟨spans, hrest⟩ := ih _ (by omega) hinside rfl
      refine ⟨_ :: spans, ?_, .cons hcut hrest.partition, ?_, ?_⟩
      · intro rounds hrounds
        cases rounds with
        | zero => exact absurd hrounds (Nat.not_lt_zero _)
        | succ rounds =>
          rw [splitFrom, if_pos hsrt, if_neg hlast]
          dsimp only
          rw [hrest.rounds rounds (by omega)]
          rfl
      · intro span hspan
        rcases List.mem_cons.mp hspan with rfl | hspan
        · exact Nat.sub_le_iff_le_add'.mpr hchunk
        · exact hrest.bound span hspan
      · intro hmin _
        obtain ⟨last, hlast, hle⟩ := hrest.tail hmin (htail hmin)
        exact ⟨last, by rw [List.getLast?_cons, hlast]; rfl, hle⟩

end Cuts

/-- The spans are a partition of the waveform into chunks, and the last one of several is not too
    short. The splitter never cuts less than one sample, so a bound below that counts as one. -/
theorem split_partitions {α : Type u} {E : Type v} (splitter : Splitter α E) (waveform : List α)
    (minTail maxChunkSamples : Int) :
    ∃ spans, (∀ rounds, waveform.length < rounds →
        split splitter waveform minTail maxChunkSamples rounds = some spans) ∧
      Partition 0 spans waveform.length ∧
      (∀ span ∈ spans, (span.2 - span.1 : Nat) ≤ max maxChunkSamples 1) ∧
      (max maxChunkSamples 1 < waveform.length → minTail ≤ max maxChunkSamples 1 →
        ∃ last, spans.getLast? = some last ∧ minTail ≤ (last.2 - last.1 : Nat)) := by
  have hchunk : ((max maxChunkSamples 1).toNat : Int) = max maxChunkSamples 1 :=
    Int.toNat_of_nonneg (by omega)
  have hpos : 0 < (max maxChunkSamples 1).toNat := by omega
  unfold split
  rw [← hchunk]
  dsimp only
  generalize (max maxChunkSamples 1).toNat = chunkSamples at hpos
  split_ifs with hnil hshort
  · refine ⟨[], fun _ _ => rfl, by rw [hnil]; exact .nil 0, ?_, fun hlong => ?_⟩
    · exact nofun
    · omega
  · refine ⟨_, fun _ _ => rfl, .cons (Nat.pos_of_ne_zero hnil) (.nil _), ?_, fun hlong => ?_⟩
    · intro span hspan
      rw [List.mem_singleton.mp hspan]
      exact Int.ofNat_le.mpr hshort
    · omega
  · obtain ⟨spans, hspans⟩ :=
      exists_splitsInto splitter waveform minTail hpos (Nat.pos_of_ne_zero hnil)
    refine ⟨spans, hspans.rounds, hspans.partition, ?_, fun hlong hmin => ?_⟩
    · exact fun span hspan => Int.ofNat_le.mpr (hspans.bound span hspan)
    · exact hspans.tail hmin (by omega)

/-- A bound of no sample is not kept. -/
theorem split_exceeds_zero_bound :
    split (⟨0, 1, Nat.one_pos, fun _ => (), fun _ _ => false⟩ : Splitter Nat Unit) [5] 0 0 2 =
        some [(0, 1)] ∧ ¬((1 - 0 : Nat) : Int) ≤ 0 :=
  ⟨rfl, by decide⟩

end RmsSplitter

end OmniRealtime
