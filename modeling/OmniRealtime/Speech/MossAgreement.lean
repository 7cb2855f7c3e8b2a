import OmniRealtime.Speech.MossSegments

/-!
# Streamed MOSS-TTS audio and the final result

1. `Transcript.bounds`: the bounds select the first payload when it is longer than the rows of
   one frame, and nothing otherwise.
2. `splitMossAudioSegments_eq`: the non-streaming segments are runs of frames too.
3. `Transcript.runs_whole`, `Transcript.runs_stream`: the runs of all rows, and those of the
   payloads alone.
4. `stream_matches_final_iff`: on which requests the two sides agree.
-/

namespace OmniRealtime

open List Option

namespace Moss

open Delay

variable {cfg : DelayConfig}

/-! ## The bounds of the payload -/

section Bounds

variable {front mid : List ℕ} {token : ℕ}

theorem firstFrom_append (front : List ℕ) (back : List ℕ) (h : ∀ t ∈ mid, t ≠ token) :
    firstFrom (front ++ (mid ++ token :: back)) front.length token =
      some (front.length + mid.length) := by
  have hn : mid.findIdx? (· == token) = none :=
    findIdx?_eq_none_iff.mpr fun t ht => beq_eq_false_iff_ne.mpr (h t ht)
  rw [firstFrom, drop_left, findIdx?_append, hn, findIdx?_cons]
  simp

theorem firstFrom_none (front : List ℕ) (h : ∀ t ∈ mid, t ≠ token) :
    firstFrom (front ++ mid) front.length token = none := by
  have hn : mid.findIdx? (· == token) = none :=
    findIdx?_eq_none_iff.mpr fun t ht => beq_eq_false_iff_ne.mpr (h t ht)
  rw [firstFrom, drop_left, hn]
  rfl

theorem lastFrom_lt {text : List ℕ} {start i : ℕ} (h : lastFrom text start token = some i) :
    start ≤ i ∧ i < text.length := by
  have hmem := mem_filter.mp (mem_of_getLast? h)
  obtain ⟨hrange, hcond⟩ := hmem
  exact ⟨of_decide_eq_true (Bool.and_eq_true_iff.mp hcond).1, mem_range.mp hrange⟩

theorem lastFrom_concat : lastFrom (front ++ (mid ++ [token])) front.length token =
    some (front.length + mid.length) := by
  have hlen : (front ++ (mid ++ [token])).length = front.length + mid.length + 1 := by
    rw [length_append, length_append, length_singleton, add_assoc]
  have hlast : (front ++ (mid ++ [token]))[front.length + mid.length]? = some token := by
    rw [← append_assoc, ← length_append, getElem?_concat_length]
  rw [lastFrom, hlen, range_succ, filter_append, filter_cons_of_pos (by
    rw [hlast]; simp)]
  exact getLast?_concat

theorem payloadStop_cut (hmid : ∀ t ∈ mid, t = cfg.audioAssistantGenSlotTokenId ∨
    t = cfg.audioAssistantDelaySlotTokenId) :
    payloadStop cfg (front ++ mid) front.length =
      if mid.isEmpty then none else some (front.length + mid.length) := by
  have hend : ∀ t ∈ mid, t ≠ cfg.audioEndTokenId := by
    intro t ht
    rcases hmid t ht with rfl | rfl
    · exact gen_plain.2.1
    · exact delay_plain.2.1
  rw [payloadStop, firstFrom_none front hend]
  have hle : ∀ b ∈ [cfg.audioAssistantGenSlotTokenId,
      cfg.audioAssistantDelaySlotTokenId].filterMap (fun token =>
        (lastFrom (front ++ mid) front.length token).map (· + 1)),
      front.length < b ∧ b ≤ front.length + mid.length := by
    intro b hb
    obtain ⟨token, _, hsome⟩ := mem_filterMap.mp hb
    obtain ⟨i, hlast, rfl⟩ := map_eq_some_iff.mp hsome
    have hlt := lastFrom_lt hlast
    rw [length_append] at hlt
    exact ⟨Nat.lt_succ_of_le hlt.1, hlt.2⟩
  induction mid using List.reverseRecOn with
  | nil =>
    simp only [append_nil, length_nil, add_zero] at hle ⊢
    cases hcandidates : [cfg.audioAssistantGenSlotTokenId,
        cfg.audioAssistantDelaySlotTokenId].filterMap (fun token =>
          (lastFrom front front.length token).map (· + 1)) with
    | nil => rfl
    | cons b rest =>
      have hb := hle b (hcandidates ▸ mem_cons_self)
      exact absurd hb.2 (not_le.mpr hb.1)
  | append_singleton others last _ =>
    have hmem : last ∈ [cfg.audioAssistantGenSlotTokenId, cfg.audioAssistantDelaySlotTokenId] := by
      rcases hmid last (by simp) with rfl | rfl
      · exact mem_cons_self
      · exact mem_cons_of_mem _ mem_cons_self
    have hsome : (others ++ [last]).isEmpty = false := by simp
    rw [hsome]
    refine max?_eq_some_iff.mpr ⟨mem_filterMap.mpr ⟨last, hmem, ?_⟩, fun b hb => (hle b hb).2⟩
    rw [lastFrom_concat, length_append]
    rfl

end Bounds

section Selection

variable {rows payload : List (Row cfg.nVq)} {payloads : List (List (Row cfg.nVq))}

theorem Transcript.split (h : Transcript cfg rows (payload :: payloads)) :
    ∃ front first back, rows = front ++ first :: (payload ++ back) ∧
      (∀ row ∈ front, PlainText cfg row.text) ∧ first.text = cfg.audioStartTokenId ∧
      (∀ row ∈ payload, row.text = cfg.audioAssistantGenSlotTokenId ∨
        row.text = cfg.audioAssistantDelaySlotTokenId) ∧
      (back = [] ∧ payloads = [] ∨ cfg.nVq ≤ payload.length ∧ ∃ last rest, back = last :: rest ∧
          last.text = cfg.audioEndTokenId) := by
  generalize hall : payload :: payloads = all at h
  induction h with
  | nil => cases hall
  | @text row rest _ hpln _ _ ih =>
    obtain ⟨front, first, back, heq, hfront, hf⟩ := ih hall
    refine ⟨row :: front, first, back, congrArg (row :: ·) heq, fun r hr => ?_, hf⟩
    rcases mem_cons.mp hr with rfl | hr
    · exact hpln
    · exact hfront r hr
  | @audio first last _ rest _ hf _ hp hlast _ _ _ =>
    cases hall
    exact ⟨[], first, last :: rest, rfl, nofun, hf,
      hp.text, .inr ⟨hp.dead.1, last, rest, rfl, hlast⟩⟩
  | @cut first _ hf _ hp =>
    cases hall
    exact ⟨[], first, [], by rw [append_nil]; rfl, nofun, hf, hp.text, .inl ⟨rfl, rfl⟩⟩

/-- Without audio all rows are plain text. -/
theorem Transcript.plain (h : Transcript cfg rows []) : ∀ row ∈ rows, PlainText cfg row.text := by
  generalize hall : ([] : List (List (Row cfg.nVq))) = all at h
  induction h with
  | nil => exact nofun
  | text hpln _ _ ih =>
    intro r hr
    rcases mem_cons.mp hr with rfl | hr
    · exact hpln
    · exact ih hall r hr
  | audio => cases hall
  | cut => cases hall

theorem Transcript.no_bounds (h : Transcript cfg rows []) :
    resolveAudioPayloadBounds cfg rows = none := by
  have hpln := h.plain
  have hn : ∀ token, (∀ row ∈ rows, row.text ≠ token) →
      firstFrom (rows.map Row.text) 0 token = none := fun token htoken =>
    firstFrom_none [] fun t ht => by
      obtain ⟨row, hrow, rfl⟩ := mem_map.mp ht
      exact htoken row hrow
  have hsrt : payloadStart cfg (rows.map Row.text) = none := by
    rw [payloadStart, hn _ fun row hrow => (hpln row hrow).start]
    exact hn _ fun row hrow => (hpln row hrow).gen
  simp only [resolveAudioPayloadBounds, hsrt]
  rfl

/-- The bounds select the first payload when it has more rows than one frame takes. -/
theorem Transcript.bounds (h : Transcript cfg rows (payload :: payloads)) :
    ∃ start, (rows.drop start).take payload.length = payload ∧ resolveAudioPayloadBounds cfg rows =
        if cfg.nVq < payload.length then some (start, start + payload.length) else none := by
  obtain ⟨front, first, back, rfl, hfront, hf, htext, hback⟩ := h.split
  have hspl : front ++ first :: (payload ++ back) = (front ++ [first]) ++ (payload ++ back) := by
    rw [append_assoc, singleton_append]
  have hlen : (front ++ [first]).length = front.length + 1 := by
    rw [length_append, length_singleton]
  refine ⟨front.length + 1, by rw [hspl, ← hlen, drop_left, take_left], ?_⟩
  have htexts : (front ++ first :: (payload ++ back)).map Row.text =
      (front ++ [first]).map Row.text ++ (payload.map Row.text ++ back.map Row.text) := by
    rw [hspl]
    simp only [map_append]
  have hsrt : payloadStart cfg ((front ++ first :: (payload ++ back)).map Row.text) =
      some (front.length + 1) := by
    have hpln : ∀ t ∈ front.map Row.text, t ≠ cfg.audioStartTokenId := by
      intro t ht
      obtain ⟨row, hrow, rfl⟩ := mem_map.mp ht
      exact (hfront row hrow).start
    have hfound := firstFrom_append [] ((payload ++ back).map Row.text) hpln
    rw [payloadStart, map_append, map_cons, hf]
    rw [nil_append, length_nil, length_map, zero_add] at hfound
    rw [hfound]
  have hsls : ∀ t ∈ payload.map Row.text, t = cfg.audioAssistantGenSlotTokenId ∨
      t = cfg.audioAssistantDelaySlotTokenId := by
    intro t ht
    obtain ⟨row, hrow, rfl⟩ := mem_map.mp ht
    exact htext row hrow
  have hfrontLen : front.length + 1 = ((front ++ [first]).map Row.text).length := by
    rw [length_map, hlen]
  have hstop : payloadStop cfg ((front ++ first :: (payload ++ back)).map Row.text)
      (front.length + 1) =
        if payload.isEmpty ∧ back.isEmpty then none
        else some (front.length + 1 + payload.length) := by
    rw [htexts, hfrontLen]
    rcases hback with ⟨rfl, -⟩ | ⟨hle, last, rest, rfl, hlast⟩
    · rw [map_nil, append_nil, payloadStop_cut hsls]
      simp only [length_map]
      simp
    · have hend : ∀ t ∈ payload.map Row.text, t ≠ cfg.audioEndTokenId := by
        intro t ht
        rcases hsls t ht with rfl | rfl
        · exact gen_plain.2.1
        · exact delay_plain.2.1
      rw [payloadStop, map_cons, hlast, firstFrom_append _ _ hend]
      simp only [length_map]
      simp
  simp only [resolveAudioPayloadBounds, hsrt, hstop, bind_eq_bind, bind_some]
  by_cases hn : payload.isEmpty ∧ back.isEmpty
  · rw [if_pos hn, List.isEmpty_iff.mp hn.1]
    rfl
  · rw [if_neg hn, bind_some]
    by_cases hlong : cfg.nVq < payload.length
    · rw [if_pos hlong, if_neg (by omega)]
    · rw [if_neg hlong, if_pos (by omega)]

end Selection

/-! ## The segments of both sides -/

theorem splitMossAudioSegments_eq (trim : ℕ) (rows : List (Codes cfg.nVq)) :
    splitMossAudioSegments cfg.audioPadCode trim rows =
      if 0 < trim then trimFirst trim (runs (nonPad cfg.audioPadCode) (Delay.dedelay rows))
      else runs (nonPad cfg.audioPadCode) (Delay.dedelay rows) := by
  have hcodes : ((List.range (rows.length + 1 - cfg.nVq)).map fun t (c : Fin cfg.nVq) =>
      ((rows[t + c.1]?).map (· c)).getD 0) = dedelay rows := by
    refine ext_getElem ?_ fun t h h' => ?_
    · rw [length_map, length_range, length_dedelay cfg.nVq_pos]
    · funext c
      have hlen := length_dedelay cfg.nVq_pos rows
      have hrow : t + c.1 < rows.length := by
        have hc := c.2
        omega
      rw [getElem_dedelay h' c rfl hrow, getElem_map, getElem_range, getElem?_eq_getElem hrow]
      rfl
  simp only [splitMossAudioSegments, hcodes, splitBy_zipIdx]

def segmentsOf (payloads : List (List (Row cfg.nVq))) : List (List (Codes cfg.nVq)) :=
  (payloads.map frames).filter (!·.isEmpty)

section Runs

variable {rows payload : List (Row cfg.nVq)} {payloads : List (List (Row cfg.nVq))}

theorem segmentsOf_cons_of_lt (h : payload.length < cfg.nVq) :
    segmentsOf (payload :: payloads) = segmentsOf payloads := by
  rw [segmentsOf, map_cons, frames_eq_nil_iff.mpr h]
  rfl

theorem segmentsOf_cons_of_le (h : cfg.nVq ≤ payload.length) :
    segmentsOf (payload :: payloads) = frames payload :: segmentsOf payloads := by
  have hne : (frames payload).isEmpty = false := by
    rw [isEmpty_eq_false_iff]
    exact fun hnil => not_lt.mpr h (frames_eq_nil_iff.mp hnil)
  rw [segmentsOf, map_cons, filter_cons_of_pos (by rw [hne]; rfl)]
  rfl

theorem segmentsOf_eq_nil_iff :
    segmentsOf payloads = [] ↔ ∀ payload ∈ payloads, payload.length < cfg.nVq := by
  induction payloads with
  | nil => exact ⟨nofun, fun _ => rfl⟩
  | cons payload payloads ih =>
    rw [forall_mem_cons]
    by_cases hlt : payload.length < cfg.nVq
    · rw [segmentsOf_cons_of_lt hlt, ih, and_iff_right hlt]
    · rw [segmentsOf_cons_of_le (not_lt.mp hlt)]
      exact ⟨fun h => absurd h (cons_ne_nil _ _), fun h => absurd h.1 hlt⟩

/-- A payload that is cut off is one segment, if it has a frame. -/
theorem Payload.runs {j : ℕ} {whole : Bool} (h : Payload cfg 0 j payload whole) :
    Delay.runs (nonPad cfg.audioPadCode) (frames payload) = segmentsOf [payload] := by
  by_cases hlt : payload.length < cfg.nVq
  · rw [segmentsOf_cons_of_lt hlt, frames_eq_nil_iff.mpr hlt]
    rfl
  · have hle := not_lt.mp hlt
    rw [segmentsOf_cons_of_le hle, runs_of_forall (fun hnil => hlt
      (frames_eq_nil_iff.mp hnil)) h.live]
    rfl

section

variable (h : Transcript cfg rows payloads)
include h

/-- The runs of all rows: every payload stands alone. -/
theorem Transcript.runs_whole :
    Delay.runs (nonPad cfg.audioPadCode) (frames rows) = segmentsOf payloads := by
  induction h with
  | nil => rfl
  | text _ hsilent _ ih =>
    rw [frames, map_cons, runs_dedelay_cons hsilent.dead]
    exact ih
  | @audio first last payload rest payloads _ hf hp _ hlast _ ih =>
    obtain ⟨hle, hdead⟩ := hp.dead
    have hne : dedelay (payload.map Row.codes) ≠ [] := fun hnil =>
      not_lt.mpr hle (frames_eq_nil_iff.mp hnil)
    rw [frames, map_cons, runs_dedelay_cons hf.dead, map_append,
      map_cons, runs_dedelay_append hp.live hne hdead (.inr fun row hrow => by
        cases hrow
        exact hlast.dead), runs_dedelay_cons hlast.dead, segmentsOf_cons_of_le hle]
    exact congrArg (_ :: ·) ih
  | @cut first payload _ hf hp =>
    rw [frames, map_cons, runs_dedelay_cons hf.dead]
    exact hp.runs

/-- The runs of the payloads alone: the delay tail of one keeps it apart from the next, if there
is more than one codebook. -/
theorem Transcript.runs_stream (hmany : 1 < cfg.nVq) :
    runs (nonPad cfg.audioPadCode) (frames payloads.flatten) = segmentsOf payloads := by
  induction h with
  | nil => rfl
  | text _ _ _ ih => exact ih
  | @audio first last payload rest payloads _ _ hp _ _ _ ih =>
    obtain ⟨hle, hdead⟩ := hp.dead
    have hne : dedelay (payload.map Row.codes) ≠ [] := fun hnil =>
      not_lt.mpr hle (frames_eq_nil_iff.mp hnil)
    have htail : (payload.map Row.codes).drop
        ((payload.map Row.codes).length + 1 - cfg.nVq) ≠ [] := by
      rw [Ne, drop_eq_nil_iff, length_map]
      omega
    rw [frames, flatten_cons, map_append,
      runs_dedelay_append hp.live hne hdead (.inl htail), segmentsOf_cons_of_le hle]
    exact congrArg (_ :: ·) ih
  | @cut first payload _ _ hp =>
    rw [flatten_singleton]
    exact hp.runs

/-- With one codebook there is no delay tail, and the payloads run into one another. -/
theorem Transcript.runs_single (hone : cfg.nVq = 1) :
    runs (nonPad cfg.audioPadCode) (frames payloads.flatten) =
      segmentsOf [payloads.flatten] := by
  have hlive : ∀ frame ∈ frames payloads.flatten, nonPad cfg.audioPadCode frame = true := by
    induction h with
    | nil => exact nofun
    | text _ _ _ ih => exact ih
    | @audio first last payload rest payloads _ _ hp _ _ _ ih =>
      intro frame hfrm
      have htail : (payload.map Row.codes).drop
          ((payload.map Row.codes).length + 1 - cfg.nVq) = [] := by
        rw [drop_eq_nil_iff]
        omega
      rw [frames, flatten_cons, map_append, dedelay_append, htail, nil_append] at hfrm
      rcases mem_append.mp hfrm with hfrm | hfrm
      · exact hp.live frame hfrm
      · exact ih frame hfrm
    | cut _ _ hp =>
      rw [flatten_singleton]
      exact hp.live
  by_cases hlt : payloads.flatten.length < cfg.nVq
  · rw [segmentsOf_cons_of_lt hlt, frames_eq_nil_iff.mpr hlt]
    rfl
  · rw [segmentsOf_cons_of_le (not_lt.mp hlt), runs_of_forall (fun hnil => hlt
      (frames_eq_nil_iff.mp hnil)) hlive]
    rfl

end

/-- Only the last payload can be shorter than one frame's rows. -/
theorem Transcript.last_of_short (h : Transcript cfg rows (payload :: payloads))
    (hlt : payload.length < cfg.nVq) : payloads = [] := by
  obtain ⟨_, _, _, _, _, _, _, ⟨_, hnil⟩ | ⟨hle, _⟩⟩ := h.split
  · exact hnil
  · exact absurd hle (not_le.mpr hlt)

end Runs

/-! ## Agreement -/

/-- The rows between each start of audio and the next end of audio, or the end of the rows. -/
def audioPayloads (cfg : DelayConfig) : List (Row cfg.nVq) → List (List (Row cfg.nVq))
  | [] => []
  | row :: rest =>
    if row.text = cfg.audioStartTokenId then
      rest.takeWhile (·.text != cfg.audioEndTokenId) :: audioPayloads cfg rest
    else audioPayloads cfg rest

/-- Behind the first payload none has the rows of a frame, unless the first has just those of one
frame and there are other codebooks; and a first payload of one frame follows no prefix. -/
def SinglePayload (cfg : DelayConfig) (prefixRows rows : List (Row cfg.nVq)) : Prop :=
  match audioPayloads cfg (prefixRows ++ rows) with
  | [] => True
  | first :: later =>
    (cfg.nVq < first.length ∨ cfg.nVq = 1 → ∀ payload ∈ later, payload.length < cfg.nVq) ∧
      (first.length = cfg.nVq → prefixRows = [])

section Agreement

variable {rows prefixRows payload : List (Row cfg.nVq)} {payloads : List (List (Row cfg.nVq))}

theorem audioPayloads_append (rows : List (Row cfg.nVq))
    (h : ∀ row ∈ payload, row.text ≠ cfg.audioStartTokenId) :
    audioPayloads cfg (payload ++ rows) = audioPayloads cfg rows := by
  induction payload with
  | nil => rfl
  | cons row payload ih =>
    rw [cons_append, audioPayloads, if_neg (h row mem_cons_self)]
    exact ih fun r hr => h r (mem_cons_of_mem _ hr)

theorem Payload.not_start {i j : ℕ} {whole : Bool} (h : Payload cfg i j payload whole) :
    (∀ row ∈ payload, row.text ≠ cfg.audioStartTokenId) ∧
      ∀ row ∈ payload, (row.text != cfg.audioEndTokenId) = true := by
  refine ⟨fun row hrow => ?_, fun row hrow => bne_iff_ne.mpr ?_⟩
  · rcases h.text row hrow with heq | heq
    · exact heq ▸ gen_plain.1
    · exact heq ▸ delay_plain.1
  · rcases h.text row hrow with heq | heq
    · exact heq ▸ gen_plain.2.1
    · exact heq ▸ delay_plain.2.1

theorem Transcript.audioPayloads_eq (h : Transcript cfg rows payloads) :
    audioPayloads cfg rows = payloads := by
  induction h with
  | nil => rfl
  | text hpln _ _ ih => rw [audioPayloads, if_neg hpln.start, ih]
  | @audio first last payload rest payloads hf _ hp hlast _ _ ih =>
    obtain ⟨hsrt, hend⟩ := hp.not_start
    have hstop : (last :: rest).takeWhile (·.text != cfg.audioEndTokenId) = [] :=
      takeWhile_cons_of_neg (by simp [hlast])
    rw [audioPayloads, if_pos hf, audioPayloads_append _ hsrt, audioPayloads,
      if_neg (by rw [hlast]; exact start_ne_end.symm), ih, takeWhile_append_of_pos hend,
      hstop, append_nil]
  | @cut first payload hf _ hp =>
    obtain ⟨hsrt, hend⟩ := hp.not_start
    have hn := audioPayloads_append [] hsrt
    rw [append_nil] at hn
    rw [audioPayloads, if_pos hf, hn, takeWhile_eq_self_iff.mpr hend]
    rfl

theorem streamed_eq (processCount : MossStreamState cfg.nVq → ℕ) (hne : rows ≠ [])
    (h : Transcript cfg (prefixRows ++ rows) payloads) :
    streamedSegments cfg processCount prefixRows rows =
      if cfg.nVq = 1 then segmentsOf [payloads.flatten] else segmentsOf payloads := by
  rw [streamedSegments_eq, streamChunks_flatten hne, h.scan_rows rfl]
  by_cases hone : cfg.nVq = 1
  · rw [if_pos hone]
    exact h.runs_single hone
  · rw [if_neg hone]
    have hpos := cfg.nVq_pos
    exact h.runs_stream (by omega)

theorem Transcript.payload_mem (h : Transcript cfg rows payloads) :
    ∀ payload ∈ payloads, ∃ whole, Payload cfg 0 0 payload whole := by
  induction h with
  | nil => exact nofun
  | text _ _ _ ih => exact ih
  | audio _ _ hp _ _ _ ih =>
    exact forall_mem_cons.mpr ⟨⟨true, hp⟩, ih⟩
  | cut _ _ hp =>
    exact forall_mem_cons.mpr ⟨⟨false, hp⟩, nofun⟩

theorem final_eq_nil (h : Transcript cfg (prefixRows ++ rows) []) :
    finalSegments cfg prefixRows rows = [] := by
  rw [finalSegments]
  split
  · rfl
  · simp only [h.no_bounds, splitMossAudioSegments_eq]
    have hruns := h.runs_whole
    rw [frames] at hruns
    rw [hruns]
    split <;> rfl

theorem final_eq (hne : rows ≠ []) (h : Transcript cfg (prefixRows ++ rows) (payload :: payloads)) :
    finalSegments cfg prefixRows rows =
      if cfg.nVq < payload.length then [frames payload]
      else if 0 < prefixRows.length then
        trimFirst prefixRows.length (segmentsOf (payload :: payloads))
      else segmentsOf (payload :: payloads) := by
  obtain ⟨start, hslice, hbounds⟩ := h.bounds
  have hruns := h.runs_whole
  rw [frames] at hruns
  rw [finalSegments, if_neg (by simpa using hne)]
  by_cases hlong : cfg.nVq < payload.length
  · rw [if_pos hlong] at hbounds ⊢
    obtain ⟨whole, hp⟩ := h.payload_mem payload mem_cons_self
    have hs := hp.runs
    rw [segmentsOf_cons_of_le (le_of_lt hlong), frames] at hs
    simp only [hbounds, Nat.add_sub_cancel_left, hslice, splitMossAudioSegments_eq,
      lt_irrefl, if_false]
    exact hs
  · rw [if_neg hlong] at hbounds ⊢
    simp only [hbounds, splitMossAudioSegments_eq, hruns]

/-! ### Where the segments agree -/

theorem flatten_eq_nil_iff_short (hone : cfg.nVq = 1) :
    payloads.flatten = [] ↔ ∀ payload ∈ payloads, payload.length < cfg.nVq := by
  have hshort : ∀ payload : List (Row cfg.nVq), payload.length < cfg.nVq ↔ payload = [] := by
    intro payload
    rw [← length_eq_zero_iff]
    omega
  simp only [flatten_eq_nil_iff, hshort]

/-- With one codebook there is a frame for every row of a payload. -/
theorem length_segmentsOf (hone : cfg.nVq = 1) :
    (segmentsOf payloads).flatten.length = payloads.flatten.length := by
  induction payloads with
  | nil => rfl
  | cons payload payloads ih =>
    rw [flatten_cons, length_append, ← ih]
    by_cases hlt : payload.length < cfg.nVq
    · rw [segmentsOf_cons_of_lt hlt]
      omega
    · have hfms : (frames payload).length = payload.length := by
        rw [frames, length_dedelay cfg.nVq_pos, length_map]
        omega
      rw [segmentsOf_cons_of_le (not_lt.mp hlt), flatten_cons, length_append, hfms]

/-- A first segment of one frame does not survive the trim. -/
theorem trimFirst_one (hlen : payload.length = cfg.nVq) {trim : ℕ} (htrim : 0 < trim) :
    trimFirst trim (segmentsOf (payload :: payloads)) = segmentsOf payloads := by
  have hfms : (frames payload).length = 1 := by
    rw [frames, length_dedelay cfg.nVq_pos, length_map]
    omega
  rw [segmentsOf_cons_of_le (le_of_eq hlen.symm), trimFirst, hfms, Nat.min_eq_right htrim,
    drop_eq_nil_of_le (le_of_eq hfms)]
  show (segmentsOf payloads).filter _ = _
  rw [segmentsOf, List.filter_filter]
  simp only [Bool.and_self]

theorem agree_iff (h : Transcript cfg rows (payload :: payloads)) (trim : ℕ) :
    ((if cfg.nVq = 1 then segmentsOf [(payload :: payloads).flatten]
        else segmentsOf (payload :: payloads)) =
      if cfg.nVq < payload.length then [frames payload]
      else if 0 < trim then trimFirst trim (segmentsOf (payload :: payloads))
      else segmentsOf (payload :: payloads)) ↔
    (cfg.nVq < payload.length ∨ cfg.nVq = 1 → ∀ later ∈ payloads, later.length < cfg.nVq) ∧
      (payload.length = cfg.nVq → trim = 0) := by
  have hjoined : (payload :: payloads).flatten.length =
      payload.length + payloads.flatten.length := by
    rw [flatten_cons, length_append]
  rcases Nat.lt_trichotomy payload.length cfg.nVq with hlt | heq | hgt
  · -- the payload was cut off before its first frame
    obtain rfl := h.last_of_short hlt
    have hnil : segmentsOf [payload] = [] := segmentsOf_cons_of_lt hlt
    rw [flatten_singleton, hnil, if_neg (not_lt.mpr (le_of_lt hlt)), ite_self]
    refine ⟨fun _ => ⟨nofun, fun heq => absurd heq (ne_of_lt hlt)⟩, fun _ => ?_⟩
    split <;> rfl
  · -- the payload is one frame
    have hle := le_of_eq heq.symm
    rw [if_neg (not_lt.mpr (le_of_eq heq))]
    rcases Nat.eq_zero_or_pos trim with rfl | htrim
    · rw [if_neg (lt_irrefl 0)]
      by_cases hone : cfg.nVq = 1
      · rw [if_pos hone, segmentsOf_cons_of_le (by rw [hjoined]; omega), segmentsOf_cons_of_le hle]
        constructor
        · intro hs
          have htail : segmentsOf ([] : List (List (Row cfg.nVq))) = segmentsOf payloads :=
            (cons.inj hs).2
          exact ⟨fun _ => segmentsOf_eq_nil_iff.mp htail.symm, fun _ => rfl⟩
        · intro hcond
          have hshort := hcond.1 (.inr hone)
          rw [segmentsOf_eq_nil_iff.mpr hshort, flatten_cons,
            (flatten_eq_nil_iff_short hone).mpr hshort, append_nil]
          rfl
      · rw [if_neg hone]
        exact ⟨fun _ => ⟨fun hcase => hcase.elim (fun hlt => absurd heq (Nat.ne_of_gt hlt))
          (fun h => absurd h hone), fun _ => rfl⟩, fun _ => rfl⟩
    · rw [if_pos htrim, trimFirst_one heq htrim]
      refine ⟨fun hs => absurd hs ?_,
        fun hcond => absurd (hcond.2 heq) (Nat.ne_of_gt htrim)⟩
      intro hs
      by_cases hone : cfg.nVq = 1
      · rw [if_pos hone] at hs
        have hlen := congrArg (fun segments => segments.flatten.length) hs
        simp only [length_segmentsOf hone, flatten_singleton, hjoined] at hlen
        omega
      · rw [if_neg hone, segmentsOf_cons_of_le hle] at hs
        have hlen := congrArg List.length hs
        rw [length_cons] at hlen
        omega
  · -- the payload has more than one frame, and the final side sees nothing else
    have hle := le_of_lt hgt
    rw [if_pos hgt]
    have hsecond : payload.length = cfg.nVq → trim = 0 := fun heq =>
      absurd heq (Nat.ne_of_gt hgt)
    by_cases hone : cfg.nVq = 1
    · rw [if_pos hone, segmentsOf_cons_of_le (by rw [hjoined]; omega)]
      constructor
      · intro hs
        have hlen := congrArg List.length (cons.inj hs).1
        rw [frames, frames, length_dedelay cfg.nVq_pos, length_dedelay cfg.nVq_pos,
          length_map, length_map, hjoined] at hlen
        have hnil : payloads.flatten = [] := length_eq_zero_iff.mp (by omega)
        exact ⟨fun _ => (flatten_eq_nil_iff_short hone).mp hnil, hsecond⟩
      · intro hcond
        have hshort := hcond.1 (.inl hgt)
        rw [flatten_cons, (flatten_eq_nil_iff_short hone).mpr hshort, append_nil]
        rfl
    · rw [if_neg hone, segmentsOf_cons_of_le hle, List.cons.injEq, and_iff_right rfl,
        segmentsOf_eq_nil_iff]
      exact ⟨fun hshort => ⟨fun _ => hshort, hsecond⟩, fun hcond => hcond.1 (.inl hgt)⟩

/-- The streamed segments are the final ones exactly when there are no output rows, or a single
payload of audio that the final adapter cuts out as a whole. -/
theorem stream_matches_final_iff (prompt : AudioPrompt cfg) (draws : List (Draw cfg.nVq))
    (rows : List (Row cfg.nVq)) (processCount : MossStreamState cfg.nVq → ℕ)
    (h : generate cfg (initialState cfg prompt.promptRows) 0 draws = some rows) :
    streamedSegments cfg processCount (assistantPrefixRows cfg prompt.promptRows) rows =
        finalSegments cfg (assistantPrefixRows cfg prompt.promptRows) rows ↔
      rows = [] ∨ SinglePayload cfg (assistantPrefixRows cfg prompt.promptRows) rows := by
  obtain ⟨last, hsteps⟩ := Steps.of_generate h
  obtain ⟨payloads, htranscript⟩ :=
    ((Steps.of_replay prompt.pattern).append hsteps).parse.1 rfl
  generalize assistantPrefixRows cfg prompt.promptRows = prefixRows at htranscript ⊢
  by_cases hne : rows = []
  · subst hne
    refine ⟨fun _ => .inl rfl, fun _ => ?_⟩
    rw [streamedSegments_eq]
    rfl
  · rw [streamed_eq processCount hne htranscript, SinglePayload, htranscript.audioPayloads_eq,
      or_iff_right hne]
    cases payloads with
    | nil =>
      rw [final_eq_nil htranscript]
      refine ⟨fun _ => trivial, fun _ => ?_⟩
      split
      · have hnil : (([] : List (List (Row cfg.nVq))).flatten).length < cfg.nVq := cfg.nVq_pos
        exact segmentsOf_cons_of_lt hnil
      · rfl
    | cons payload payloads =>
      rw [final_eq hne htranscript, agree_iff htranscript prefixRows.length]
      simp only [length_eq_zero_iff]

end Agreement

/-! ## A second payload -/

/-- Two codebooks; the token ids of the source's tests. -/
def twoCodebooks : DelayConfig where
  nVq := 2
  padTokenId := 0
  imStartTokenId := 9
  imEndTokenId := 14
  audioStartTokenId := 10
  audioEndTokenId := 11
  audioAssistantGenSlotTokenId := 12
  audioAssistantDelaySlotTokenId := 13
  audioPadCode := 99
  nVq_pos := Nat.two_pos
  distinct := by decide

/-- A prompt that ends in the header of the assistant's turn. -/
def barePrompt : AudioPrompt twoCodebooks where
  promptRows := [⟨9, fun _ => 99⟩, ⟨1, fun _ => 99⟩, ⟨2, fun _ => 99⟩]
  draws := []
  pattern := rfl

/-- What the samplers return for two stretches of audio with two frames each; the forced tokens
do not look at it. -/
def twoPayloads : List (Draw twoCodebooks.nVq) :=
  [10, 12, 13, 0, 0, 10, 12, 13, 0, 0].map fun text => ⟨text, fun _ => 5⟩

/-- The rows that they make. -/
def twoPayloadRows : List (Row twoCodebooks.nVq) :=
  (generate twoCodebooks (initialState twoCodebooks barePrompt.promptRows) 0 twoPayloads).getD []

/-- The stream sends both stretches, the final result has the first one only. -/
theorem second_payload_streamed_only :
    generate twoCodebooks (initialState twoCodebooks barePrompt.promptRows) 0 twoPayloads =
        some twoPayloadRows ∧
      streamedSegments twoCodebooks (fun state => state.pendingRawFrames.length)
          (assistantPrefixRows twoCodebooks barePrompt.promptRows) twoPayloadRows ≠
        finalSegments twoCodebooks (assistantPrefixRows twoCodebooks barePrompt.promptRows)
          twoPayloadRows :=
  ⟨rfl, fun h => absurd (congrArg List.length h) (by decide)⟩

/-- The theorem on these rows: they have two payloads with frames. -/
theorem stream_matches_final_two_payloads :
    ¬SinglePayload twoCodebooks (assistantPrefixRows twoCodebooks barePrompt.promptRows)
      twoPayloadRows := by
  have hiff := stream_matches_final_iff barePrompt twoPayloads twoPayloadRows
    (fun state => state.pendingRawFrames.length) rfl
  intro hsingle
  have heq := congrArg List.length (hiff.mpr (.inr hsingle))
  revert heq
  decide

end Moss

end OmniRealtime
