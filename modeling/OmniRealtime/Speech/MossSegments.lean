import OmniRealtime.Speech.MossTranscript

/-!
# The segments of a MOSS-TTS stream

1. `streamChunks_flatten`, `Transcript.scan_rows`: the chunks of a stream are the rows of its
   payloads.
2. `Collected`: the streaming vocoder's segments are the runs of the frames it has taken.
3. `streamedSegments_eq`: in the end they are the runs of all frames, at whatever pace the
   vocoder took them.
-/

namespace OmniRealtime

open List

namespace Moss

variable {cfg : DelayConfig}

/-! ## The rows that are streamed -/

section Scan

variable {scan : StreamScan} {rows prefixRows : List (Row cfg.nVq)}

theorem scanRows_cons {row : Row cfg.nVq} {next : StreamScan} {sent : List (Codes cfg.nVq)}
    (h : scanRow cfg scan row.text row.codes = (next, sent)) :
    scanRows cfg scan (row :: rows) =
      ((scanRows cfg next rows).1, sent ++ (scanRows cfg next rows).2) := by
  rw [scanRows, h]

theorem scanRows_append (scan : StreamScan) (rows more : List (Row cfg.nVq)) : scanRows cfg scan
    (rows ++ more) =
    ((scanRows cfg (scanRows cfg scan rows).1 more).1,
      (scanRows cfg scan rows).2 ++ (scanRows cfg (scanRows cfg scan rows).1 more).2) := by
  induction rows generalizing scan with
  | nil => rfl
  | cons row rows ih => simp only [cons_append, scanRows, ih, append_assoc]

/-- The counters of the scan, which its rows do not look at. -/
def StreamScan.counted (scan : StreamScan) (count : ℕ) : StreamScan :=
  { scan with prefixScanned := true, outputRowCount := count }

theorem scanRow_counted (count token : ℕ) (codes : Codes cfg.nVq) :
    scanRow cfg (scan.counted count) token codes =
      ((scanRow cfg scan token codes).1.counted count, (scanRow cfg scan token codes).2) := by
  simp only [scanRow]
  split
  · rfl
  · split <;> rfl

theorem scanRows_counted (scan : StreamScan) (rows : List (Row cfg.nVq)) (count : ℕ) :
    scanRows cfg (scan.counted count) rows =
    ((scanRows cfg scan rows).1.counted count, (scanRows cfg scan rows).2) := by
  induction rows generalizing scan with
  | nil => rfl
  | cons row rows ih => simp only [scanRows, scanRow_counted, ih]

theorem collect_step (scan : StreamScan) (out : List (Row cfg.nVq)) (row : Row cfg.nVq) :
    collectMossStreamRows cfg prefixRows (out ++ [row]) (some row.text) (scan.counted out.length) =
      ((scanRows cfg scan [row]).1.counted (out.length + 1), (scanRows cfg scan [row]).2) := by
  have hfrs : (out ++ [row]).drop (min out.length (out ++ [row]).length) = [row] := by
    rw [length_append, Nat.min_eq_left (Nat.le_add_right _ _), drop_left]
  simp only [collectMossStreamRows, StreamScan.counted, if_true, hfrs, nil_append]
  have hst := scanRows_counted scan [row] out.length
  simp only [StreamScan.counted] at hst
  simp [hst]

theorem streamChunks_counted (prefixRows rows : List (Row cfg.nVq)) (scan : StreamScan)
    (out : List (Row cfg.nVq)) :
    (streamChunks cfg prefixRows (scan.counted out.length) out rows).flatten =
      (scanRows cfg scan rows).2 := by
  induction rows generalizing scan out with
  | nil => rfl
  | cons row rows ih =>
    have hlater := ih (scanRows cfg scan [row]).1 (out ++ [row])
    rw [length_append, length_singleton] at hlater
    rw [streamChunks, collect_step]
    have happend := scanRows_append scan [row] rows
    rw [singleton_append] at happend
    rw [happend, ← hlater]
    cases hsent : (scanRows cfg scan [row]).2 with
    | nil => rfl
    | cons => rfl

/-- The chunks of a stream are the scan of prefix and output, once there is an output row. -/
theorem streamChunks_flatten (hne : rows ≠ []) :
    (streamChunks cfg prefixRows {} [] rows).flatten =
      (scanRows cfg {} (prefixRows ++ rows)).2 := by
  cases rows with
  | nil => exact absurd rfl hne
  | cons row rows =>
    have hcall : collectMossStreamRows cfg prefixRows ([] ++ [row]) (some row.text) {} =
        ((scanRows cfg {} (prefixRows ++ [row])).1.counted 1,
          (scanRows cfg {} (prefixRows ++ [row])).2) := by
      rw [scanRows_append]
      rfl
    have hlater := streamChunks_counted prefixRows rows
      (scanRows cfg {} (prefixRows ++ [row])).1 ([] ++ [row])
    rw [streamChunks, hcall]
    have happend := scanRows_append {} (prefixRows ++ [row]) rows
    rw [append_assoc, singleton_append] at happend
    rw [happend, ← hlater]
    cases hsent : (scanRows cfg {} (prefixRows ++ [row])).2 with
    | nil => rfl
    | cons => rfl

theorem Payload.scan_rows {i j : ℕ} {whole : Bool} (h : Payload cfg i j rows whole)
    (ha : scan.audioActive = true) (hended : scan.audioEnded = false) :
    scanRows cfg scan rows = (scan, rows.map Row.codes) := by
  have htext := h.text
  clear h
  obtain ⟨active, ended, scanned, count⟩ := scan
  obtain rfl : active = true := ha
  obtain rfl : ended = false := hended
  induction rows with
  | nil => rfl
  | cons row rows ih =>
    have hrow : row.text ≠ cfg.audioStartTokenId ∧ row.text ≠ cfg.audioEndTokenId := by
      rcases htext row mem_cons_self with heq | heq
      · exact heq ▸ ⟨gen_plain.1, gen_plain.2.1⟩
      · exact heq ▸ ⟨delay_plain.1, delay_plain.2.1⟩
    have hst : scanRow cfg ⟨true, false, scanned, count⟩ row.text row.codes =
        (⟨true, false, scanned, count⟩, [row.codes]) := by
      simp [scanRow, hrow]
    rw [scanRows_cons hst, ih fun row hmem => htext row (mem_cons_of_mem _ hmem)]
    rfl

theorem Transcript.scan_rows {payloads : List (List (Row cfg.nVq))}
    (h : Transcript cfg rows payloads) (ha : scan.audioActive = false) :
    (scanRows cfg scan rows).2 = payloads.flatten.map Row.codes := by
  induction h generalizing scan with
  | nil => rfl
  | @text row rest payloads hpln _ _ ih =>
    have hgen := hpln.gen
    have hst : scanRow cfg scan row.text row.codes =
        ({ scan with audioActive := false }, []) := by
      simp [scanRow, hpln.start, hpln.stop, ha, hgen]
    rw [scanRows_cons hst]
    exact ih rfl
  | @audio first last payload rest payloads hfst _ hpay hlast _ _ ih =>
    have hst : scanRow cfg scan first.text first.codes =
        ({ scan with audioActive := true, audioEnded := false }, []) := if_pos hfst
    have hend : scanRow cfg { scan with audioActive := true, audioEnded := false } last.text
        last.codes = ({ scan with audioActive := false, audioEnded := true }, []) := by
      simp [scanRow, hlast, start_ne_end.symm]
    have hrest : (scanRows cfg { scan with audioActive := false, audioEnded := true } rest).2 =
        payloads.flatten.map Row.codes := ih rfl
    rw [scanRows_cons hst, scanRows_append, hpay.scan_rows rfl rfl, scanRows_cons hend,
      flatten_cons, map_append, ← hrest]
    rfl
  | @cut first payload hfst _ hpay =>
    have hst : scanRow cfg scan first.text first.codes =
        ({ scan with audioActive := true, audioEnded := false }, []) := if_pos hfst
    rw [scanRows_cons hst, hpay.scan_rows rfl rfl, flatten_singleton]
    rfl

end Scan

/-! ## The streaming vocoder -/

section Vocoder

variable {n : ℕ} {pad : ℕ} {state : MossStreamState n} {rows queue : List (Codes n)}

theorem modify_length_concat {α : Type*} (xs : List α) (x : α) (f : α → α) :
    (xs ++ [x]).modify xs.length f = xs ++ [f x] := by
  induction xs with
  | nil => rfl
  | cons y xs ih => rw [cons_append, length_cons, modify_succ_cons, ih]; rfl

/-- The rows received so far have been taken apart: `taken` are the frames that stand in segments
or between them, `queue` those that are being taken. -/
structure Collected (pad : ℕ) (rows : List (Codes n)) (state : MossStreamState n)
    (queue taken : List (Codes n)) (done : List (List (Codes n))) (cur : List (Codes n)) :
    Prop where
  window : Delay.OpenWindow rows (taken ++ (queue ++ state.pendingRawFrames)) state.delayWindow
  runs : Delay.OpenRun (nonPad pad) taken done cur
  segments : state.segments.map MossSegmentState.frames =
    done ++ if cur.isEmpty then [] else [cur]
  active : state.activeSegment = if cur.isEmpty then none else some done.length

namespace Collected

variable {taken cur : List (Codes n)} {done : List (List (Codes n))}

theorem ingestRow (h : Collected pad rows state [] taken done cur) (row : Codes n) :
    Collected pad (rows ++ [row]) (state.ingestRow row) [] taken done cur := by
  rw [MossStreamState.ingestRow]
  by_cases hfull : n ≤ (state.delayWindow ++ [row]).length
  · rw [dif_pos hfull]
    refine ⟨?_, h.runs, h.segments, h.active⟩
    have hw := h.window.snoc_full hfull
    rw [append_assoc] at hw
    exact hw
  · rw [dif_neg hfull]
    exact ⟨h.window.snoc_short (not_le.mp hfull), h.runs, h.segments, h.active⟩

theorem ingest (h : Collected pad rows state [] taken done cur) (chunk : List (Codes n)) :
    Collected pad (rows ++ chunk) (state.ingest chunk) [] taken done cur := by
  induction chunk generalizing rows state with
  | nil => rwa [append_nil]
  | cons row chunk ih =>
    have hnext := ih (h.ingestRow row)
    rwa [append_assoc, singleton_append] at hnext

/-- The segments without the one that is open, and that one. -/
theorem split (h : Collected pad rows state queue taken done cur) (hne : cur.isEmpty = false) :
    ∃ closed last, state.segments = closed ++ [last] ∧
      closed.map MossSegmentState.frames = done ∧ last.frames = cur ∧
        state.activeSegment = some closed.length := by
  have hs := h.segments
  rw [hne] at hs
  obtain ⟨closed, tail, hspl, hc, htail⟩ := map_eq_append_iff.mp hs
  obtain ⟨last, rfl, hlast⟩ := map_eq_singleton_iff.mp htail
  refine ⟨closed, last, hspl, hc, hlast, ?_⟩
  have ha := h.active
  rw [hne] at ha
  rw [ha, ← hc, length_map]
  rfl

theorem closeActiveSegment (h : Collected pad rows state queue taken done cur) :
    (state.closeActiveSegment).segments.map MossSegmentState.frames =
        done ++ (if cur.isEmpty then [] else [cur]) ∧
      (state.closeActiveSegment).activeSegment = none ∧
      (state.closeActiveSegment).pendingRawFrames = state.pendingRawFrames ∧
      (state.closeActiveSegment).delayWindow = state.delayWindow := by
  rw [MossStreamState.closeActiveSegment]
  cases hcur : cur.isEmpty with
  | true =>
    have ha := h.active
    rw [hcur] at ha
    have hs := h.segments
    rw [hcur] at hs
    rw [show state.activeSegment = none from ha]
    exact ⟨hs, ha, rfl, rfl⟩
  | false =>
    obtain ⟨closed, last, hspl, hc, hlast, ha⟩ := h.split hcur
    rw [ha]
    refine ⟨?_, rfl, rfl, rfl⟩
    show (state.segments.modify closed.length _).map MossSegmentState.frames = _
    rw [hspl, modify_length_concat, map_append, hc]
    show done ++ [last.frames] = _
    rw [hlast]
    rfl

theorem ingestRawFrame {frame : Codes n}
    (h : Collected pad rows state (frame :: queue) taken done cur) :
    ∃ done' cur', Collected pad rows (state.ingestRawFrame pad frame) queue (taken ++ [frame])
      done' cur' := by
  have hw := h.window
  rw [cons_append, ← singleton_append, ← append_assoc] at hw
  have hlive : nonPad pad frame = !(isPad pad frame || !isComplete pad frame) := by
    rw [nonPad, Bool.not_or, Bool.not_not]
  rw [MossStreamState.ingestRawFrame]
  cases hbreak : isPad pad frame || !isComplete pad frame with
  | true =>
    rw [hbreak] at hlive
    obtain ⟨hs, ha, hpnd, hrows⟩ := h.closeActiveSegment
    refine ⟨_, [], ⟨?_, h.runs.snoc_neg hlive, ?_, ha⟩⟩
    · simp only [if_true]
      rw [hpnd, hrows]
      exact hw
    · rw [if_pos rfl, hs]
      exact (append_nil _).symm
  | false =>
    rw [hbreak] at hlive
    have hruns := h.runs.snoc_pos hlive
    rw [if_neg Bool.false_ne_true]
    have hlast : (cur ++ [frame]).isEmpty = false := by simp
    cases hcur : cur.isEmpty with
    | true =>
      have ha := h.active
      have hs := h.segments
      rw [hcur, if_pos rfl] at ha hs
      rw [append_nil] at hs
      rw [ha]
      refine ⟨done, cur ++ [frame], ⟨hw, hruns, ?_, ?_⟩⟩
      · rw [hlast, List.isEmpty_iff.mp hcur]
        show (state.segments ++ [_]).map MossSegmentState.frames = _
        rw [map_append, hs]
        rfl
      · rw [hlast, ← hs, length_map]
        rfl
    | false =>
      obtain ⟨closed, last, hspl, hc, hcurrent, ha⟩ := h.split hcur
      rw [ha]
      refine ⟨done, cur ++ [frame], ⟨hw, hruns, ?_, ?_⟩⟩
      · rw [hlast]
        show (state.segments.modify closed.length _).map MossSegmentState.frames = _
        rw [hspl, modify_length_concat, map_append, hc]
        show done ++ [last.frames ++ [frame]] = _
        rw [hcurrent]
        rfl
      · rw [hlast, ← hc, length_map]
        rfl

theorem drain (h : Collected pad rows state queue taken done cur) :
    ∃ done' cur', Collected pad rows (queue.foldl (MossStreamState.ingestRawFrame pad) state) []
      (taken ++ queue) done' cur' := by
  induction queue generalizing state taken done cur with
  | nil => exact ⟨done, cur, by rwa [append_nil]⟩
  | cons frame queue ih =>
    obtain ⟨done', cur', hnext⟩ := h.ingestRawFrame
    obtain ⟨done'', cur'', hlast⟩ := ih hnext
    rw [append_assoc, singleton_append] at hlast
    exact ⟨done'', cur'', hlast⟩

theorem process (h : Collected pad rows state [] taken done cur) (count : ℕ) :
    ∃ taken' done' cur', Collected pad rows (state.process pad count) [] taken' done' cur' ∧
      taken' = taken ++ state.pendingRawFrames.take count := by
  have hqueued : Collected pad rows
      { state with pendingRawFrames := state.pendingRawFrames.drop count }
      (state.pendingRawFrames.take count) taken done cur := by
    refine ⟨?_, h.runs, h.segments, h.active⟩
    show Delay.OpenWindow rows (taken ++ (state.pendingRawFrames.take count ++
      state.pendingRawFrames.drop count)) _
    rw [take_append_drop]
    exact h.window
  obtain ⟨done', cur', hdrained⟩ := hqueued.drain
  exact ⟨_, done', cur', hdrained, rfl⟩

theorem finish (h : Collected pad rows state [] taken done cur) :
    (state.finish pad).segments.map MossSegmentState.frames =
      Delay.runs (nonPad pad) (Delay.dedelay rows) := by
  obtain ⟨taken', done', cur', hfin, htaken⟩ := h.process state.pendingRawFrames.length
  rw [take_length] at htaken
  rw [MossStreamState.finish, hfin.closeActiveSegment.1, ← hfin.runs.finish, htaken,
    h.window.finish]
  rfl

end Collected

theorem Collected.chunks {taken cur : List (Codes n)} {done : List (List (Codes n))}
    (h : Collected pad rows state [] taken done cur) (processCount : MossStreamState n → ℕ)
    (chunks : List (List (Codes n))) :
    ∃ taken' done' cur', Collected pad (rows ++ chunks.flatten)
      (chunks.foldl (MossStreamState.onChunk pad processCount) state) [] taken' done' cur' := by
  induction chunks generalizing rows state taken done cur with
  | nil => exact ⟨taken, done, cur, by simpa using h⟩
  | cons chunk chunks ih =>
    obtain ⟨_, _, _, hnext, _⟩ := (h.ingest chunk).process (processCount (state.ingest chunk))
    obtain ⟨taken', done', cur', hlast⟩ := ih hnext
    rw [append_assoc] at hlast
    exact ⟨taken', done', cur', hlast⟩

theorem Collected.init (hn : 0 < n) : Collected pad [] ({} : MossStreamState n) [] [] [] [] :=
  ⟨.nil hn, .nil, rfl, rfl⟩

theorem streamedSegments_eq (processCount : MossStreamState cfg.nVq → ℕ)
    (prefixRows rows : List (Row cfg.nVq)) :
    streamedSegments cfg processCount prefixRows rows = Delay.runs (nonPad cfg.audioPadCode)
        (Delay.dedelay (streamChunks cfg prefixRows {} [] rows).flatten) := by
  obtain ⟨taken, done, cur, hreceived⟩ := (Collected.init cfg.nVq_pos).chunks processCount
    (streamChunks cfg prefixRows {} [] rows)
  exact hreceived.finish

end Vocoder

end Moss

end OmniRealtime
