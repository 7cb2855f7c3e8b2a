import OmniRealtime.Lib.DelayPattern
import OmniRealtime.Speech.MossDelay

/-!
# MOSS-TTS audio, streamed and complete

Two ways lead from the rows of a request to the codec frame segments that are decoded.

1. `collectMossStreamRows`, `streamChunks`: the rows that the stream output builder sends, one
   call behind every step (`request_builders.py`).
2. `MossStreamState`: the streaming vocoder, which takes the delay back row by row and collects
   segments (`streaming_vocoder.py`).
3. `resolveAudioPayloadBounds`, `splitMossAudioSegments`, `finalSegments`: the adapter of the
   complete result and the segments of the non-streaming vocoder (`delay_pattern.py`).
-/

namespace OmniRealtime

namespace Moss

/-! ## The stream output builder -/

section Collect

variable (cfg : DelayConfig)

/-- The stream fields of a request's data. -/
structure StreamScan where
  audioActive : Bool := false
  audioEnded : Bool := false
  prefixScanned : Bool := false
  outputRowCount : ℕ := 0

/-- One row of the scan: its codes are sent between a start of audio and its end. -/
def scanRow (scan : StreamScan) (token : ℕ) (codes : Codes cfg.nVq) :
    StreamScan × List (Codes cfg.nVq) :=
  if token = cfg.audioStartTokenId then
    ({ scan with audioActive := true, audioEnded := false }, [])
  else if token = cfg.audioEndTokenId then
    ({ scan with audioActive := false, audioEnded := true }, [])
  else
    let active := scan.audioActive || token == cfg.audioAssistantGenSlotTokenId
    ({ scan with audioActive := active }, if active && !scan.audioEnded then [codes] else [])

def scanRows (scan : StreamScan) : List (Row cfg.nVq) → StreamScan × List (Codes cfg.nVq)
  | [] => (scan, [])
  | row :: rest =>
    let (next, sent) := scanRow cfg scan row.text row.codes
    let (last, others) := scanRows next rest
    (last, sent ++ others)

/-- `_collect_moss_stream_rows`: the assistant prefix at the first call, then the output rows that
no call has seen. The last output row takes its token from the step's output, if it has one. -/
def collectMossStreamRows (prefixRows outputRows : List (Row cfg.nVq)) (data : Option ℕ)
    (scan : StreamScan) : StreamScan × List (Codes cfg.nVq) :=
  let (scanned, fromPrefix) :=
    if scan.prefixScanned then (scan, []) else scanRows cfg scan prefixRows
  let start := min scan.outputRowCount outputRows.length
  let fresh := (outputRows.drop start).mapIdx fun i row =>
    match data with
    | none => row
    | some token => if start + i + 1 = outputRows.length then { row with text := token } else row
  let (last, sent) := scanRows cfg scanned fresh
  ({ last with prefixScanned := true, outputRowCount := outputRows.length }, fromPrefix ++ sent)

/-- The chunks that are sent while the rows in `rest` are put out one by one: the builder runs
behind every step, with the step's token, and sends what it has collected. -/
def streamChunks (prefixRows : List (Row cfg.nVq)) (scan : StreamScan)
    (outputRows : List (Row cfg.nVq)) : List (Row cfg.nVq) → List (List (Codes cfg.nVq))
  | [] => []
  | row :: rest =>
    let (next, rows) :=
      collectMossStreamRows cfg prefixRows (outputRows ++ [row]) (some row.text) scan
    let later := streamChunks prefixRows next (outputRows ++ [row]) rest
    if rows.isEmpty then later else rows :: later

end Collect

/-! ## The streaming vocoder -/

section Vocoder

structure MossSegmentState (n : ℕ) where
  frames : List (Codes n) := []
  closed : Bool := false

/-- `_MossStreamState`: what it knows about rows, frames and segments. -/
structure MossStreamState (n : ℕ) where
  delayWindow : List (Codes n) := []
  pendingRawFrames : List (Codes n) := []
  segments : List (MossSegmentState n) := []
  activeSegment : Option ℕ := none
  delayedCount : ℕ := 0

variable {n : ℕ}

def isPad (audioPadCode : ℕ) (frame : Codes n) : Bool := decide (∀ c, frame c = audioPadCode)

def isComplete (audioPadCode : ℕ) (frame : Codes n) : Bool := decide (∀ c, frame c < audioPadCode)

/-- A frame that is decoded. -/
def nonPad (audioPadCode : ℕ) (frame : Codes n) : Bool :=
  !isPad audioPadCode frame && isComplete audioPadCode frame

namespace MossStreamState

def ingestRow (state : MossStreamState n) (row : Codes n) : MossStreamState n :=
  let window := state.delayWindow ++ [row]
  let count := state.delayedCount + 1
  if h : n ≤ window.length then
    { state with
      delayWindow := window.tail
      pendingRawFrames := state.pendingRawFrames ++ [Delay.diagonal window h]
      delayedCount := count }
  else { state with delayWindow := window, delayedCount := count }

def ingest (state : MossStreamState n) (rows : List (Codes n)) : MossStreamState n :=
  rows.foldl ingestRow state

def closeActiveSegment (state : MossStreamState n) : MossStreamState n :=
  match state.activeSegment with
  | none => state
  | some i =>
    { state with
      segments := state.segments.modify i fun segment => { segment with closed := true }
      activeSegment := none }

def ingestRawFrame (audioPadCode : ℕ) (state : MossStreamState n) (frame : Codes n) :
    MossStreamState n :=
  if isPad audioPadCode frame || !isComplete audioPadCode frame then state.closeActiveSegment
  else
    match state.activeSegment with
    | none =>
      { state with
        segments := state.segments ++ [{ frames := [frame] }]
        activeSegment := some state.segments.length }
    | some i =>
      { state with
        segments := state.segments.modify i fun segment =>
          { segment with frames := segment.frames ++ [frame] } }

/-- The first `count` of the frames that wait are taken into segments. -/
def process (audioPadCode count : ℕ) (state : MossStreamState n) : MossStreamState n :=
  (state.pendingRawFrames.take count).foldl (ingestRawFrame audioPadCode)
    { state with pendingRawFrames := state.pendingRawFrames.drop count }

/-- A chunk: its rows are ingested, then `decode_delta` takes `processCount` of the frames that
wait, which depends on the strides, the holdback and what was emitted before. -/
def onChunk (audioPadCode : ℕ) (processCount : MossStreamState n → ℕ) (state : MossStreamState n)
    (rows : List (Codes n)) : MossStreamState n :=
  let ingested := state.ingest rows
  ingested.process audioPadCode (processCount ingested)

/-- `decode_delta` at the end of the stream takes all frames and closes the last segment. -/
def finish (audioPadCode : ℕ) (state : MossStreamState n) : MossStreamState n :=
  (state.process audioPadCode state.pendingRawFrames.length).closeActiveSegment

end MossStreamState

/-- The segments of a stream, when it has ended. -/
def streamedSegments (cfg : DelayConfig) (processCount : MossStreamState cfg.nVq → ℕ)
    (prefixRows rows : List (Row cfg.nVq)) : List (List (Codes cfg.nVq)) :=
  let received := (streamChunks cfg prefixRows {} [] rows).foldl
    (MossStreamState.onChunk cfg.audioPadCode processCount) {}
  (received.finish cfg.audioPadCode).segments.map MossSegmentState.frames

end Vocoder

/-! ## The complete result -/

section Final

variable (cfg : DelayConfig)

/-- The first position of a token in `text[start:]`, counted from the start of `text`. -/
def firstFrom (text : List ℕ) (start token : ℕ) : Option ℕ :=
  ((text.drop start).findIdx? (· == token)).map (start + ·)

/-- The last position of a token in `text[start:]`. -/
def lastFrom (text : List ℕ) (start token : ℕ) : Option ℕ :=
  ((List.range text.length).filter fun i => decide (start ≤ i) && text[i]? == some token).getLast?

/-- Where the payload starts: behind the first start of audio, or else at the first generation
slot. -/
def payloadStart (text : List ℕ) : Option ℕ :=
  match firstFrom text 0 cfg.audioStartTokenId with
  | some i => some (i + 1)
  | none => firstFrom text 0 cfg.audioAssistantGenSlotTokenId

/-- Where it stops: at the next end of audio, or else behind the last slot. -/
def payloadStop (text : List ℕ) (start : ℕ) : Option ℕ :=
  match firstFrom text start cfg.audioEndTokenId with
  | some i => some i
  | none =>
    ([cfg.audioAssistantGenSlotTokenId, cfg.audioAssistantDelaySlotTokenId].filterMap
      fun token => (lastFrom text start token).map (· + 1)).max?

def resolveAudioPayloadBounds (rows : List (Row cfg.nVq)) : Option (ℕ × ℕ) := do
  let text := rows.map Row.text
  let start ← payloadStart cfg text
  let stop ← payloadStop cfg text start
  if stop ≤ start ∨ stop ≤ start + cfg.nVq then none else some (start, stop)

variable {n : ℕ}

/-- The first segment is trimmed, and what is left empty is dropped. -/
def trimFirst (assistantStartLength : ℕ) (codeSegments : List (List (Codes n))) :
    List (List (Codes n)) :=
  match codeSegments with
  | [] => []
  | first :: rest =>
    ((first.drop (min assistantStartLength first.length)) :: rest).filter (!·.isEmpty)

/-- `split_moss_audio_segments`: `out[t, c] = delayed[t + c, c]`, the complete frames with their
positions, cut where a position does not follow the last one, and the first segment trimmed. -/
def splitMossAudioSegments (audioPadCode assistantStartLength : ℕ) (delayed : List (Codes n)) :
    List (List (Codes n)) :=
  let audioCodes : List (Codes n) :=
    (List.range (delayed.length + 1 - n)).map fun t c => ((delayed[t + c.1]?).map (· c)).getD 0
  let idx := audioCodes.zipIdx.filter fun frame => nonPad audioPadCode frame.1
  let segments := idx.splitBy fun a b => b.2 == a.2 + 1
  let codeSegments := segments.map fun segment => segment.map Prod.fst
  if 0 < assistantStartLength then trimFirst assistantStartLength codeSegments else codeSegments

/-- `apply_sglang_moss_tts_result`, then the segments that the vocoder decodes. -/
def finalSegments (prefixRows rows : List (Row cfg.nVq)) : List (List (Codes cfg.nVq)) :=
  if rows.isEmpty then []
  else
    let all := prefixRows ++ rows
    match resolveAudioPayloadBounds cfg all with
    | none =>
      splitMossAudioSegments cfg.audioPadCode prefixRows.length (all.map Row.codes)
    | some (start, stop) =>
      splitMossAudioSegments cfg.audioPadCode 0
        (((all.drop start).take (stop - start)).map Row.codes)

end Final

end Moss

end OmniRealtime
