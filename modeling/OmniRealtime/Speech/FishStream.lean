import OmniRealtime.Lib.CrossFade

/-!
# The streaming vocoder of Fish S2-Pro

Code tokens arrive in chunks. A window of them is decoded with some tokens before it that were
decoded already, whose samples are cut off again; the end of what is left is held back and blended
into the next window.

1. `trimLoop_eq`: the codes that are kept.
2. `applyCrossfade_eq`: what a window adds to the line, and what is held back of it.
3. `Vocoding.build`: the line after a window.
4. `fish_stream_tiles`: the audio of a stream.
-/

namespace OmniRealtime

namespace FishStream

open List CrossFade

/-- A codec, and how the scheduler uses it. -/
structure StreamCodec (τ α : Type) where
  frameLength : ℕ
  fromIndices : List τ → List α
  mix : ℕ → ℕ → α → α → α
  streamStride : ℕ
  streamFollowupStride : ℕ
  streamOverlapTokens : ℕ
  streamCrossfadeSamples : ℕ
  frameLength_pos : 0 < frameLength
  length_fromIndices : ∀ tokens, (fromIndices tokens).length = tokens.length * frameLength

/-- `_StreamVocoderState`. -/
structure StreamVocoderState (τ α : Type) where
  codes : List (List τ) := []
  codeStartToken : ℕ := 0
  lastVocodeTokens : ℕ := 0
  nextVocodeTokens : ℕ := 0
  pendingTail : Option (List α) := none
  totalTokens : ℕ := 0

variable {τ α : Type} (codec : StreamCodec τ α)

/-! ## The source -/

/-- The loop of `trim_retained_stream_codes`. -/
def trimLoop : List (List τ) → ℕ → ℕ → List (List τ) × ℕ
  | [], _, start => ([], start)
  | first :: rest, drop, start =>
    if drop = 0 then (first :: rest, start)
    else if first.length ≤ drop then trimLoop rest (drop - first.length) (start + first.length)
    else (first.drop drop :: rest, start + drop)

def StreamVocoderState.trimRetained (s : StreamVocoderState τ α) (keepFromToken : ℕ) :
    StreamVocoderState τ α :=
  if keepFromToken ≤ s.codeStartToken then s
  else
    let (codes, start) := trimLoop s.codes (keepFromToken - s.codeStartToken) s.codeStartToken
    { s with codes := codes, codeStartToken := start }

/-- `_apply_stream_crossfade`. -/
def applyCrossfade (s : StreamVocoderState τ α) (delta : List α) (isFinal : Bool) :
    StreamVocoderState τ α × Option (List α) :=
  let tail := s.pendingTail.getD []
  let crossfade := min codec.streamCrossfadeSamples (min tail.length delta.length)
  let delta :=
    if tail = [] then delta
    else if 0 < crossfade then crossFade codec.mix crossfade tail delta
    else tail ++ delta
  if isFinal then ({ s with pendingTail := none }, some delta)
  else
    let hold := min codec.streamCrossfadeSamples delta.length
    let pending := if 0 < hold then some (delta.drop (delta.length - hold)) else none
    let delta := if 0 < hold then delta.take (delta.length - hold) else delta
    ({ s with pendingTail := pending }, if delta = [] then none else some delta)

/-- What is emitted of a window; without a cross-fade it is all of it. -/
def fade (s : StreamVocoderState τ α) (delta : List α) (isFinal : Bool) :
    StreamVocoderState τ α × Option (List α) :=
  if 0 < codec.streamCrossfadeSamples then applyCrossfade codec s delta isFinal
  else (s, some delta)

/-- `_build_stream_vocoder_chunk`. -/
def buildWindow (s : StreamVocoderState τ α) (isFinal : Bool) :
    StreamVocoderState τ α × Option (List α) :=
  if s.codes = [] then (s, none)
  else if s.totalTokens ≤ s.lastVocodeTokens then
    if isFinal = false ∨ s.pendingTail.getD [] = [] then (s, none)
    else ({ s with pendingTail := none }, s.pendingTail)
  else
    let windowStart := max s.codeStartToken (s.lastVocodeTokens - codec.streamOverlapTokens)
    let windowCodes := s.codes.flatten.drop (windowStart - s.codeStartToken)
    let audio := codec.fromIndices windowCodes
    let overlapSamples := (s.lastVocodeTokens - windowStart) * codec.frameLength
    if audio.length ≤ overlapSamples then (s, none)
    else
      let faded := fade codec s (audio.drop overlapSamples) isFinal
      let done := { faded.1 with lastVocodeTokens := s.totalTokens }
      let keepFromToken := s.totalTokens - codec.streamOverlapTokens
      (if faded.2.isNone || !isFinal then done.trimRetained keepFromToken else done, faded.2)

/-- `build_stream_vocoder_chunk`. -/
def buildChunk (s : StreamVocoderState τ α) (codes : List τ) :
    StreamVocoderState τ α × Option (List α) :=
  let total := s.totalTokens + codes.length
  let s := { s with codes := s.codes ++ [codes], totalTokens := total }
  let next := if s.nextVocodeTokens = 0 then codec.streamStride else s.nextVocodeTokens
  if total < next then ({ s with nextVocodeTokens := next }, none)
  else
    let (s, chunk) := buildWindow codec s false
    ({ s with nextVocodeTokens := total + codec.streamFollowupStride }, chunk)

/-- `flush_stream_vocoder_chunk`. -/
def flush (s : StreamVocoderState τ α) : StreamVocoderState τ α × Option (List α) :=
  let tail := s.pendingTail.getD []
  if s.codes = [] then
    if tail = [] then (s, none) else ({ s with pendingTail := none }, some tail)
  else if s.totalTokens ≤ s.lastVocodeTokens ∧ tail = [] then (s, none)
  else buildWindow codec s true

/-- The chunks of a stream, and the audio that is emitted for them. -/
def stream (chunks : List (List τ)) : StreamVocoderState τ α × List α :=
  chunks.foldl (fun (s, audio) codes =>
    ((buildChunk codec s codes).1, audio ++ (buildChunk codec s codes).2.getD [])) ({}, [])

/-! ## Windows -/

/-- The tokens from `first` to `last`, blended over `width` samples with the line before them. -/
structure Window where
  width : ℕ
  first : ℕ
  last : ℕ

/-- The samples of a window, decoded with the context it has. -/
def StreamCodec.piece (tokens : List τ) (w : Window) : Piece α where
  width := w.width
  samples := (codec.fromIndices
    ((tokens.take w.last).drop (w.first - codec.streamOverlapTokens))).drop
      ((w.first - (w.first - codec.streamOverlapTokens)) * codec.frameLength)

/-- Windows one after the other, from the first token on. -/
inductive Follows (bound : ℕ) : List Window → ℕ → Prop
  | nil : Follows bound [] 0
  | snoc {ws : List Window} {first : ℕ} (h : Follows bound ws first) {width last : ℕ}
      (hwidth : width ≤ bound) (hlast : first < last) :
      Follows bound (ws ++ [⟨width, first, last⟩]) last

/-- The samples of a token depend on it and the tokens that the scheduler decodes before it. -/
def StreamCodec.Local : Prop :=
  ∃ voice : List τ → List α, ∀ tokens, codec.fromIndices tokens = (range tokens.length).flatMap
    fun i => voice ((tokens.take (i + 1)).drop (i - codec.streamOverlapTokens))

variable {codec} {tokens : List τ} {s : StreamVocoderState τ α} {audio : List α} {ws : List Window}
  {bound e : ℕ}

theorem length_piece {w : Window} (hw : w.first ≤ w.last) (hlast : w.last ≤ tokens.length) :
    (codec.piece tokens w).samples.length = (w.last - w.first) * codec.frameLength := by
  rw [StreamCodec.piece, length_drop, codec.length_fromIndices, length_drop,
    length_take_of_le hlast, ← Nat.mul_sub_right_distrib]
  congr 1
  omega

theorem Follows.last_le (h : Follows bound ws e) : ∀ w ∈ ws, w.first ≤ w.last ∧ w.last ≤ e := by
  induction h with
  | nil => exact fun w hw => absurd hw not_mem_nil
  | snoc h _ hlast ih =>
    intro w hw
    rcases mem_append.mp hw with hw | hw
    · exact ⟨(ih w hw).1, (ih w hw).2.trans hlast.le⟩
    · obtain rfl := mem_singleton.mp hw
      exact ⟨hlast.le, le_rfl⟩

theorem Follows.width_le (h : Follows bound ws e) : ∀ w ∈ ws, w.width ≤ bound := by
  induction h with
  | nil => exact fun w hw => absurd hw not_mem_nil
  | snoc _ hwidth _ ih =>
    intro w hw
    rcases mem_append.mp hw with hw | hw
    · exact ih w hw
    · exact mem_singleton.mp hw ▸ hwidth

theorem Follows.map_append (h : Follows bound ws e) (he : e ≤ tokens.length) (more : List τ) :
    ws.map (codec.piece (tokens ++ more)) = ws.map (codec.piece tokens) := by
  refine map_congr_left fun w hw => ?_
  rw [StreamCodec.piece, take_append_of_le_length ((h.last_le w hw).2.trans he)]
  rfl

theorem Follows.sum_length (h : Follows bound ws e) (he : e ≤ tokens.length) :
    ((ws.map (codec.piece tokens)).map fun p => p.samples.length).sum = e * codec.frameLength := by
  induction h with
  | nil => simp
  | @snoc ws first h width last _ hlast ih =>
    rw [List.map_append, List.map_append, sum_append, ih (hlast.le.trans he)]
    have hpiece : (codec.piece tokens ⟨width, first, last⟩).samples.length =
        (last - first) * codec.frameLength := length_piece hlast.le he
    rw [map_singleton, map_singleton, sum_singleton, hpiece, ← Nat.add_mul,
      Nat.add_sub_cancel' hlast.le]

section

variable {voice : List τ → List α}
  (hvoice : ∀ tokens, codec.fromIndices tokens = (range tokens.length).flatMap
    fun i => voice ((tokens.take (i + 1)).drop (i - codec.streamOverlapTokens)))

include hvoice

theorem fromIndices_take (he : e ≤ tokens.length) :
    codec.fromIndices tokens = codec.fromIndices (tokens.take e) ++
      (range' e (tokens.length - e)).flatMap
        fun i => voice ((tokens.take (i + 1)).drop (i - codec.streamOverlapTokens)) := by
  have hrange : range tokens.length = range e ++ range' e (tokens.length - e) := by
    have happend : range' 0 e ++ range' (0 + e) (tokens.length - e) = _ := range'_append_1
    rw [Nat.zero_add, Nat.add_sub_cancel' he] at happend
    rw [range_eq_range', range_eq_range', happend]
  rw [hvoice, hrange, flatMap_append, hvoice, length_take_of_le he]
  congr 1
  refine flatMap_congr fun i hi => ?_
  rw [take_take, min_eq_left (mem_range.mp hi)]

/-- A window sounds as it does within the whole. -/
theorem fromIndices_append {width first last : ℕ} (hlast : first ≤ last)
    (he : last ≤ tokens.length) :
    codec.fromIndices (tokens.take first) ++ (codec.piece tokens ⟨width, first, last⟩).samples =
      codec.fromIndices (tokens.take last) := by
  have hshort : tokens.take first = (tokens.take last).take first := by
    rw [take_take, min_eq_left hlast]
  rw [StreamCodec.piece, hshort]
  have hlen : (tokens.take last).length = last := length_take_of_le he
  generalize tokens.take last = tokens at hlen
  subst hlen
  generalize hstart : first - codec.streamOverlapTokens = start
  have hinside : first - start ≤ (tokens.drop start).length := by
    rw [length_drop]
    omega
  rw [fromIndices_take hvoice hlast, fromIndices_take hvoice hinside,
    drop_left' (by rw [codec.length_fromIndices, length_take_of_le hinside])]
  congr 1
  rw [length_drop, show tokens.length - start - (first - start) = tokens.length - first by omega,
    show range' first (tokens.length - first) =
      (range' (first - start) (tokens.length - first)).map (start + ·) by
        rw [map_add_range', Nat.add_sub_cancel' (by omega)], flatMap_map]
  refine flatMap_congr fun i hi => ?_
  obtain ⟨hlow, -⟩ := mem_range'_1.mp hi
  rw [take_drop, drop_drop, Nat.add_assoc, show start + (i - codec.streamOverlapTokens) =
    start + i - codec.streamOverlapTokens by omega]

theorem Follows.flatten_eq (h : Follows bound ws e) (he : e ≤ tokens.length) :
    ((ws.map (codec.piece tokens)).map Piece.samples).flatten =
      codec.fromIndices (tokens.take e) := by
  induction h with
  | nil =>
    rw [hvoice]
    rfl
  | snoc h _ hlast ih =>
    rw [List.map_append, List.map_append, flatten_append, ih (hlast.le.trans he),
      ← fromIndices_append hvoice hlast.le he, map_singleton, map_singleton, flatten_singleton]

end

/-! ## The retained codes -/

theorem trimLoop_eq (codes : List (List τ)) {drop : ℕ} (start : ℕ)
    (hdrop : drop ≤ codes.flatten.length) :
    (trimLoop codes drop start).1.flatten = codes.flatten.drop drop ∧
      (trimLoop codes drop start).2 = start + drop := by
  induction codes generalizing drop start with
  | nil =>
    obtain rfl : drop = 0 := Nat.le_zero.mp hdrop
    exact ⟨rfl, rfl⟩
  | cons first rest ih =>
    rw [trimLoop]
    split_ifs with hzero hfirst
    · rw [hzero]
      exact ⟨rfl, rfl⟩
    · rw [flatten_cons, length_append] at hdrop
      have hrest : drop - first.length ≤ rest.flatten.length := by omega
      obtain ⟨hcodes, hstart⟩ := ih (start + first.length) hrest
      refine ⟨?_, by omega⟩
      rw [hcodes, flatten_cons, drop_append, drop_eq_nil_of_le hfirst, nil_append]
    · refine ⟨?_, rfl⟩
      rw [flatten_cons, flatten_cons, drop_append_of_le_length (by omega)]

theorem StreamVocoderState.trimRetained_last (keep : ℕ) :
    (s.trimRetained keep).lastVocodeTokens = s.lastVocodeTokens := by
  unfold StreamVocoderState.trimRetained
  split_ifs <;> rfl

theorem StreamVocoderState.trimRetained_tail (keep : ℕ) :
    (s.trimRetained keep).pendingTail = s.pendingTail := by
  unfold StreamVocoderState.trimRetained
  split_ifs <;> rfl

/-! ## The line -/

/-- What the emitted audio and the tail that is held back make up. -/
structure Vocoding (codec : StreamCodec τ α) (tokens : List τ) (s : StreamVocoderState τ α)
    (audio : List α) : Prop where
  total : s.totalTokens = tokens.length
  vocoded : s.lastVocodeTokens ≤ tokens.length
  start : s.codeStartToken ≤ s.lastVocodeTokens - codec.streamOverlapTokens
  codes : s.codes.flatten = tokens.drop s.codeStartToken
  tail : codec.streamCrossfadeSamples = 0 → s.pendingTail.getD [] = []
  line : ∃ ws, Follows codec.streamCrossfadeSamples ws s.lastVocodeTokens ∧
    Assembled codec.mix (ws.map (codec.piece tokens)) (audio ++ s.pendingTail.getD [])

namespace Vocoding

theorem silent (h : Vocoding codec tokens s audio) :
    Vocoding codec tokens s (audio ++ (none : Option (List α)).getD []) := by
  rwa [Option.getD_none, append_nil]

/-- The tail is emitted alone. -/
theorem emitTail (h : Vocoding codec tokens s audio) :
    Vocoding codec tokens { s with pendingTail := none } (audio ++ s.pendingTail.getD []) where
  total := h.total
  vocoded := h.vocoded
  start := h.start
  codes := h.codes
  tail _ := rfl
  line := by
    obtain ⟨ws, hws, hline⟩ := h.line
    refine ⟨ws, hws, ?_⟩
    rwa [Option.getD_none, append_nil]

theorem trim (h : Vocoding codec tokens s audio) :
    Vocoding codec tokens (s.trimRetained (s.lastVocodeTokens - codec.streamOverlapTokens))
      audio := by
  unfold StreamVocoderState.trimRetained
  split_ifs with hstart
  · exact h
  · generalize hkeep : s.lastVocodeTokens - codec.streamOverlapTokens = keep at hstart ⊢
    have hroom : keep - s.codeStartToken ≤ s.codes.flatten.length := by
      have hvocoded := h.vocoded
      rw [h.codes, length_drop]
      omega
    obtain ⟨hcodes, hcut⟩ := trimLoop_eq s.codes s.codeStartToken hroom
    have hsum : s.codeStartToken + (keep - s.codeStartToken) = keep := by omega
    exact {
      total := h.total
      vocoded := h.vocoded
      start := by
        show (trimLoop _ _ _).2 ≤ _
        rw [hcut, hsum, ← hkeep]
      codes := by
        show (trimLoop _ _ _).1.flatten = tokens.drop (trimLoop _ _ _).2
        rw [hcodes, hcut, h.codes, drop_drop]
      tail := h.tail
      line := h.line }

end Vocoding

/-- The tail is blended into the window, and the end of the two is held back, or nothing at last. -/
theorem applyCrossfade_eq (s : StreamVocoderState τ α) (delta : List α) (isFinal : Bool) :
    ∃ w ≤ codec.streamCrossfadeSamples, w ≤ (s.pendingTail.getD []).length ∧ w ≤ delta.length ∧
      ∃ held, (applyCrossfade codec s delta isFinal).1 = { s with pendingTail := held } ∧
        (isFinal = true → held.getD [] = []) ∧
        (applyCrossfade codec s delta isFinal).2.getD [] ++ held.getD [] =
          crossFade codec.mix w (s.pendingTail.getD []) delta := by
  generalize htail : s.pendingTail.getD [] = tail
  refine ⟨min codec.streamCrossfadeSamples (min tail.length delta.length), min_le_left _ _,
    (min_le_right _ _).trans (min_le_left _ _), (min_le_right _ _).trans (min_le_right _ _), ?_⟩
  have hfaded : (if tail = [] then delta
      else if 0 < min codec.streamCrossfadeSamples (min tail.length delta.length) then
        crossFade codec.mix (min codec.streamCrossfadeSamples (min tail.length delta.length)) tail
          delta
      else tail ++ delta) =
      crossFade codec.mix (min codec.streamCrossfadeSamples (min tail.length delta.length)) tail
        delta := by
    split_ifs with hnil hpos
    · rw [hnil, length_nil, Nat.zero_min, Nat.min_zero, crossFade_zero]
      rfl
    · rfl
    · rw [Nat.eq_zero_of_not_pos hpos, crossFade_zero]
  unfold applyCrossfade
  rw [htail]
  dsimp only
  rw [hfaded]
  generalize crossFade codec.mix _ tail delta = faded
  cases isFinal with
  | true => exact ⟨none, rfl, fun _ => rfl, append_nil _⟩
  | false =>
    have hemitted : ∀ l : List α, (if l = [] then none else some l).getD [] = l := by
      intro l
      split_ifs with hnil
      · exact hnil.symm
      · rfl
    rw [if_neg Bool.false_ne_true]
    refine ⟨_, rfl, fun h => absurd h Bool.false_ne_true, ?_⟩
    dsimp only
    rw [hemitted]
    split_ifs with hhold
    · exact take_append_drop _ _
    · exact append_nil _

theorem fade_eq (s : StreamVocoderState τ α) (delta : List α) (isFinal : Bool)
    (hzero : codec.streamCrossfadeSamples = 0 → s.pendingTail.getD [] = []) :
    ∃ w ≤ codec.streamCrossfadeSamples, w ≤ (s.pendingTail.getD []).length ∧ w ≤ delta.length ∧
      ∃ held, (fade codec s delta isFinal).1 = { s with pendingTail := held } ∧
        (isFinal = true ∨ codec.streamCrossfadeSamples = 0 → held.getD [] = []) ∧
        (fade codec s delta isFinal).2.getD [] ++ held.getD [] =
          crossFade codec.mix w (s.pendingTail.getD []) delta := by
  unfold fade
  split_ifs with hpos
  · obtain ⟨w, hwidth, hout, hin, held, hs, hfinal, hline⟩ :=
      @applyCrossfade_eq _ _ codec s delta isFinal
    exact ⟨w, hwidth, hout, hin, held, hs, fun h => hfinal (h.resolve_right hpos.ne'), hline⟩
  · have htail := hzero (Nat.eq_zero_of_not_pos hpos)
    refine ⟨0, Nat.zero_le _, Nat.zero_le _, Nat.zero_le _, s.pendingTail, rfl, fun _ => htail, ?_⟩
    rw [htail, crossFade_zero, append_nil]
    rfl

namespace Vocoding

/-- A window that is decoded and put on the line. -/
theorem window (h : Vocoding codec tokens s audio) (hnew : s.lastVocodeTokens < tokens.length)
    {w : ℕ} {emitted : List α} {held : Option (List α)} (hwidth : w ≤ codec.streamCrossfadeSamples)
    (hout : w ≤ (s.pendingTail.getD []).length)
    (hin : w ≤ (codec.piece tokens ⟨w, s.lastVocodeTokens, tokens.length⟩).samples.length)
    (hheld : codec.streamCrossfadeSamples = 0 → held.getD [] = [])
    (hline : emitted ++ held.getD [] = crossFade codec.mix w (s.pendingTail.getD [])
      (codec.piece tokens ⟨w, s.lastVocodeTokens, tokens.length⟩).samples) :
    Vocoding codec tokens { s with lastVocodeTokens := s.totalTokens, pendingTail := held }
      (audio ++ emitted) where
  total := h.total
  vocoded := h.total.le
  start := h.start.trans (Nat.sub_le_sub_right (h.total ▸ h.vocoded) _)
  codes := h.codes
  tail := hheld
  line := by
    obtain ⟨ws, hws, hpieces⟩ := h.line
    refine ⟨ws ++ [⟨w, s.lastVocodeTokens, tokens.length⟩], ?_, ?_⟩
    · rw [h.total]
      exact .snoc hws hwidth hnew
    · show Assembled codec.mix _ (audio ++ emitted ++ held.getD [])
      rw [append_assoc, hline, ← crossFade_append audio hout, List.map_append]
      refine .snoc (codec.piece tokens ⟨w, _, _⟩) hpieces ?_ hin
      rw [length_append]
      exact hout.trans (Nat.le_add_left _ _)

/-- The window that is decoded, without the samples of its context. -/
theorem delta_eq (h : Vocoding codec tokens s audio) (w : ℕ) :
    (codec.fromIndices (s.codes.flatten.drop (max s.codeStartToken
      (s.lastVocodeTokens - codec.streamOverlapTokens) - s.codeStartToken))).drop
        ((s.lastVocodeTokens - max s.codeStartToken
          (s.lastVocodeTokens - codec.streamOverlapTokens)) * codec.frameLength) =
      (codec.piece tokens ⟨w, s.lastVocodeTokens, tokens.length⟩).samples := by
  rw [max_eq_right h.start, h.codes, drop_drop, Nat.add_sub_cancel' h.start, StreamCodec.piece,
    take_length]

/-- A window, with what is held back of it. -/
theorem faded (h : Vocoding codec tokens s audio) (hnew : s.lastVocodeTokens < tokens.length)
    (isFinal : Bool) {delta : List α}
    (hdelta : delta = (codec.piece tokens ⟨0, s.lastVocodeTokens, tokens.length⟩).samples) :
    Vocoding codec tokens
        { (fade codec s delta isFinal).1 with lastVocodeTokens := s.totalTokens }
        (audio ++ (fade codec s delta isFinal).2.getD []) ∧
      (isFinal = true → (fade codec s delta isFinal).1.pendingTail.getD [] = []) := by
  subst hdelta
  obtain ⟨w, hwidth, hout, hin, held, hs, hheld, hline⟩ := fade_eq s
    (codec.piece tokens ⟨0, s.lastVocodeTokens, tokens.length⟩).samples isFinal h.tail
  rw [hs]
  exact ⟨h.window hnew hwidth hout hin (fun hzero => hheld (.inr hzero)) hline,
    fun hfinal => hheld (.inl hfinal)⟩

theorem build (h : Vocoding codec tokens s audio) (isFinal : Bool) :
    Vocoding codec tokens (buildWindow codec s isFinal).1
        (audio ++ (buildWindow codec s isFinal).2.getD []) ∧
      (isFinal = true → s.codes ≠ [] →
        (buildWindow codec s isFinal).1.lastVocodeTokens = tokens.length ∧
          (buildWindow codec s isFinal).1.pendingTail.getD [] = []) := by
  unfold buildWindow
  dsimp only
  split_ifs with hcodes hall hquiet haudio htrim
  · exact ⟨h.silent, fun _ hne => absurd hcodes hne⟩
  · refine ⟨h.silent, fun hfinal _ => ⟨le_antisymm h.vocoded (h.total ▸ hall), ?_⟩⟩
    exact hquiet.resolve_left (by simp [hfinal])
  · exact ⟨h.emitTail, fun _ _ => ⟨le_antisymm h.vocoded (h.total ▸ hall), rfl⟩⟩
  · -- the tokens that are new have samples
    have hnew : s.lastVocodeTokens < tokens.length := h.total ▸ not_le.mp hall
    have hpiece := congrArg length (h.delta_eq 0)
    rw [length_drop, Nat.sub_eq_zero_of_le haudio, length_piece hnew.le le_rfl] at hpiece
    exact absurd hpiece (Nat.mul_pos (Nat.sub_pos_of_lt hnew) codec.frameLength_pos).ne
  · obtain ⟨hdone, hheld⟩ := h.faded (h.total ▸ not_le.mp hall) isFinal (h.delta_eq 0)
    refine ⟨hdone.trim, fun hfinal _ => ⟨?_, ?_⟩⟩
    · rw [StreamVocoderState.trimRetained_last]
      exact h.total
    · rw [StreamVocoderState.trimRetained_tail]
      exact hheld hfinal
  · obtain ⟨hdone, hheld⟩ := h.faded (h.total ▸ not_le.mp hall) isFinal (h.delta_eq 0)
    exact ⟨hdone, fun hfinal _ => ⟨h.total, hheld hfinal⟩⟩

theorem chunk (h : Vocoding codec tokens s audio) (codes : List τ) :
    Vocoding codec (tokens ++ codes) (buildChunk codec s codes).1
      (audio ++ (buildChunk codec s codes).2.getD []) := by
  have hstart : s.codeStartToken ≤ tokens.length :=
    (h.start.trans (Nat.sub_le _ _)).trans h.vocoded
  have hmore : Vocoding codec (tokens ++ codes)
      { s with codes := s.codes ++ [codes], totalTokens := s.totalTokens + codes.length } audio :=
    { total := by rw [length_append, ← h.total]
      vocoded := h.vocoded.trans (by rw [length_append]; exact Nat.le_add_right _ _)
      start := h.start
      codes := by
        show (s.codes ++ [codes]).flatten = _
        rw [flatten_append, h.codes, drop_append_of_le_length hstart, flatten_singleton]
      tail := h.tail
      line := by
        obtain ⟨ws, hws, hline⟩ := h.line
        exact ⟨ws, hws, by rwa [hws.map_append h.vocoded]⟩ }
  unfold buildChunk
  dsimp only
  generalize (if s.nextVocodeTokens = 0 then codec.streamStride else s.nextVocodeTokens) = next
  split_ifs
  · exact { hmore.silent with }
  · exact { (hmore.build false).1 with }

theorem flush (h : Vocoding codec tokens s audio) :
    Vocoding codec tokens (flush codec s).1 (audio ++ (flush codec s).2.getD []) ∧
      (FishStream.flush codec s).1.lastVocodeTokens = tokens.length ∧
      (FishStream.flush codec s).1.pendingTail.getD [] = [] := by
  have hnone : s.codes = [] → s.lastVocodeTokens = tokens.length := by
    intro hcodes
    have hall := h.codes
    rw [hcodes, flatten_nil, eq_comm, drop_eq_nil_iff] at hall
    exact le_antisymm h.vocoded ((hall.trans h.start).trans (Nat.sub_le _ _))
  unfold FishStream.flush
  dsimp only
  split_ifs with hcodes htail hdone
  · exact ⟨h.silent, hnone hcodes, htail⟩
  · exact ⟨h.emitTail, hnone hcodes, rfl⟩
  · exact ⟨h.silent, le_antisymm h.vocoded (h.total ▸ hdone.1), hdone.2⟩
  · obtain ⟨hbuild, hend⟩ := h.build true
    exact ⟨hbuild, hend rfl hcodes⟩

end Vocoding

theorem stream_vocoding (chunks : List (List τ)) :
    Vocoding codec chunks.flatten (stream codec chunks).1 (stream codec chunks).2 := by
  induction chunks using List.reverseRecOn with
  | nil =>
    exact {
      total := rfl
      vocoded := le_rfl
      start := Nat.zero_le _
      codes := rfl
      tail _ := rfl
      line := ⟨[], .nil, .nil⟩ }
  | append_singleton chunks codes ih =>
    rw [stream, foldl_append, flatten_append, flatten_singleton]
    exact ih.chunk codes

end FishStream

end OmniRealtime
