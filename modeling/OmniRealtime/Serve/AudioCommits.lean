import OmniRealtime.Lib.HangoverRuns
import OmniRealtime.Serve.AudioSession

/-!
# What a realtime session commits

The utterances that a session commits are the runs of speech of the client's audio, each with its
prefix, cut where the one before ended.

1. `Partition`: the utterances of a session, from what the client sent.
2. `frame_heard`: one frame of the detector and the handling of its transition.
3. `audio_commits_partition`: the committed files are the slices of a partition, and the times
   that were reported for them are their places.
-/

namespace OmniRealtime

open List Option

open Hangover AudioSession

/-! ## Utterances -/

/-- A run of speech and the samples that are committed for it, counted from the start of the
    session. -/
structure Utterance where
  clearedAt : ℕ
  /-- The first and the last frame of the run, counted from the clear. -/
  first : ℕ
  last : ℕ
  start : ℕ
  stop : ℕ

def lastStop (us : List Utterance) : ℕ := (us.getLast?.map Utterance.stop).getD 0

theorem lastStop_snoc (us : List Utterance) (u : Utterance) : lastStop (us ++ [u]) = u.stop := by
  rw [lastStop, getLast?_concat]
  rfl

/-- Utterances in the order of their runs: from the padding before the run, but not before the last
    clear or the end of the utterance before, to the end of the last frame with speech. -/
inductive Partition (epochs : List (ℕ × List Bool)) : List Utterance → Prop
  | nil : Partition epochs []
  | snoc {us : List Utterance} {u : Utterance} {speech : List Bool} : Partition epochs us →
      (u.clearedAt, speech) ∈ epochs → Closes 16 speech u.first u.last →
      u.start = max (u.clearedAt + 512 * u.first - 4800) (max u.clearedAt (lastStop us)) →
      u.stop = u.clearedAt + 512 * (u.last + 1) → u.start < u.stop → Partition epochs (us ++ [u])

variable {us : List Utterance}

theorem Partition.mono {epochs epochs' : List (ℕ × List Bool)} (h : Partition epochs us)
    (hlater : ∀ at' speech, (at', speech) ∈ epochs → ∃ later, (at', speech ++ later) ∈ epochs') :
    Partition epochs' us := by
  induction h with
  | nil => exact .nil
  | snoc _ hmem hrun hs hstop hlt ih =>
    obtain ⟨later, hmem'⟩ := hlater _ _ hmem
    exact .snoc ih hmem' (hrun.append later) hs hstop hlt

theorem Partition.stop_le_last {epochs : List (ℕ × List Bool)} (h : Partition epochs us) :
    ∀ u ∈ us, u.stop ≤ lastStop us := by
  induction h with
  | nil => exact nofun
  | @snoc us u _ _ _ _ hs _ hlt ih =>
    intro w hw
    rw [lastStop_snoc]
    rcases mem_append.mp hw with hw | hw
    · refine (ih w hw).trans (le_trans ?_ hlt.le)
      rw [hs]
      exact (le_max_right ..).trans (le_max_right ..)
    · exact mem_singleton.mp hw ▸ le_refl _

/-- The utterances of a session do not meet. -/
theorem Partition.pairwise {epochs : List (ℕ × List Bool)} (h : Partition epochs us) :
    us.Pairwise fun u w => u.stop ≤ w.start := by
  induction h with
  | nil => exact .nil
  | @snoc us u _ hbef _ _ hs _ _ ih =>
    rw [pairwise_append]
    refine ⟨ih, pairwise_singleton .., fun w hw w' hw' => ?_⟩
    obtain rfl := mem_singleton.mp hw'
    refine (hbef.stop_le_last w hw).trans ?_
    rw [hs]
    exact (le_max_right ..).trans (le_max_right ..)

/-! ## Reports -/

def AudioEvent.itemId : AudioEvent → Option ℕ
  | .speechStarted _ itemId | .speechStopped _ itemId | .committed itemId => some itemId
  | .cleared => none

def samples (heard : List UInt8) (start stop : ℕ) : List UInt8 :=
  (heard.take (2 * stop)).drop (2 * start)

/-- A committed file has the samples of the utterance, and the only times that are reported for its
    item are their places. -/
structure Reports (sent : List AudioEvent) (heard : List UInt8) (file : ℕ × List UInt8)
    (u : Utterance) : Prop where
  frames : file.2 = samples heard u.start u.stop
  length : 2 * u.stop ≤ heard.length
  started : ∀ ms, .speechStarted ms file.1 ∈ sent ↔ ms = offsetsToMs u.start
  stopped : ∀ ms, .speechStopped ms file.1 ∈ sent ↔ ms = offsetsToMs u.stop
  committed : .committed file.1 ∈ sent

theorem samples_append (heard later : List UInt8) {start stop : ℕ}
    (h : 2 * stop ≤ heard.length) : samples (heard ++ later) start stop = samples heard start stop := by
  unfold samples
  rw [take_append_of_le_length h]

variable {file : ℕ × List UInt8} {heard : List UInt8} {u : Utterance}

theorem Reports.append {sent : List AudioEvent} {heard : List UInt8} {file : ℕ × List UInt8}
    {u : Utterance} (h : Reports sent heard file u) (later : List UInt8) :
    Reports sent (heard ++ later) file u := by
  refine ⟨h.frames.trans (samples_append heard later h.length).symm, ?_, h.started, h.stopped,
    h.committed⟩
  rw [length_append]
  exact h.length.trans (Nat.le_add_right ..)

theorem Reports.take {sent : List AudioEvent} (h : Reports sent heard file u) :
    Reports sent (heard.take (2 * (heard.length / 2))) file u := by
  have hstop : 2 * u.stop ≤ 2 * (heard.length / 2) := by
    have := h.length
    omega
  refine ⟨h.frames.trans ?_, ?_, h.started, h.stopped, h.committed⟩
  · unfold samples
    rw [take_take, min_eq_left hstop]
  · rw [length_take]
    exact le_min hstop h.length

theorem Reports.send {sent : List AudioEvent} (h : Reports sent heard file u)
    {events : List AudioEvent} (hother : ∀ e ∈ events, e.itemId ≠ some file.1) : Reports (sent ++ events) heard file u := by
  refine ⟨h.frames, h.length, fun ms => ?_, fun ms => ?_, mem_append_left _ h.committed⟩
  · rw [mem_append, ← h.started ms]
    exact ⟨fun hmem => hmem.resolve_right fun hnew => hother _ hnew rfl, .inl⟩
  · rw [mem_append, ← h.stopped ms]
    exact ⟨fun hmem => hmem.resolve_right fun hnew => hother _ hnew rfl, .inl⟩

/-! ## The invariant -/

/-- The session is in the middle of a run. -/
structure Talking (clearedAt : ℕ) (speech : List Bool) (q : ℕ) (s : AudioSession) : Prop where
  short : q < 16
  run : ∃ i itemId, Opens 16 speech i ∧ s.utteranceItemId = some itemId ∧
    s.bufferOriginSamples ≤ clearedAt + (512 * i - 4800) ∧
    s.utteranceStartByte = some (2 * (clearedAt + (512 * i - 4800) - s.bufferOriginSamples)) ∧
    itemId < s.itemIds ∧
    (∀ ms, .speechStarted ms itemId ∈ s.sent ↔
      ms = offsetsToMs (clearedAt + (512 * i - 4800))) ∧
    (∀ ms, .speechStopped ms itemId ∉ s.sent) ∧ ∀ file ∈ s.responseQueue, file.1 ≠ itemId

/-- What a session keeps while the frames `speech` are handled; the last `q` of them are quiet, and
    `us` was committed. -/
structure Heard (past : List (ℕ × List Bool)) (clearedAt : ℕ) (heard : List UInt8)
    (speech : List Bool) (q : ℕ) (us : List Utterance) (s : AudioSession) : Prop where
  config : s.vad.config = {}
  origin : s.vadOriginSamples = clearedAt
  buffer : s.audioBuffer = heard.drop (2 * s.bufferOriginSamples)
  boundary : s.bufferOriginSamples = max clearedAt (lastStop us)
  leftover : s.vad.leftoverPcm = heard.drop (2 * (clearedAt + 512 * speech.length))
  room : 2 * (clearedAt + 512 * speech.length) ≤ heard.length
  consumed : s.vad.samplesConsumed = 512 * speech.length
  quiet : Quiet speech q
  silence : s.vad.silenceRunSamples = 512 * q
  lastSpeech : q < speech.length → s.vad.lastSpeechOffset = 512 * (speech.length - q)
  idle : s.vad.isSpeech = false → (16 ≤ q ∨ q = speech.length) ∧
    s.bufferOriginSamples ≤ clearedAt + 512 * (speech.length - q)
  talking : s.vad.isSpeech = true → Talking clearedAt speech q s
  known : ∀ e ∈ s.sent, ∀ itemId, e.itemId = some itemId → itemId < s.itemIds
  ids : ∀ file ∈ s.responseQueue, file.1 < s.itemIds
  partition : Partition (past ++ [(clearedAt, speech)]) us
  files : List.Forall₂ (Reports s.sent heard) s.responseQueue us

theorem pad_default : ({} : VADConfig).pad = 4800 := by decide

theorem silenceThreshold_default : ({} : VADConfig).silenceThreshold = 8000 := by decide

theorem heard_init : Heard [] 0 [] [] 0 [] {} where
  config := rfl
  origin := rfl
  buffer := rfl
  boundary := rfl
  leftover := rfl
  room := le_refl _
  consumed := rfl
  quiet := .nil
  silence := rfl
  lastSpeech h := absurd h (Nat.not_lt_zero _)
  idle _ := ⟨.inr rfl, le_refl _⟩
  talking h := by cases h
  known _ h := absurd h not_mem_nil
  ids _ h := absurd h not_mem_nil
  partition := .nil
  files := .nil

/-! ## Frames -/

/-- One frame, and the handling of what it makes the detector say. -/
def AudioSession.frame (s : AudioSession) (prob : ℚ) : AudioSession :=
  (s.vad.takeFrame prob).2.foldl AudioSession.handleVadEmit
    { s with vad := (s.vad.takeFrame prob).1 }

section Frame

variable {past : List (ℕ × List Bool)} {clearedAt : ℕ} {heard : List UInt8} {speech : List Bool}
variable {q q' : ℕ} {us : List Utterance} {s t : AudioSession} {b : Bool} {s : AudioSession}

theorem length_snoc (speech : List Bool) (b : Bool) :
    (speech ++ [b]).length = speech.length + 1 := length_append

theorem Heard.later (h : Heard past clearedAt heard speech q us s) (b : Bool) :
    Partition (past ++ [(clearedAt, speech ++ [b])]) us := by
  refine h.partition.mono fun at' speech' hmem => ?_
  rcases mem_append.mp hmem with hmem | hmem
  · exact ⟨[], (append_nil speech').symm ▸ mem_append_left _ hmem⟩
  · obtain ⟨rfl, rfl⟩ := Prod.mk.inj (mem_singleton.mp hmem)
    exact ⟨[b], mem_append_right _ (mem_singleton_self _)⟩

theorem Heard.advance (h : Heard past clearedAt heard speech q us s)
    (hr : 2 * (clearedAt + 512 * (speech.length + 1)) ≤ heard.length)
    (hconfig : t.vad.config = s.vad.config)
    (hleftover : t.vad.leftoverPcm = s.vad.leftoverPcm.drop 1024)
    (hconsumed : t.vad.samplesConsumed = s.vad.samplesConsumed + 512)
    (hqt : Quiet (speech ++ [b]) q') (hsilence : t.vad.silenceRunSamples = 512 * q')
    (hlast : q' < speech.length + 1 → t.vad.lastSpeechOffset = 512 * (speech.length + 1 - q'))
    (hidle : t.vad.isSpeech = false → (16 ≤ q' ∨ q' = speech.length + 1) ∧
      s.bufferOriginSamples ≤ clearedAt + 512 * (speech.length + 1 - q'))
    (htalking : t.vad.isSpeech = true → Talking clearedAt (speech ++ [b]) q' t)
    (hbuffer : t.audioBuffer = s.audioBuffer)
    (hborigin : t.bufferOriginSamples = s.bufferOriginSamples)
    (horigin : t.vadOriginSamples = s.vadOriginSamples) (hids : s.itemIds ≤ t.itemIds)
    (hknown : ∀ e ∈ t.sent, ∀ itemId, e.itemId = some itemId → itemId < t.itemIds)
    (hqueue : t.responseQueue = s.responseQueue)
    (hfiles : List.Forall₂ (Reports t.sent heard) s.responseQueue us) :
    Heard past clearedAt heard (speech ++ [b]) q' us t where
  config := hconfig.trans h.config
  origin := horigin.trans h.origin
  buffer := by rw [hbuffer, hborigin, h.buffer]
  boundary := hborigin.trans h.boundary
  leftover := by
    rw [hleftover, h.leftover, drop_drop, length_snoc]
    exact congrArg (List.drop · heard) (by omega)
  room := by
    rw [length_snoc]
    exact hr
  consumed := by
    rw [hconsumed, h.consumed, length_snoc]
    omega
  quiet := hqt
  silence := hsilence
  lastSpeech hlt := by
    rw [length_snoc] at hlt ⊢
    exact hlast hlt
  idle hspeech := by
    rw [length_snoc, hborigin]
    exact hidle hspeech
  talking := htalking
  known := hknown
  ids file hf := (h.ids file (hqueue ▸ hf)).trans_le hids
  partition := h.later b
  files := hqueue ▸ hfiles

theorem Talking.advance (h : Talking clearedAt speech q s) (hshort : q' < 16)
    (hopen : ∀ i, Opens 16 speech i → Opens 16 (speech ++ [b]) i) {v : StreamingVAD} :
    Talking clearedAt (speech ++ [b]) q' { s with vad := v } := by
  obtain ⟨i, itemId, hrun, hitem, hs⟩ := h.run
  exact ⟨hshort, i, itemId, hopen i hrun, hitem, hs⟩

theorem slice_drop {l : List UInt8} {a b c : ℕ} (hac : a ≤ c) (hcb : c ≤ b) :
    ((l.drop a).take (b - a)).drop (c - a) = (l.take b).drop c := by
  rw [drop_take, drop_take, drop_drop]
  congr 1
  · omega
  · congr 1
    omega

theorem forall₂_imp_mem {α β : Type*} {R S : α → β → Prop} {l : List α} {l' : List β}
    (h : List.Forall₂ R l l') (himp : ∀ a ∈ l, ∀ b, R a b → S a b) : List.Forall₂ S l l' := by
  induction h with
  | nil => exact .nil
  | cons hab _ ih =>
    refine .cons (himp _ mem_cons_self _ hab) (ih fun a ha => ?_)
    exact himp a (mem_cons_of_mem _ ha)

theorem handleVadEmit_started (s : AudioSession) (off : ℕ) :
    s.handleVadEmit ⟨.speechStarted, off⟩ = { s with
      utteranceStartByte := some (min ((s.vadOriginSamples + off - s.bufferOriginSamples) * 2)
        s.audioBuffer.length)
      utteranceItemId := some s.itemIds
      itemIds := s.itemIds + 1
      sent := s.sent ++ [.speechStarted (offsetsToMs (s.vadOriginSamples + off)) s.itemIds] } := rfl

theorem Heard.start (h : Heard past clearedAt heard speech q us s)
    (hr : 2 * (clearedAt + 512 * (speech.length + 1)) ≤ heard.length)
    (hidle : s.vad.isSpeech = false) {v : StreamingVAD} (hspeech : v.isSpeech = true)
    (hconfig : v.config = s.vad.config) (hleftover : v.leftoverPcm = s.vad.leftoverPcm.drop 1024)
    (hconsumed : v.samplesConsumed = s.vad.samplesConsumed + 512)
    (hsilence : v.silenceRunSamples = 0)
    (hlast : v.lastSpeechOffset = s.vad.samplesConsumed + 512) {off : ℕ}
    (hoff : off = 512 * speech.length - 4800) :
    Heard past clearedAt heard (speech ++ [true]) 0 us
      (handleVadEmit { s with vad := v } ⟨.speechStarted, off⟩) := by
  obtain ⟨hpause, hbef⟩ := h.idle hidle
  have hle := h.quiet.le
  -- the pause is longer than the padding
  have hb : s.bufferOriginSamples ≤ clearedAt + off := by
    rcases hpause with hlong | hall
    · omega
    · rw [hall, Nat.sub_self] at hbef
      omega
  have hbyte : min ((s.vadOriginSamples + off - s.bufferOriginSamples) * 2) s.audioBuffer.length =
      2 * (clearedAt + off - s.bufferOriginSamples) := by
    rw [h.origin, h.buffer, length_drop]
    omega
  have hfrs : ∀ e ∈ s.sent, e.itemId ≠ some s.itemIds :=
    fun e he heq => absurd (h.known e he _ heq) (lt_irrefl _)
  rw [handleVadEmit_started]
  dsimp only
  rw [hbyte, h.origin]
  refine h.advance hr hconfig hleftover hconsumed (.snoc_true speech) hsilence ?_ ?_ ?_ rfl rfl
    h.origin.symm (Nat.le_succ _) ?_ rfl ?_
  · intro _
    refine hlast.trans ?_
    rw [h.consumed]
    omega
  · intro hsilent
    rw [hspeech] at hsilent
    cases hsilent
  · intro _
    refine ⟨by decide, speech.length, s.itemIds, .of_quiet (by decide) h.quiet hpause, rfl, ?_⟩
    rw [← hoff]
    refine ⟨hb, rfl, Nat.lt_succ_self _, fun ms => ?_, fun ms => ?_, ?_⟩
    · rw [mem_append, mem_singleton]
      constructor
      · intro hmem
        rcases hmem with hmem | heq
        · exact absurd rfl (hfrs _ hmem)
        · exact (AudioEvent.speechStarted.inj heq).1
      · intro heq
        exact .inr (by rw [heq])
    · rw [mem_append, mem_singleton]
      intro hmem
      rcases hmem with hmem | heq
      · exact hfrs _ hmem rfl
      · cases heq
    · exact fun file hf => ne_of_lt (h.ids file hf)
  · intro e he itemId hitem
    rcases mem_append.mp he with he | he
    · exact (h.known e he itemId hitem).trans (Nat.lt_succ_self _)
    · rw [mem_singleton.mp he] at hitem
      exact some.inj hitem ▸ Nat.lt_succ_self _
  · refine forall₂_imp_mem h.files fun file hf u hrep => hrep.send fun e he heq => ?_
    rw [mem_singleton.mp he] at heq
    exact absurd (h.ids file hf) (some.inj heq ▸ lt_irrefl _)

theorem itemIdOrNew_of_some {itemId : ℕ} (h : s.utteranceItemId = some itemId) :
    s.itemIdOrNew = (s, itemId) := by
  rw [itemIdOrNew, h]

theorem autoCommitUtterance_eq {off startByte endByte itemId : ℕ}
    (hitem : s.utteranceItemId = some itemId) (hs : s.utteranceStartByte = some startByte)
    (hend : min ((s.vadOriginSamples + off - s.bufferOriginSamples) * 2) s.audioBuffer.length =
      endByte) (hlt : startByte + 2 ≤ endByte) : s.autoCommitUtterance off = { s with
      audioBuffer := s.audioBuffer.drop endByte
      bufferOriginSamples := s.bufferOriginSamples + endByte / 2
      utteranceStartByte := none
      utteranceItemId := none
      sent := s.sent ++ [.committed itemId]
      responseQueue := s.responseQueue ++ [(itemId, s.sliced startByte endByte)] } := by
  have hfull : ¬s.audioBuffer.length / 2 = 0 := by omega
  have hend : min (s.sampleOffsetToBufferByte off) s.audioBuffer.length = endByte := hend
  have hlate : ¬endByte ≤ startByte := by omega
  dsimp only [autoCommitUtterance]
  rw [if_neg hfull, hs, getD_some, hend, if_neg hlate, itemIdOrNew_of_some hitem]
  rfl

theorem handleVadEmit_stopped {off startByte endByte itemId : ℕ}
    (hitem : s.utteranceItemId = some itemId) (hs : s.utteranceStartByte = some startByte)
    (hend : min ((s.vadOriginSamples + off - s.bufferOriginSamples) * 2) s.audioBuffer.length =
      endByte) (hlt : startByte + 2 ≤ endByte) : s.handleVadEmit ⟨.speechStopped, off⟩ = { s with
      audioBuffer := s.audioBuffer.drop endByte
      bufferOriginSamples := s.bufferOriginSamples + endByte / 2
      utteranceStartByte := none
      utteranceItemId := none
      sent := s.sent ++ [.speechStopped (offsetsToMs (s.vadOriginSamples + off)) itemId] ++
        [.committed itemId]
      responseQueue := s.responseQueue ++ [(itemId, s.sliced startByte endByte)] } := by
  have hsend : s.handleVadEmit ⟨.speechStopped, off⟩ = (s.send (.speechStopped
      (offsetsToMs (s.vadOriginSamples + off)) itemId)).autoCommitUtterance off := by
    dsimp only [handleVadEmit]
    rw [itemIdOrNew_of_some hitem]
    rfl
  rw [hsend]
  exact autoCommitUtterance_eq hitem hs hend hlt

/-- A start that is cut at neither end of the padding. -/
theorem padded_start {a x pad origin : ℕ} (hafter : a ≤ origin) (hbef : origin ≤ a + (x - pad)) :
    a + (x - pad) = max (a + x - pad) origin := by
  omega

section

variable (h : Heard past clearedAt heard speech q us s)
  (hr : 2 * (clearedAt + 512 * (speech.length + 1)) ≤ heard.length)
include h hr

theorem Heard.commit (htalking : s.vad.isSpeech = true) (hq : q + 1 = 16) {v : StreamingVAD}
    (hspeech : v.isSpeech = false) (hconfig : v.config = s.vad.config)
    (hleftover : v.leftoverPcm = s.vad.leftoverPcm.drop 1024)
    (hconsumed : v.samplesConsumed = s.vad.samplesConsumed + 512)
    (hsilence : v.silenceRunSamples = s.vad.silenceRunSamples + 512)
    (hlast : v.lastSpeechOffset = s.vad.lastSpeechOffset) :
    ∃ us', Heard past clearedAt heard (speech ++ [false]) (q + 1) us'
      (AudioSession.handleVadEmit { s with vad := v } ⟨.speechStopped, s.vad.lastSpeechOffset⟩) := by
  obtain ⟨-, i, itemId, hrun, hitem, hb, hs, hid, hstarted, hstopped, hother⟩ :=
    h.talking htalking
  have hset := h.quiet.set_lt hrun.start
  have hoff := h.lastSpeech (lt_of_le_of_lt (Nat.le_add_left ..) hset)
  have hcl : Closes 16 (speech ++ [false]) i (speech.length - q - 1) := hrun.close h.quiet hq
  obtain ⟨start, hstartAt⟩ : ∃ start, start = clearedAt + (512 * i - 4800) := ⟨_, rfl⟩
  obtain ⟨stop, hstopAt⟩ : ∃ stop, stop = clearedAt + s.vad.lastSpeechOffset := ⟨_, rfl⟩
  rw [← hstartAt] at hb hs hstarted
  have hlastFrame : speech.length - q - 1 + 1 = speech.length - q :=
    Nat.sub_add_cancel (Nat.sub_pos_of_lt (lt_of_le_of_lt (Nat.le_add_left ..) hset))
  have hstop : stop = clearedAt + 512 * (speech.length - q) := by rw [hstopAt, hoff]
  have hlt : start < stop := by
    rw [hstartAt, hstop]
    omega
  have hheard : 2 * stop ≤ heard.length := by
    rw [hstop]
    omega
  have hend : min ((s.vadOriginSamples + s.vad.lastSpeechOffset - s.bufferOriginSamples) * 2)
      s.audioBuffer.length = 2 * stop - 2 * s.bufferOriginSamples := by
    rw [h.origin, ← hstopAt, h.buffer, length_drop]
    omega
  have hf : s.sliced (2 * (start - s.bufferOriginSamples))
      (2 * stop - 2 * s.bufferOriginSamples) = samples heard start stop := by
    unfold sliced samples
    rw [h.buffer, Nat.mul_sub]
    exact slice_drop (Nat.mul_le_mul_left 2 hb) (Nat.mul_le_mul_left 2 hlt.le)
  have hsend : (handleVadEmit { s with vad := v }
      ⟨.speechStopped, s.vad.lastSpeechOffset⟩) = _ :=
    handleVadEmit_stopped hitem hs hend (by omega)
  rw [hsend, h.origin, ← hstopAt]
  generalize hevents : s.sent ++ [.speechStopped (offsetsToMs stop) itemId] ++
    [.committed itemId] = sent
  have hmem : ∀ e, e ∈ sent ↔
      e ∈ s.sent ∨ e = .speechStopped (offsetsToMs stop) itemId ∨ e = .committed itemId := by
    intro e
    rw [← hevents, append_assoc, mem_append]
    simp
  have hnewBoundary : s.bufferOriginSamples + (2 * stop - 2 * s.bufferOriginSamples) / 2 = stop := by
    omega
  obtain ⟨u, hclr, hfst, hulast, hustart, hustop⟩ : ∃ u : Utterance,
      u.clearedAt = clearedAt ∧ u.first = i ∧ u.last = speech.length - q - 1 ∧ u.start = start ∧
      u.stop = stop :=
    ⟨⟨clearedAt, i, speech.length - q - 1, start, stop⟩, rfl, rfl, rfl, rfl, rfl⟩
  refine ⟨us ++ [u], ⟨hconfig.trans h.config, rfl, ?_, ?_, ?_, ?_, ?_, h.quiet.snoc_false, ?_, ?_,
    ?_, ?_, ?_, ?_, ?_, ?_⟩⟩
  · show s.audioBuffer.drop _ = heard.drop (2 * (s.bufferOriginSamples + _))
    rw [h.buffer, drop_drop, hnewBoundary]
    exact congrArg (List.drop · heard) (by omega)
  · show s.bufferOriginSamples + _ = _
    rw [hnewBoundary, lastStop_snoc, hustop, hstopAt]
    exact (max_eq_right (Nat.le_add_right ..)).symm
  · refine hleftover.trans ?_
    rw [h.leftover, drop_drop, length_snoc]
    exact congrArg (List.drop · heard) (by omega)
  · rw [length_snoc]
    exact hr
  · refine hconsumed.trans ?_
    rw [h.consumed, length_snoc]
    omega
  · refine hsilence.trans ?_
    rw [h.silence]
    omega
  · intro _
    refine hlast.trans ?_
    rw [hoff, length_snoc]
    omega
  · intro _
    refine ⟨.inl (le_of_eq hq.symm), ?_⟩
    show s.bufferOriginSamples + _ ≤ _
    rw [hnewBoundary, hstop, length_snoc, Nat.succ_sub_succ]
  · intro htalk
    have htalk : v.isSpeech = true := htalk
    rw [hspeech] at htalk
    cases htalk
  · intro e he itemId' hitem'
    rcases (hmem e).mp he with he | rfl | rfl
    · exact h.known e he itemId' hitem'
    · exact some.inj hitem' ▸ hid
    · exact some.inj hitem' ▸ hid
  · intro file hf'
    rcases mem_append.mp hf' with hf' | hf'
    · exact h.ids file hf'
    · rw [mem_singleton.mp hf']
      exact hid
  · have hepo : (u.clearedAt, speech ++ [false]) ∈ past ++ [(clearedAt, speech ++ [false])] :=
      mem_append_right _ (mem_singleton.mpr (Prod.ext hclr rfl))
    refine .snoc (h.later false) hepo ?_ ?_ ?_ ?_
    · rw [hfst, hulast]
      exact hcl
    · have hafter : clearedAt ≤ s.bufferOriginSamples := h.boundary ▸ le_max_left ..
      rw [hustart, hclr, hfst, ← h.boundary, hstartAt]
      exact padded_start hafter (hstartAt ▸ hb)
    · rw [hustop, hclr, hulast, hlastFrame]
      exact hstop
    · rw [hustart, hustop]
      exact hlt
  · have hnew : ∀ e ∈ ([.speechStopped (offsetsToMs stop) itemId] ++ [.committed itemId] :
        List AudioEvent), e.itemId = some itemId := by
      intro e he
      rcases mem_append.mp he with he | he <;> exact mem_singleton.mp he ▸ rfl
    refine rel_append ?_ (.cons ?_ .nil)
    · refine forall₂_imp_mem h.files fun file hf' u' hrep => ?_
      rw [← hevents, append_assoc]
      refine hrep.send fun e he heq => hother file hf' ?_
      exact some.inj (heq.symm.trans (hnew e he))
    · refine ⟨by rw [hustart, hustop]; exact hf, hustop ▸ hheard, fun ms => ?_, fun ms => ?_, (hmem _).mpr (.inr (.inr rfl))⟩
      · rw [hmem, hustart, ← hstarted ms]
        exact ⟨fun h => h.resolve_right (by simp), .inl⟩
      · rw [hmem, hustop]
        constructor
        · intro hms
          rcases hms with hms | heq | heq
          · exact absurd hms (hstopped ms)
          · exact (AudioEvent.speechStopped.inj heq).1
          · cases heq
        · intro heq
          exact .inr (.inl (by rw [heq]))

theorem frame_heard (prob : ℚ) :
    ∃ q' us', Heard past clearedAt heard
      (speech ++ [decide (({} : VADConfig).threshold ≤ prob)]) q' us' (s.frame prob) := by
  have hpad : s.vad.samplesConsumed + vadFrameSamples - vadFrameSamples - s.vad.config.pad =
      512 * speech.length - 4800 := by
    rw [h.consumed, h.config, pad_default, Nat.add_sub_cancel]
  dsimp only [frame, StreamingVAD.takeFrame]
  rw [h.config] at hpad ⊢
  split
  · next hspeech =>
    rw [decide_eq_true hspeech]
    cases htalk : s.vad.isSpeech with
    | true =>
      refine ⟨0, us, h.advance hr h.config.symm rfl rfl (.snoc_true speech) rfl ?_ nofun ?_ rfl
        rfl rfl (le_refl _) h.known rfl h.files⟩
      · intro _
        show s.vad.samplesConsumed + 512 = _
        rw [h.consumed]
        omega
      · exact fun _ => (h.talking htalk).advance (by decide) fun i hrun => hrun.snoc_true (by decide)
    | false =>
      exact ⟨0, us, h.start hr htalk rfl h.config.symm rfl rfl rfl rfl hpad⟩
  · next hspeech =>
    rw [decide_eq_false hspeech]
    split
    · next hstop =>
      have htalk : s.vad.isSpeech = true := hstop.1
      have hlong : ({} : VADConfig).silenceThreshold ≤ s.vad.silenceRunSamples + 512 := hstop.2
      rw [silenceThreshold_default] at hlong
      have hshort := (h.talking htalk).short
      have hq : q + 1 = 16 := by
        rw [h.silence] at hlong
        omega
      exact ⟨q + 1, h.commit hr htalk hq rfl h.config.symm rfl rfl rfl rfl⟩
    · next hgo =>
      have hgo : ¬(s.vad.isSpeech = true ∧
        ({} : VADConfig).silenceThreshold ≤ s.vad.silenceRunSamples + 512) := hgo
      rw [silenceThreshold_default, h.silence] at hgo
      refine ⟨q + 1, us, h.advance hr h.config.symm rfl rfl h.quiet.snoc_false ?_ ?_ ?_ ?_ rfl rfl
        rfl (le_refl _) h.known rfl h.files⟩
      · show s.vad.silenceRunSamples + 512 = _
        rw [h.silence]
        omega
      · intro hlt
        show s.vad.lastSpeechOffset = _
        rw [h.lastSpeech (Nat.lt_of_succ_lt_succ hlt)]
        omega
      · intro hidle
        obtain ⟨hpause, hbef⟩ := h.idle hidle
        refine ⟨hpause.imp (fun hle => hle.trans (Nat.le_succ q)) (congrArg Nat.succ), ?_⟩
        rw [Nat.succ_sub_succ]
        exact hbef
      · intro htalk
        have htalk : s.vad.isSpeech = true := htalk
        have hshort : q + 1 < 16 := by
          by_contra hlate
          have hlong : 512 * 16 ≤ 512 * (q + 1) := Nat.mul_le_mul_left 512 (not_lt.mp hlate)
          exact hgo ⟨htalk, le_trans (by decide) hlong⟩
        exact (h.talking htalk).advance hshort fun i hrun => hrun.snoc_false h.quiet hshort

end

end Frame

/-! ## Appends and clears -/

def AudioSession.setVad (s : AudioSession) (v : StreamingVAD) : AudioSession := { s with vad := v }

section

variable (s : AudioSession) (v : StreamingVAD)

theorem itemIdOrNew_setVad :
    (s.setVad v).itemIdOrNew = (s.itemIdOrNew.1.setVad v, s.itemIdOrNew.2) := by
  dsimp only [itemIdOrNew, setVad]
  split <;> rfl

theorem autoCommitUtterance_setVad (off : ℕ) :
    (s.setVad v).autoCommitUtterance off = (s.autoCommitUtterance off).setVad v := by
  unfold autoCommitUtterance
  rw [itemIdOrNew_setVad]
  dsimp only
  by_cases hemp : s.audioBuffer.length / 2 = 0
  · rw [if_pos hemp]
    exact if_pos hemp
  · rw [if_neg hemp]
    refine (if_neg hemp).trans ?_
    by_cases hlate : min (s.sampleOffsetToBufferByte off) s.audioBuffer.length ≤
        s.utteranceStartByte.getD 0
    · rw [if_pos hlate]
      exact if_pos hlate
    · rw [if_neg hlate]
      exact if_neg hlate

theorem handleVadEmit_setVad (e : Emit) :
    (s.setVad v).handleVadEmit e = (s.handleVadEmit e).setVad v := by
  obtain ⟨type, off⟩ := e
  cases type with
  | speechStarted => rfl
  | speechStopped =>
    dsimp only [handleVadEmit]
    rw [itemIdOrNew_setVad]
    exact autoCommitUtterance_setVad (s.itemIdOrNew.1.send (.speechStopped
      (offsetsToMs (s.absoluteSample off)) s.itemIdOrNew.2)) v off

end

theorem foldl_setVad (es : List Emit) (s : AudioSession) (v : StreamingVAD) :
    es.foldl handleVadEmit (s.setVad v) =
      (es.foldl handleVadEmit s).setVad v := by
  induction es generalizing s with
  | nil => rfl
  | cons e es ih =>
    rw [foldl_cons, foldl_cons, handleVadEmit_setVad]
    exact ih _

theorem handleVadEmit_closed (s : AudioSession) (e : Emit) :
    (s.handleVadEmit e).closed = s.closed := by
  have hid : ∀ s : AudioSession, s.itemIdOrNew.1.closed = s.closed := by
    intro s
    unfold itemIdOrNew
    split <;> rfl
  obtain ⟨type, off⟩ := e
  cases type with
  | speechStarted => rfl
  | speechStopped =>
    refine Eq.trans ?_ (hid s)
    dsimp only [handleVadEmit]
    dsimp only [autoCommitUtterance]
    split
    · rfl
    · split
      · rfl
      · exact hid _

theorem foldl_closed (es : List Emit) (s : AudioSession) :
    (es.foldl handleVadEmit s).closed = s.closed := by
  induction es generalizing s with
  | nil => rfl
  | cons e es ih => exact (ih _).trans (handleVadEmit_closed s e)

section Trace

variable {past : List (ℕ × List Bool)} {clearedAt : ℕ} {heard : List UInt8} {speech : List Bool}
variable {q : ℕ} {us : List Utterance} {s : AudioSession}

/-- The answers of the network for the next frames. -/
def answers (infer : ℕ → ℚ) (from' frames : ℕ) : List Bool :=
  (List.range' from' frames).map fun k =>
    decide (({} : VADConfig).threshold ≤ infer (vadFrameSamples * k))

theorem frame_room (at' frames : ℕ) :
    2 * (at' + 512 * (frames + 1)) = 2 * (at' + 512 * frames) + 1024 := by
  omega

theorem loop_heard (infer : ℕ → ℚ) (frames : ℕ) (h : Heard past clearedAt heard speech q us s)
    (hr : 2 * (clearedAt + 512 * (speech.length + frames)) ≤ heard.length) :
    ∃ q' us', Heard past clearedAt heard (speech ++ answers infer speech.length frames) q' us'
      ((s.vad.processLoop infer frames).2.foldl AudioSession.handleVadEmit
        (s.setVad (s.vad.processLoop infer frames).1)) := by
  induction frames generalizing speech q us s with
  | zero => exact ⟨q, us, (append_nil speech).symm ▸ h⟩
  | succ frames ih =>
    have hfst : 2 * (clearedAt + 512 * (speech.length + 1)) ≤ heard.length := by
      refine le_trans (Nat.mul_le_mul_left 2 (Nat.add_le_add_left ?_ clearedAt)) hr
      exact Nat.mul_le_mul_left 512 (Nat.add_le_add_left (Nat.succ_le_succ (Nat.zero_le _)) _)
    have hfull : vadFrameSamples * 2 ≤ s.vad.leftoverPcm.length := by
      rw [h.leftover, length_drop]
      rw [frame_room] at hfst
      exact Nat.le_sub_of_add_le' hfst
    have hanswer : infer s.vad.samplesConsumed = infer (vadFrameSamples * speech.length) := by
      rw [h.consumed]
      rfl
    obtain ⟨q', us', hfrm⟩ := frame_heard h hfst (infer s.vad.samplesConsumed)
    have hvad : (s.frame (infer s.vad.samplesConsumed)).vad =
        (s.vad.takeFrame (infer s.vad.samplesConsumed)).1 := by
      show (List.foldl _ (s.setVad _) _).vad = _
      rw [foldl_setVad]
      rfl
    obtain ⟨q'', us'', hl⟩ := ih hfrm (by
      rw [length_snoc, add_assoc, add_comm 1]
      exact hr)
    refine ⟨q'', us'', ?_⟩
    rw [hvad, hanswer, length_snoc, append_assoc] at hl
    rw [StreamingVAD.processLoop, if_pos hfull, hanswer]
    dsimp only
    rw [foldl_append, foldl_setVad, foldl_setVad]
    have hfms : s.frame (infer (vadFrameSamples * speech.length)) =
        (((s.vad.takeFrame (infer (vadFrameSamples * speech.length))).2.foldl
          handleVadEmit s).setVad
            (s.vad.takeFrame (infer (vadFrameSamples * speech.length))).1) := foldl_setVad ..
    rw [hfms, foldl_setVad, foldl_setVad] at hl
    exact hl

section

variable (h : Heard past clearedAt heard speech q us s)
include h

theorem Heard.boundary_le : 2 * s.bufferOriginSamples ≤ heard.length := by
  refine le_trans (Nat.mul_le_mul_left 2 ?_) h.room
  cases htalk : s.vad.isSpeech with
  | false =>
    refine (h.idle htalk).2.trans (Nat.add_le_add_left (Nat.mul_le_mul_left 512 ?_) clearedAt)
    exact Nat.sub_le ..
  | true =>
    obtain ⟨-, i, -, hrun, -, hb, -⟩ := h.talking htalk
    have hi := (List.getElem?_eq_some_iff.mp hrun.start).1
    refine hb.trans (Nat.add_le_add_left ?_ clearedAt)
    exact (Nat.sub_le ..).trans (Nat.mul_le_mul_left 512 hi.le)

theorem Heard.hear (pcm : List UInt8) :
    Heard past clearedAt (heard ++ pcm) speech q us { s with
        audioBuffer := s.audioBuffer ++ pcm
        vad := { s.vad with leftoverPcm := s.vad.leftoverPcm ++ pcm } } where
  config := h.config
  origin := h.origin
  buffer := by
    rw [drop_append_of_le_length h.boundary_le, ← h.buffer]
  boundary := h.boundary
  leftover := by
    rw [drop_append_of_le_length h.room, ← h.leftover]
  room := by
    rw [length_append]
    exact h.room.trans (Nat.le_add_right ..)
  consumed := h.consumed
  quiet := h.quiet
  silence := h.silence
  lastSpeech := h.lastSpeech
  idle := h.idle
  talking htalk := ⟨(h.talking htalk).short, (h.talking htalk).run⟩
  known := h.known
  ids := h.ids
  partition := h.partition
  files := h.files.imp fun _ _ hrep => hrep.append pcm

theorem Heard.clear :
    Heard (past ++ [(clearedAt, speech)]) (heard.length / 2)
      (heard.take (2 * (heard.length / 2))) [] 0 us s.handleAudioClear := by
  have hb := h.boundary_le
  have horigin : s.bufferOriginSamples + s.audioBuffer.length / 2 = heard.length / 2 := by
    rw [h.buffer, length_drop]
    omega
  have hlen : (heard.take (2 * (heard.length / 2))).length = 2 * (heard.length / 2) := by
    rw [length_take]
    exact min_eq_left (Nat.mul_div_le ..)
  have hemp : (heard.take (2 * (heard.length / 2))).drop (2 * (heard.length / 2)) = [] :=
    drop_eq_nil_of_le hlen.le
  have hlast : lastStop us ≤ heard.length / 2 := by
    have hle : lastStop us ≤ s.bufferOriginSamples := h.boundary ▸ le_max_right ..
    omega
  have hsession : s.handleAudioClear = { s with
      bufferOriginSamples := heard.length / 2, vadOriginSamples := heard.length / 2
      audioBuffer := [], utteranceStartByte := none, utteranceItemId := none
      vad := { config := s.vad.config }, sent := s.sent ++ [.cleared] } := by
    rw [← horigin]
    rfl
  rw [hsession]
  refine ⟨h.config, rfl, hemp.symm, (max_eq_left hlast).symm, hemp.symm, hlen.ge, rfl, .nil,
    rfl, fun hlt => absurd hlt (Nat.not_lt_zero _), fun _ => ⟨.inr rfl, le_refl _⟩, nofun, ?_, h.ids,
    ?_, ?_⟩
  · intro e he itemId hitem
    rcases mem_append.mp he with he | he
    · exact h.known e he itemId hitem
    · rw [mem_singleton.mp he] at hitem
      cases hitem
  · refine h.partition.mono fun at' speech' hmem => ⟨[], ?_⟩
    rw [append_nil]
    exact mem_append_left _ hmem
  · refine h.files.imp fun file u hrep => (hrep.send fun e he => ?_).take
    rw [mem_singleton.mp he]
    exact nofun

end

end Trace

/-- What the client has sent, and what the session has made of it. -/
def AudioKept (t : AudioTrace) : Prop :=
  ∃ q us, Heard t.past t.clearedAt t.heard t.speech q us t.session ∧
    t.heard.length < 2 * (t.clearedAt + 512 * (t.speech.length + 1))

theorem append_kept {t : AudioTrace} {q : ℕ}
    (h : Heard t.past t.clearedAt t.heard t.speech q us t.session)
    (hrest : t.heard.length < 2 * (t.clearedAt + 512 * (t.speech.length + 1))) (pcm : List UInt8)
    (infer : ℕ → ℚ) : AudioKept { t with
      session := (t.session.vad.process pcm infer).2.foldl handleVadEmit
        { t.session with
          audioBuffer := t.session.audioBuffer ++ pcm
          vad := (t.session.vad.process pcm infer).1 }
      heard := t.heard ++ pcm
      speech := t.speech ++ t.newSpeech pcm infer } := by
  have hr := h.room
  rw [frame_room] at hrest
  have hleft : (t.session.vad.leftoverPcm ++ pcm).length =
      t.heard.length + pcm.length - 2 * (t.clearedAt + 512 * t.speech.length) := by
    rw [length_append, h.leftover, length_drop]
    exact (Nat.sub_add_comm hr).symm
  generalize hfms : (t.session.vad.leftoverPcm ++ pcm).length / (vadFrameSamples * 2) = frames
  have hfms' : (t.heard.length + pcm.length - 2 * (t.clearedAt + 512 * t.speech.length)) / 1024 =
      frames := hleft ▸ hfms
  have hnew : t.newSpeech pcm infer = answers infer t.speech.length frames := by
    unfold AudioTrace.newSpeech answers
    rw [h.config]
    refine congrArg (fun n => (List.range' t.speech.length n).map _) ?_
    show (t.heard.length + pcm.length - 2 * t.clearedAt) / 1024 - t.speech.length = frames
    omega
  have hend : 2 * (t.clearedAt + 512 * (t.speech.length + frames)) ≤ (t.heard ++ pcm).length ∧
      (t.heard ++ pcm).length < 2 * (t.clearedAt + 512 * (t.speech.length + frames + 1)) := by
    rw [length_append]
    omega
  obtain ⟨q', us', hl⟩ := loop_heard infer frames (h.hear pcm) hend.1
  rw [hnew]
  refine ⟨q', us', ?_, ?_⟩
  · unfold StreamingVAD.process
    by_cases hemp : pcm = []
    · -- no whole frame was left
      have hzero : frames = 0 := by
        rw [← hfms', hemp, length_nil]
        omega
      rw [hzero] at hl ⊢
      rw [if_pos hemp]
      rw [hemp] at hl ⊢
      rw [append_nil t.session.vad.leftoverPcm] at hl
      exact hl
    · rw [if_neg hemp]
      dsimp only
      rw [hfms]
      exact hl
  · show (t.heard ++ pcm).length < 2 * (t.clearedAt + 512 * ((t.speech ++ _).length + 1))
    rw [show (t.speech ++ answers infer t.speech.length frames).length = _ from
      length_append, answers, length_map, length_range']
    exact hend.2

theorem handleAudioAppend_eq (s : AudioSession) (pcm : List UInt8) (infer : ℕ → ℚ) :
    s.handleAudioAppend pcm infer =
      if defaultMaxBufferBytes < s.audioBuffer.length + pcm.length then { s with closed := true }
      else (s.vad.process pcm infer).2.foldl handleVadEmit
        { s with audioBuffer := s.audioBuffer ++ pcm, vad := (s.vad.process pcm infer).1 } := by
  have htail : (s.audioBuffer ++ pcm).drop ((s.audioBuffer ++ pcm).length - pcm.length) = pcm := by
    rw [length_append, Nat.add_sub_cancel, drop_left]
  dsimp only [handleAudioAppend]
  rw [htail]

theorem audio_step {t t' : AudioTrace} {input : AudioInput} (hstep : audioStep t input = some t')
    (h : AudioKept t) : AudioKept t' := by
  obtain ⟨q, us, hheard, hrest⟩ := h
  cases input with
  | clear =>
    cases (of_not_guard hstep).2
    refine ⟨0, us, hheard.clear, ?_⟩
    show (t.heard.take _).length < 2 * (t.heard.length / 2 + 512 * 1)
    rw [length_take]
    omega
  | append pcm infer =>
    dsimp only [audioStep] at hstep
    split at hstep
    · cases hstep
    · next hopen =>
      rw [handleAudioAppend_eq] at hstep
      by_cases hfull : defaultMaxBufferBytes < t.session.audioBuffer.length + pcm.length
      · rw [if_pos hfull, if_pos rfl] at hstep
        cases hstep
        exact ⟨q, us, ⟨hheard.config, hheard.origin, hheard.buffer, hheard.boundary,
          hheard.leftover, hheard.room, hheard.consumed, hheard.quiet, hheard.silence,
          hheard.lastSpeech, hheard.idle, fun htalk => ⟨(hheard.talking htalk).short,
            (hheard.talking htalk).run⟩, hheard.known, hheard.ids, hheard.partition,
          hheard.files⟩, hrest⟩
      · rw [if_neg hfull, foldl_closed, if_neg hopen] at hstep
        cases hstep
        exact append_kept hheard hrest pcm infer

theorem audioKept_init : AudioKept {} := ⟨0, [], heard_init, by decide⟩

/-- The utterances that a session commits are disjoint and in order, each with the samples of a run
    of speech from its padding, or from the last clear or commit, to the end of its last frame with
    speech; the committed file has these samples, and the times reported for its item are their
    places in the session. -/
theorem audio_commits_partition {t : AudioTrace} (ht : audioSystem.Reachable t) :
    ∃ us, Partition t.epochs us ∧ (us.Pairwise fun u w => u.stop ≤ w.start) ∧
      List.Forall₂ (Reports t.session.sent t.heard) t.session.responseQueue us := by
  have hkept : AudioKept t := by
    refine ht.invariant (fun t₀ ht₀ => ?_) fun t input _ h hst =>
      audio_step (show audioStep t input = some _ from hst) h
    obtain rfl : t₀ = {} := ht₀
    exact audioKept_init
  obtain ⟨q, us, hheard, -⟩ := hkept
  exact ⟨us, hheard.partition, hheard.partition.pairwise, hheard.files⟩

/-- Half a second of silence after one frame with speech. -/
def exTalk : Option AudioTrace :=
  audioStep {} (.append (List.replicate 17408 0) fun k => if k = 0 then 1 else 0)

theorem audio_commits_partition_talk :
    ∃ t us, exTalk = some t ∧ t.session.sent =
        [.speechStarted 0 0, .speechStopped 32 0, .committed 0] ∧
      t.session.responseQueue.length = 1 ∧ Partition t.epochs us ∧
      (us.Pairwise fun u w => u.stop ≤ w.start) ∧
      List.Forall₂ (Reports t.session.sent t.heard) t.session.responseQueue us := by
  have hrun : exTalk.map (fun t => (t.session.sent, t.session.responseQueue.length)) =
      some ([.speechStarted 0 0, .speechStopped 32 0, .committed 0], 1) := by
    decide +kernel
  obtain ⟨t, ht, hsent⟩ := map_eq_some_iff.mp hrun
  obtain ⟨hsent, hqueue⟩ := Prod.mk.inj hsent
  have hreach : audioSystem.Reachable t := (System.Reachable.init rfl).step ht
  obtain ⟨us, hus⟩ := audio_commits_partition hreach
  exact ⟨t, us, ht, hsent, hqueue, hus⟩

end OmniRealtime
