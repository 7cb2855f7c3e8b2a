import OmniRealtime.Lib.System
import OmniRealtime.Speech.MossTranscript

/-!
# The staircase of an audio segment

One request over a whole run: `_collect_moss_step`, `_delay_state_tensor` and
`post_process_outputs` of `models/moss_tts/model_runner.py`.

1. `GenerationData`, `generationStep`: the request with its prefills, decode steps and
   retractions.
2. `Payload.staircase`: the codes of a payload, row by row and channel by channel.
3. `Steps.segment`: what the machine puts out between a start of audio and its end is a payload.
4. `delay_segments_staircase`: every segment is a staircase of whole frames, and the flag of the
   host agrees with the delay state.
-/

namespace OmniRealtime

open List Option

namespace Moss

open DelayState

variable {cfg : DelayConfig}

/-! ## A request -/

inductive RequestStatus
  | waiting
  | running
  | finished
deriving DecidableEq

/-- What the runner reads and writes of a request. `host` has the fields `audio_length`,
`delayed_length` and `is_audio`, `deviceState` is the tensor `delay_state`. -/
structure GenerationData (cfg : DelayConfig) where
  host : DelayState
  deviceState : Option DelayState := none
  generationSteps : ℕ := 0
  outputRows : List (Row cfg.nVq) := []
  status : RequestStatus := .waiting

namespace GenerationData

def delayStateTensor (data : GenerationData cfg) : DelayState := data.deviceState.getD data.host

/-- `_sample_rows` for one request. The host's fields follow on a CPU only. -/
def sample (onCpu : Bool) (data : GenerationData cfg) (draw : Draw cfg.nVq) :
    Row cfg.nVq × GenerationData cfg :=
  let (row, next) := sampleRow cfg data.delayStateTensor draw.text draw.codes
  (row, { data with deviceState := some next, host := if onCpu then next else data.host })

/-- `post_process_outputs` for one request. -/
def postProcess (data : GenerationData cfg) (row : Row cfg.nVq) : GenerationData cfg :=
  { data with
    host :=
      if row.text = cfg.audioStartTokenId then { data.host with isAudio := true }
      else if row.text = cfg.audioEndTokenId then { data.host with isAudio := false }
      else data.host
    outputRows :=
      if row.text = cfg.imEndTokenId then data.outputRows else data.outputRows ++ [row] }

/-- A forward pass that samples a row. `im_end` finishes the request; `stops` says that its length
does. -/
def forward (onCpu : Bool) (data : GenerationData cfg) (draw : Draw cfg.nVq) (stops : Bool) :
    Option (GenerationData cfg) :=
  if drawable cfg data.delayStateTensor data.generationSteps draw then
    let (row, next) := data.sample onCpu draw
    some { next.postProcess row with
      generationSteps := data.generationSteps + 1
      status := if stops || row.text == cfg.imEndTokenId then .finished else .running }
  else none

end GenerationData

inductive GenerationEvent (n : ℕ)
  /-- Of the prompt, or of a request that was retracted. -/
  | prefill (draw : Draw n) (stops : Bool)
  | decode (draw : Draw n) (stops : Bool)
  /-- The cache of a request is given up. What the runner has of it stays. -/
  | retract

def generationStep (onCpu : Bool) (data : GenerationData cfg) :
    GenerationEvent cfg.nVq → Option (GenerationData cfg)
  | .prefill draw stops => if data.status = .waiting then data.forward onCpu draw stops else none
  | .decode draw stops => if data.status = .running then data.forward onCpu draw stops else none
  | .retract => if data.status = .running then some { data with status := .waiting } else none

/-- The runs of a request with this prompt. -/
def generationSystem (cfg : DelayConfig) (onCpu : Bool) (promptRows : List (Row cfg.nVq)) :
    System (GenerationData cfg) (GenerationEvent cfg.nVq) :=
  .ofFun (fun data => data = { host := initialState cfg promptRows }) (generationStep onCpu)

/-! ## The codes of a payload -/

/-- All rows of a segment but its first `skipped`: `T` frames, each channel a row behind the one
before it. -/
structure Staircase (cfg : DelayConfig) (skipped T : ℕ) (rows : List (Row cfg.nVq)) : Prop where
  pos : 0 < T
  length : skipped + rows.length = T + cfg.nVq - 1
  codes : ∀ (r : ℕ) (hr : r < rows.length) (c : Fin cfg.nVq),
    if c.1 ≤ skipped + r ∧ skipped + r < T + c.1 then rows[r].codes c < cfg.audioPadCode
    else rows[r].codes c = cfg.audioPadCode
  frames : skipped = 0 → (frames rows).length = T ∧
    ∀ frame ∈ frames rows, ∀ c, frame c < cfg.audioPadCode

theorem complete_of_nonPad {frame : Codes cfg.nVq} (h : nonPad cfg.audioPadCode frame = true) :
    ∀ c, frame c < cfg.audioPadCode := of_decide_eq_true (Bool.and_eq_true_iff.mp h).2

theorem Payload.staircase {j : ℕ} {rows : List (Row cfg.nVq)} (h : Payload cfg 0 j rows true) :
    ∃ T, Staircase cfg j T rows := by
  obtain ⟨g, -, hlen, hsps⟩ := h.spans
  have hcnt := hlen rfl
  have hfms := h.live
  refine ⟨j + g + 1, Nat.succ_pos _, by omega, fun r hr c => ?_, fun hj => ⟨?_, ?_⟩⟩
  · have hspan := hsps r hr c
    by_cases hin : 0 + (r - g) ≤ c.1 ∧ c.1 ≤ j + r
    · rw [if_pos hin] at hspan
      rw [if_pos ⟨hin.2, by omega⟩]
      exact hspan
    · rw [if_neg hin] at hspan
      rw [if_neg fun hstairs => hin ⟨by omega, hstairs.1⟩]
      exact hspan
  · rw [Moss.frames, Delay.length_dedelay cfg.nVq_pos, length_map]
    omega
  · exact fun frame hfrm => complete_of_nonPad (hfms frame hfrm)

/-! ## Segments -/

section Segments

variable {i j : ℕ} {whole : Bool} {first last last' : Row cfg.nVq}
  {rows payload rest before segment after tail : List (Row cfg.nVq)}

theorem Payload.no_end (h : Payload cfg i j rows whole) :
    ∀ row ∈ rows, row.text ≠ cfg.audioEndTokenId := by
  intro row hrow
  rcases h.text row hrow with ht | ht
  · exact ht ▸ gen_plain.2.1
  · exact ht ▸ delay_plain.2.1

theorem Payload.no_start (h : Payload cfg i j rows whole) :
    ∀ row ∈ rows, row.text ≠ cfg.audioStartTokenId := by
  intro row hrow
  rcases h.text row hrow with ht | ht
  · exact ht ▸ gen_plain.1
  · exact ht ▸ delay_plain.1

theorem takeWhile_segment (hlast : last.text = cfg.audioEndTokenId)
    (hrows : ∀ row ∈ rows, row.text ≠ cfg.audioEndTokenId) :
    (rows ++ last :: rest).takeWhile (·.text != cfg.audioEndTokenId) = rows := by
  rw [takeWhile_append_of_pos (by simpa using hrows),
    takeWhile_cons_of_neg (by simp [hlast]), append_nil]

theorem Payload.eq_segment (h : Payload cfg i j payload whole)
    (hlast' : last'.text = cfg.audioEndTokenId) (hlast : last.text = cfg.audioEndTokenId)
    (hsegment : ∀ row ∈ segment, row.text ≠ cfg.audioEndTokenId)
    (hrows : payload ++ last' :: rest = segment ++ last :: after) : payload = segment := by
  have hwhole := congrArg (List.takeWhile (·.text != cfg.audioEndTokenId)) hrows
  rwa [takeWhile_segment hlast' h.no_end, takeWhile_segment hlast hsegment] at hwhole

theorem Payload.behind (h : Payload cfg i j payload whole)
    (hlast : last.text = cfg.audioEndTokenId) (hfirst : first.text = cfg.audioStartTokenId)
    (hrows : payload ++ last :: rest = before ++ first :: tail) :
    ∃ mid, rest = mid ++ first :: tail := by
  have hne : first ≠ last := fun heq => start_ne_end (hfirst.symm.trans (heq ▸ hlast))
  rcases append_eq_append_iff.mp hrows with ⟨mid, -, hrest⟩ | ⟨mid, hin, hrest⟩
  · cases mid with
    | nil => exact absurd (cons.inj hrest).1.symm hne
    | cons row mid => exact ⟨mid, (cons.inj hrest).2⟩
  · cases mid with
    | nil => exact absurd (cons.inj hrest).1 hne
    | cons row mid =>
      obtain ⟨rfl, -⟩ := cons.inj hrest
      exact absurd hfirst (h.no_start _ (hin ▸ by simp))

theorem Transcript.payload_of_segment {payloads : List (List (Row cfg.nVq))}
    (h : Transcript cfg rows payloads)
    (hrows : rows = before ++ first :: (segment ++ last :: after))
    (hfirst : first.text = cfg.audioStartTokenId) (hlast : last.text = cfg.audioEndTokenId)
    (hsegment : ∀ row ∈ segment, row.text ≠ cfg.audioEndTokenId) :
    Payload cfg 0 0 segment true := by
  induction h generalizing before with
  | nil => cases before <;> cases hrows
  | text hpln _ _ ih => cases before with
    | nil =>
      obtain ⟨rfl, -⟩ := cons.inj hrows
      exact absurd hfirst hpln.start
    | cons row before => exact ih (cons.inj hrows).2
  | @audio first' last' payload rest payloads _ _ hp hlast' _ _ ih => cases before with
    | nil =>
      obtain ⟨-, htail⟩ := cons.inj hrows
      exact hp.eq_segment hlast' hlast hsegment htail ▸ hp
    | cons row before =>
      obtain ⟨mid, hrest⟩ := hp.behind hlast' hfirst (cons.inj hrows).2
      exact ih hrest
  | cut _ _ hp => cases before with
    | nil =>
      obtain ⟨-, rfl⟩ := cons.inj hrows
      exact absurd hlast (hp.no_end last (by simp))
    | cons row before =>
      obtain ⟨-, rfl⟩ := cons.inj hrows
      exact absurd hfirst (hp.no_start first (by simp))

/-- From inside audio the machine ends the payload first. -/
theorem PayloadRest.first_segment (h : PayloadRest cfg 0 j rows)
    (hrows : rows = segment ++ last :: after) (hlast : last.text = cfg.audioEndTokenId)
    (hsegment : ∀ row ∈ segment, row.text ≠ cfg.audioEndTokenId) :
    Payload cfg 0 j segment true := by
  cases h with
  | cut hp => exact absurd hlast (hp.no_end last (hrows ▸ by simp))
  | whole heq hp hlast' _ _ =>
    exact hp.eq_segment hlast' hlast hsegment (heq.symm.trans hrows) ▸ hp

theorem PayloadRest.later_segment (h : PayloadRest cfg 0 j rows)
    (hrows : rows = before ++ first :: (segment ++ last :: after))
    (hfirst : first.text = cfg.audioStartTokenId) (hlast : last.text = cfg.audioEndTokenId)
    (hsegment : ∀ row ∈ segment, row.text ≠ cfg.audioEndTokenId) :
    Payload cfg 0 0 segment true := by
  cases h with
  | cut hp => exact absurd hfirst (hp.no_start first (hrows ▸ by simp))
  | whole heq hp hlast' _ htranscript =>
    obtain ⟨mid, hrest⟩ := hp.behind hlast' hfirst (heq.symm.trans hrows)
    exact htranscript.payload_of_segment hrest hfirst hlast hsegment

end Segments

/-! ## The flag -/

section Step

variable {st : DelayState} {steps : ℕ} {draw : Draw cfg.nVq}

/-- The end of audio is forced, and never behind a row of a payload. -/
theorem audioMask_of_end (h : drawable cfg st steps draw = true)
    (hend : st.nextText cfg draw.text = cfg.audioEndTokenId) : st.audioMask cfg = false := by
  rw [← Bool.not_eq_true]
  intro hmask
  have hsampled : st.samplesText cfg = true → draw.text ≠ cfg.audioEndTokenId := by
    intro hsample
    have hallowed := text_allowed h hsample
    rw [textAllowed, if_pos hmask, Bool.and_eq_true, Bool.and_eq_true, Bool.or_eq_true] at hallowed
    rcases hallowed.1.1 with ht | ht
    · exact eq_of_beq ht ▸ gen_plain.2.1
    · exact eq_of_beq ht ▸ delay_plain.2.1
  unfold nextText at hend
  split at hend
  next hdelayed => exact hsampled (by rw [samplesText, hdelayed]) hend
  next d hdelayed =>
    split_ifs at hend with hlt heq
    · exact delay_plain.2.1 hend
    · rw [audioMask, hdelayed, heq, bne_self_eq_false, Bool.and_false] at hmask
      cases hmask
    · refine hsampled ?_ hend
      rw [samplesText, hdelayed]
      exact decide_eq_true (Nat.lt_of_le_of_ne (not_lt.mp hlt) (Ne.symm heq))

theorem audioMask_of_ne_end (h : st.nextText cfg draw.text ≠ cfg.audioEndTokenId) :
    st.audioMask cfg = st.isAudio := by
  rw [audioMask]
  have hdelayed : st.delayed ≠ some cfg.nVq := by
    intro heq
    rw [nextText, heq] at h
    simp at h
  rw [bne_iff_ne.mpr hdelayed, Bool.and_true]

/-- The flag behind a row that does not end the request, read off its text token. -/
theorem isAudio_sampleRow (h : drawable cfg st steps draw = true)
    (hgoesOn : (sampleRow cfg st draw.text draw.codes).1.text ≠ cfg.imEndTokenId) :
    (sampleRow cfg st draw.text draw.codes).2.isAudio =
      if (sampleRow cfg st draw.text draw.codes).1.text = cfg.audioStartTokenId then true
      else if (sampleRow cfg st draw.text draw.codes).1.text = cfg.audioEndTokenId then false
      else st.isAudio := by
  change st.nextText cfg draw.text ≠ _ at hgoesOn
  simp only [sampleRow, bne_iff_ne.mpr hgoesOn, Bool.and_true]
  split_ifs with hsrt hend
  · rw [hsrt, beq_self_eq_true, Bool.or_true]
  · rw [audioMask_of_end h hend, beq_eq_false_iff_ne.mpr hsrt, Bool.or_false]
  · rw [audioMask_of_ne_end hend, beq_eq_false_iff_ne.mpr hsrt, Bool.or_false]

end Step

/-! ## Runs -/

/-- The rows put out are rows of the machine, and an unfinished request stands where they lead. -/
structure Follows (promptRows : List (Row cfg.nVq)) (data : GenerationData cfg) : Prop where
  rows : ∃ st, Steps cfg (initialState cfg promptRows) data.outputRows st ∧
    (data.status ≠ .finished → st = data.delayStateTensor)
  flag : data.status ≠ .finished → data.host.isAudio = data.delayStateTensor.isAudio

variable {promptRows : List (Row cfg.nVq)} {data next : GenerationData cfg} {onCpu stops : Bool}
  {draw : Draw cfg.nVq}

/-- What a forward pass leaves behind. -/
theorem GenerationData.forward_spec (h : data.forward onCpu draw stops = some next) :
    drawable cfg data.delayStateTensor data.generationSteps draw = true ∧
      ∃ row st, sampleRow cfg data.delayStateTensor draw.text draw.codes = (row, st) ∧
        next.deviceState = some st ∧
        next.outputRows =
          (if row.text = cfg.imEndTokenId then data.outputRows else data.outputRows ++ [row]) ∧
        (row.text = cfg.imEndTokenId → next.status = .finished) ∧
        next.host.isAudio =
          if row.text = cfg.audioStartTokenId then true
          else if row.text = cfg.audioEndTokenId then false
          else if onCpu then st.isAudio else data.host.isAudio := by
  obtain ⟨hdraw, ⟨⟩⟩ := of_guard h
  refine ⟨hdraw, _, _, rfl, rfl, rfl, fun hend => ?_, ?_⟩
  · refine if_pos ?_
    rw [hend, beq_self_eq_true, Bool.or_true]
  · cases onCpu <;> simp only [postProcess] <;> split_ifs <;> rfl

theorem Follows.forward (h : Follows promptRows data)
    (hopen : data.status ≠ .finished) (hnext : data.forward onCpu draw stops = some next) :
    Follows promptRows next := by
  obtain ⟨hdraw, row, st, hrow, hdevice, houtput, hfin, hfg⟩ :=
    GenerationData.forward_spec hnext
  obtain ⟨_, hsteps, hst⟩ := h.rows
  obtain rfl := hst hopen
  have hnow : next.delayStateTensor = st := by rw [GenerationData.delayStateTensor, hdevice]; rfl
  by_cases hend : row.text = cfg.imEndTokenId
  · -- the row of `im_end` is not kept
    refine ⟨⟨data.delayStateTensor, ?_, fun hrunning => absurd (hfin hend) hrunning⟩,
      fun hrunning => absurd (hfin hend) hrunning⟩
    rw [houtput, if_pos hend]
    exact hsteps
  · refine ⟨⟨st, ?_, fun _ => hnow.symm⟩, fun _ => ?_⟩
    · rw [houtput, if_neg hend]
      have hone := Steps.cons draw (drawable_late hdraw) (.nil _)
      rw [hrow] at hone
      exact hsteps.append hone
    · have hdevice := isAudio_sampleRow hdraw (by rw [hrow]; exact hend)
      rw [hrow, ← h.flag hopen] at hdevice
      rw [hfg, hnow]
      cases onCpu with
      | false => exact hdevice.symm
      | true => split_ifs at hdevice ⊢ <;> first | exact hdevice.symm | rfl

theorem Follows.step {e : GenerationEvent cfg.nVq} (h : Follows promptRows data)
    (hstep : generationStep onCpu data e = some next) : Follows promptRows next := by
  cases e with
  | prefill draw stops =>
    obtain ⟨hwaiting, hstep⟩ := ite_none_right_eq_some.mp hstep
    exact h.forward (by rw [hwaiting]; decide) hstep
  | decode draw stops =>
    obtain ⟨hrunning, hstep⟩ := ite_none_right_eq_some.mp hstep
    exact h.forward (by rw [hrunning]; decide) hstep
  | retract =>
    obtain ⟨hrunning, ⟨⟩⟩ := of_guard hstep
    have hopen : data.status ≠ .finished := by rw [hrunning]; decide
    obtain ⟨st, hsteps, hst⟩ := h.rows
    exact ⟨⟨st, hsteps, fun _ => hst hopen⟩, fun _ => h.flag hopen⟩

/-- A generation starts outside audio, or behind the rows of a segment that the prompt has. -/
theorem initialState_cases (promptRows : List (Row cfg.nVq)) :
    initialState cfg promptRows = .idle ∨
      initialState cfg promptRows = phase 0 ((initialState cfg promptRows).audioLength - 1) := by
  unfold initialState
  split
  next last i hlast hi =>
    split_ifs
    · have hlt : i < promptRows.length := by
        have hmem := mem_of_find?_eq_some hi
        exact mem_range.mp (mem_reverse.mp hmem)
      refine .inr ?_
      rw [phase, if_pos rfl, Nat.sub_add_cancel (Nat.sub_pos_of_lt hlt)]
    · exact .inl rfl
  next => exact .inl rfl

/-- Between a start of audio and its end the rows of a request are a staircase of whole frames,
the prompt's part of the segment left out; and the flag on the host agrees with the delay state
of every request that is not finished. -/
theorem delay_segments_staircase {cfg : DelayConfig} {onCpu : Bool}
    {promptRows : List (Row cfg.nVq)} {data : GenerationData cfg}
    (h : (generationSystem cfg onCpu promptRows).Reachable data) :
    (data.status ≠ .finished → data.host.isAudio = data.delayStateTensor.isAudio) ∧
      (∀ (before segment after : List (Row cfg.nVq)) (first last : Row cfg.nVq),
        data.outputRows = before ++ first :: (segment ++ last :: after) →
        first.text = cfg.audioStartTokenId → last.text = cfg.audioEndTokenId →
        (∀ row ∈ segment, row.text ≠ cfg.audioEndTokenId) →
        ∃ T, Staircase cfg 0 T segment) ∧
      ∀ (segment after : List (Row cfg.nVq)) (last : Row cfg.nVq),
        (initialState cfg promptRows).isAudio = true →
        data.outputRows = segment ++ last :: after → last.text = cfg.audioEndTokenId →
        (∀ row ∈ segment, row.text ≠ cfg.audioEndTokenId) →
        ∃ T, Staircase cfg ((initialState cfg promptRows).audioLength - 1) T segment := by
  have hfollows : Follows promptRows data := by
    refine h.invariant (P := Follows promptRows) (fun s hinit => ?_)
      fun s e t hs hstep => hs.step hstep
    obtain rfl := hinit
    exact ⟨⟨_, .nil _, fun _ => rfl⟩, fun _ => rfl⟩
  obtain ⟨st, hsteps, -⟩ := hfollows.rows
  refine ⟨hfollows.flag, ?_, ?_⟩
  · intro before segment after first last hrows hfirst hlast hsegment
    rcases initialState_cases promptRows with hidle | hphase
    · obtain ⟨payloads, htranscript⟩ := hsteps.parse.1 hidle
      exact (htranscript.payload_of_segment hrows hfirst hlast hsegment).staircase
    · have hrest := hsteps.parse.2 0 _ (Nat.zero_le _) hphase
      exact (hrest.later_segment hrows hfirst hlast hsegment).staircase
  · intro segment after last haudio hrows hlast hsegment
    rcases initialState_cases promptRows with hidle | hphase
    · rw [hidle] at haudio
      cases haudio
    · have hrest := hsteps.parse.2 0 _ (Nat.zero_le _) hphase
      exact (hrest.first_segment hrows hlast hsegment).staircase

/-- One codebook, a frame and its end. -/
def oneBook : DelayConfig := ⟨1, 0, 1, 2, 3, 4, 5, 6, 9, Nat.one_pos, by decide⟩

theorem oneBook_staircase : ∃ data, (generationSystem oneBook false []).Reachable data ∧
    data.outputRows.map Row.text = [3, 6, 4] ∧
    data.host.isAudio = data.delayStateTensor.isAudio := by
  have hrun : ((System.exec (@generationStep oneBook false) { host := .idle }
      [.prefill ⟨3, fun _ => 7⟩ false, .retract, .prefill ⟨6, fun _ => 7⟩ false,
        .decode ⟨5, fun _ => 8⟩ false]).map fun data =>
      (data.outputRows.map Row.text, data.status)) = some ([3, 6, 4], .running) := by decide
  obtain ⟨data, hrun, hval⟩ := map_eq_some_iff.mp hrun
  obtain ⟨hrows, hstatus⟩ := Prod.mk.inj hval
  have hreach : (generationSystem oneBook false []).Reachable data := .of_exec (.init rfl) hrun
  refine ⟨data, hreach, hrows, (delay_segments_staircase hreach).1 ?_⟩
  rw [hstatus]
  decide

end Moss

end OmniRealtime
