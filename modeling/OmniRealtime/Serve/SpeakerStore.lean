import OmniRealtime.Lib.PyText

/-!
# The uploaded voices of a speech worker

`SpeakerSampleStore` of `speech_voices.py`, without the audio: which voice names a worker
holds, and how it normalizes and answers with them. A store holds voices under their
normalized names only, none of them a preset name.

1. `normalizeVoiceName_eq_ok`: an accepted name is plain ASCII text, its key the lower-cased
   stripped name.
2. `SpeakerSampleStore.get_eq_some`: a name the store finds is a spelling of a stored voice.
-/

namespace OmniRealtime

abbrev VoiceName := List Char

/-- One letter of `VOICE_NAME_PATTERN`. -/
def isVoiceChar (c : Char) : Bool := c.isAlphanum || c == '_' || c == '.' || c == '-'

/-- `VOICE_NAME_PATTERN.fullmatch`: letters, digits, `_`, `.` and `-`, one of them a letter or a
    digit. -/
def matchesVoicePattern (s : VoiceName) : Bool := s.any Char.isAlphanum && s.all isVoiceChar

def defaultVoicePresets : List VoiceName := ["default".toList]

/-- The texts of `SpeechAPIError`. -/
inductive VoiceError
  | nameEmpty
  | namePattern
  | nameReserved
  | refused (message : String)
  | limitReached (max : Nat)
  | deleteFailed (name : VoiceName)
  deriving DecidableEq, Repr

def normalizeVoiceName (py : PyLower) (name : VoiceName) : Except VoiceError VoiceName :=
  let value := strip name
  if value = [] then .error .nameEmpty
  else if matchesVoicePattern value then .ok (py.lower value)
  else .error .namePattern

structure UploadedVoice where
  name : VoiceName
  normalizedName : VoiceName
  deriving DecidableEq, Repr

/-- What a stored voice satisfies: its name is a plain name of which the key is the
    normalized form, and the key is no preset. -/
def UploadedVoice.Stored (py : PyLower) (v : UploadedVoice) : Prop :=
  normalizeVoiceName py v.name = .ok v.normalizedName ∧ strip v.name = v.name ∧
    v.normalizedName ∉ defaultVoicePresets

/-- `_voices`, in the order of the dict. -/
structure SpeakerSampleStore (py : PyLower) where
  voices : List UploadedVoice
  maxUploaded : Nat
  stored : ∀ v ∈ voices, v.Stored py

/-! ## Names -/

theorem isVoiceChar_bounds {c : Char} (h : isVoiceChar c = true) :
    33 ≤ c.toNat ∧ c.toNat < 128 := by
  simp only [isVoiceChar, Char.isAlphanum, Char.isAlpha, Char.isUpper, Char.isLower, Char.isDigit,
    Bool.or_eq_true, Bool.and_eq_true, decide_eq_true_eq, beq_iff_eq, UInt32.le_iff_toNat_le,
    ge_iff_le] at h
  have hval : c.toNat = c.val.toNat := rfl
  rcases h with ((((⟨hlo, hhi⟩ | ⟨hlo, hhi⟩) | ⟨hlo, hhi⟩) | rfl) | rfl) | rfl
  · have : 'A'.val.toNat = 65 := rfl
    have : 'Z'.val.toNat = 90 := rfl
    omega
  · have : 'a'.val.toNat = 97 := rfl
    have : 'z'.val.toNat = 122 := rfl
    omega
  · have : '0'.val.toNat = 48 := rfl
    have : '9'.val.toNat = 57 := rfl
    omega
  · decide
  · decide
  · decide

theorem pyIsSpace_of_voiceChar {c : Char} (h : isVoiceChar c = true) : pyIsSpace c = false := by
  obtain ⟨hlo, hhi⟩ := isVoiceChar_bounds h
  unfold pyIsSpace
  rw [decide_eq_false_iff_not]
  omega

theorem ascii_of_pattern {s : VoiceName} (h : matchesVoicePattern s = true) : IsAscii s := by
  intro c hc
  rw [matchesVoicePattern, Bool.and_eq_true, List.all_eq_true] at h
  exact (isVoiceChar_bounds (h.2 c hc)).2

theorem strip_of_pattern {s : VoiceName} (h : matchesVoicePattern s = true) : strip s = s := by
  refine strip_eq_self fun c hc => ?_
  rw [matchesVoicePattern, Bool.and_eq_true, List.all_eq_true] at h
  exact pyIsSpace_of_voiceChar (h.2 c hc)

theorem normalizeVoiceName_eq_ok {py : PyLower} {name key : VoiceName}
    (h : normalizeVoiceName py name = .ok key) :
    strip name ≠ [] ∧ matchesVoicePattern (strip name) = true ∧ key = py.lower (strip name) := by
  dsimp only [normalizeVoiceName] at h
  split at h
  · cases h
  split at h
  · next hne hpat => exact ⟨hne, hpat, (Except.ok.inj h).symm⟩
  · cases h

theorem normalizeVoiceName_strip {py : PyLower} {name key : VoiceName}
    (h : normalizeVoiceName py name = .ok key) :
    normalizeVoiceName py (strip name) = .ok key ∧ strip (strip name) = strip name := by
  obtain ⟨hne, hpat, rfl⟩ := normalizeVoiceName_eq_ok h
  have hstrip := strip_of_pattern hpat
  refine ⟨?_, hstrip⟩
  dsimp only [normalizeVoiceName]
  rw [hstrip, if_neg hne, if_pos hpat]

/-! ## The store -/

namespace SpeakerSampleStore

variable {py : PyLower}

def uploadedVoiceNames (s : SpeakerSampleStore py) : List VoiceName :=
  (s.voices.map UploadedVoice.name).insertionSort fun a b => py.lower a ≤ py.lower b

def get (s : SpeakerSampleStore py) (name : VoiceName) : Except VoiceError (Option UploadedVoice) :=
  (normalizeVoiceName py name).map fun key => s.voices.find? fun v => v.normalizedName == key

/-- `_voices[key] = voice`: an old entry keeps its place. -/
def insertVoice (voices : List UploadedVoice) (voice : UploadedVoice) : List UploadedVoice :=
  if voices.any fun v => v.normalizedName == voice.normalizedName then
    voices.map fun v => if v.normalizedName = voice.normalizedName then voice else v
  else voices ++ [voice]

theorem mem_insertVoice {voices : List UploadedVoice} {voice v : UploadedVoice}
    (h : v ∈ insertVoice voices voice) : v = voice ∨ v ∈ voices := by
  unfold insertVoice at h
  split at h
  · obtain ⟨w, hw, heq⟩ := List.mem_map.mp h
    split at heq
    · exact .inl heq.symm
    · exact .inr (heq ▸ hw)
  · rcases List.mem_append.mp h with h | h
    · exact .inr h
    · exact .inl (List.mem_singleton.mp h)

/-- `upload`, once the consent and the audio sample are read; `refusal` is the error these
    checks and the voice file can raise. The store and the name answered. -/
def upload (s : SpeakerSampleStore py) (name : VoiceName) (refusal : Option VoiceError) :
    Except VoiceError (SpeakerSampleStore py × VoiceName) :=
  match hkey : normalizeVoiceName py name with
  | .error e => .error e
  | .ok key =>
    if hpreset : key ∈ defaultVoicePresets then .error .nameReserved
    else match refusal with
      | some e => .error e
      | none =>
        let replaced := s.voices.any fun v => v.normalizedName == key
        if !replaced && s.maxUploaded ≤ s.voices.length then .error (.limitReached s.maxUploaded)
        else
          let voice : UploadedVoice := ⟨strip name, key⟩
          .ok ({ voices := insertVoice s.voices voice
                 maxUploaded := s.maxUploaded
                 stored := fun v hv => by
                   rcases mem_insertVoice hv with rfl | hv
                   · obtain ⟨hok, hstrip⟩ := normalizeVoiceName_strip hkey
                     exact ⟨hok, hstrip, hpreset⟩
                   · exact s.stored v hv }, strip name)

/-- `delete`; `unlinks` says whether the voice file can be removed. -/
def delete (s : SpeakerSampleStore py) (name : VoiceName) (unlinks : Bool) :
    Except VoiceError (SpeakerSampleStore py × Bool) :=
  match normalizeVoiceName py name with
  | .error e => .error e
  | .ok key =>
    match s.voices.find? fun v => v.normalizedName == key with
    | none => .ok (s, false)
    | some voice =>
      if unlinks then
        .ok ({ voices := s.voices.filter fun v => v.normalizedName != key
               maxUploaded := s.maxUploaded
               stored := fun v hv => s.stored v (List.mem_of_mem_filter hv) }, true)
      else .error (.deleteFailed voice.name)

theorem get_eq_some {s : SpeakerSampleStore py} {name : VoiceName} {v : UploadedVoice}
    (h : s.get name = .ok (some v)) :
    v ∈ s.voices ∧ normalizeVoiceName py name = .ok v.normalizedName := by
  unfold get at h
  cases hkey : normalizeVoiceName py name with
  | error e => rw [hkey] at h; cases h
  | ok key =>
    rw [hkey] at h
    have hfind := Except.ok.inj h
    refine ⟨List.mem_of_find?_eq_some hfind, ?_⟩
    rw [show v.normalizedName = key from by simpa using List.find?_some hfind]

end SpeakerSampleStore

end OmniRealtime
