import OmniRealtime.Lib.Dict
import OmniRealtime.Lib.PyNumeral
import OmniRealtime.Lib.System
import OmniRealtime.Serve.SpeakerStore

/-!
# Audio of uploaded voices

`SpeakerSampleStore` of `serve/speech_voices.py`, with its files and its cache of data URLs. What a
lock holds together is one step; a temporary file is written, and a sample is read, without the
lock. Temporary files do not end in `.safetensors` and are left out of the directory.

A data URL is a function of the samples and their rate, which stand for it.

1. `voiceFromMetadata_toSafetensorsMetadata`: a voice is restored from the file it was saved to.
2. `storeStep`: uploads, deletions and resolutions, step by step, with file operations that fail.
3. `storeStep_frame`: only what succeeds changes voices and files.
4. `Versioned.step`: what is registered, cached and read belongs together.
5. `voice_references_match`: the audio of a reference, the bound on the voices, and what is read
   back from the directory.
-/

namespace OmniRealtime

open List Option

namespace VoiceVersions

open Dict

abbrev Text := List Char

/-! ## Voices and their files -/

def defaultSampleRate : Int := 24000

structure UploadedVoice where
  name : Text
  normalizedName : Text
  consent : Text
  createdAt : Int
  fileSize : Int
  mimeType : Text
  originalFilename : Text
  sampleRate : Int
  numSamples : Int
  fingerprint : Text
  filePath : Text
  refText : Option Text
  speakerDescription : Option Text
deriving DecidableEq, Repr

def UploadedVoice.toSafetensorsMetadata (v : UploadedVoice) : Dict String Text :=
  [("name", v.name), ("normalized_name", v.normalizedName), ("consent", v.consent),
    ("created_at", pyStr v.createdAt), ("file_size", pyStr v.fileSize), ("mime_type", v.mimeType),
    ("original_filename", v.originalFilename), ("sample_rate", pyStr v.sampleRate),
    ("num_samples", pyStr v.numSamples), ("fingerprint", v.fingerprint)] ++
  (v.refText.map fun text => ("ref_text", text)).toList ++
  (v.speakerDescription.map fun text => ("speaker_description", text)).toList

/-- A `.safetensors` file of the directory; it has no metadata where it cannot be read. -/
structure VoiceFile (α : Type) where
  metadata : Option (Dict String Text)
  samples : Option α
  size : Int
deriving DecidableEq, Repr

/-- `a or b`, of texts that may be `None`. -/
def textOr : Option Text → Option Text → Option Text
  | some (c :: text), _ => some (c :: text)
  | _, text => text

/-- A field of `VOICE_METADATA_INT_FIELDS`. -/
def intField (metadata : Dict String Text) (key : String) (default : Int) : Option Int :=
  match metadata.get key with
  | some text => pyInt text
  | none => some default

/-- `_voice_from_metadata`; `none` where it raises. -/
def voiceFromMetadata (py : PyLower) (metadata : Dict String Text) (path : Text) (size : Int) :
    Option UploadedVoice := do
  let normalizedName ←
    textOr (metadata.get "normalized_name") (metadata.get "voice_name_lower")
  let name ← textOr (metadata.get "name") (some normalizedName)
  let createdAt ← intField metadata "created_at" 0
  let fileSize ← intField metadata "file_size" size
  let sampleRate ← intField metadata "sample_rate" defaultSampleRate
  let numSamples ← intField metadata "num_samples" 0
  let key ← (normalizeVoiceName py normalizedName).toOption
  some {
    name
    normalizedName := key
    consent := (metadata.get "consent").getD []
    createdAt
    fileSize
    mimeType := (metadata.get "mime_type").getD "audio/wav".toList
    originalFilename := (metadata.get "original_filename").getD []
    sampleRate
    numSamples
    fingerprint := (metadata.get "fingerprint").getD []
    filePath := path
    refText := metadata.get "ref_text"
    speakerDescription := metadata.get "speaker_description" }

/-- The voice of a file, if it can be restored. -/
def voiceOf {α : Type} (py : PyLower) (path : Text) (file : VoiceFile α) : Option UploadedVoice :=
  file.metadata.bind fun metadata => voiceFromMetadata py metadata path file.size

/-- The path of the file that a voice is saved to. -/
def voicePath (root normalizedName : Text) : Text :=
  root ++ '/' :: normalizedName ++ ".safetensors".toList

/-- What an upload builds: a name, a normalized one, and the path of its file. -/
structure UploadedVoice.Prepared (py : PyLower) (root : Text) (v : UploadedVoice) : Prop where
  name_ne_nil : v.name ≠ []
  normalized : normalizeVoiceName py v.normalizedName = .ok v.normalizedName
  path : v.filePath = voicePath root v.normalizedName

theorem voicePath_inj {root name name' : Text} (h : voicePath root name = voicePath root name') :
    name = name' := by
  rw [voicePath, voicePath, append_assoc, append_assoc] at h
  have hcons := append_cancel_left h
  rw [cons_append, cons_append, List.cons.injEq] at hcons
  exact append_cancel_right hcons.2

theorem textOr_of_ne_nil {text : Text} (h : text ≠ []) (other : Option Text) :
    textOr (some text) other = some text := by
  cases text with
  | nil => exact absurd rfl h
  | cons c text => rfl

variable {v : UploadedVoice}

theorem voiceFromMetadata_toSafetensorsMetadata {py : PyLower} {root : Text}
    (h : v.Prepared py root) (size : Int) :
    voiceFromMetadata py v.toSafetensorsMetadata v.filePath size = some v := by
  have hne : v.normalizedName ≠ [] := by
    intro hnil
    have hok := h.normalized
    rw [hnil] at hok
    cases hok
  obtain ⟨hname, hnormalized, _⟩ := h
  obtain ⟨name, normalizedName, consent, createdAt, fileSize, mimeType, originalFilename,
    sampleRate, numSamples, fingerprint, filePath, refText, speakerDescription⟩ := v
  dsimp only at hname hnormalized hne
  cases refText <;> cases speakerDescription <;>
    simp [voiceFromMetadata, UploadedVoice.toSafetensorsMetadata, Dict.get, List.lookup, intField,
      pyInt_pyStr, textOr_of_ne_nil hname, textOr_of_ne_nil hne, hnormalized, Except.toOption]

/-! ## Restoring -/

local instance lawfulText : LawfulBEq Text := inferInstance

/-- The second loop of `_restore`: the voices that are kept, and the last time stamp. -/
def restoreVoice (maxUploaded : Nat) (restored : Dict Text UploadedVoice × Int)
    (voice : UploadedVoice) : Dict Text UploadedVoice × Int :=
  if voice.normalizedName ∈ restored.1.keys then restored
  else if maxUploaded ≤ restored.1.length then restored
  else (restored.1.set voice.normalizedName voice, max restored.2 voice.createdAt)

/-- The voices that the files of a directory hold. -/
def candidates {α : Type} (py : PyLower) (files : Dict Text (VoiceFile α)) : List UploadedVoice :=
  files.filterMap fun file => voiceOf py file.1 file.2

def restore {α : Type} (py : PyLower) (maxUploaded : Nat) (files : Dict Text (VoiceFile α)) :
    Dict Text UploadedVoice × Int :=
  ((candidates py (files.insertionSort fun a b => a.1 ≤ b.1)).insertionSort
    fun v w => w.createdAt ≤ v.createdAt).foldl (restoreVoice maxUploaded) ([], 0)

theorem filePath_of_voiceOf {α : Type} {py : PyLower} {path : Text} {file : VoiceFile α}
    (h : voiceOf py path file = some v) : v.filePath = path := by
  rw [voiceOf] at h
  obtain ⟨metadata, _, h⟩ := bind_eq_some_iff.mp h
  rw [voiceFromMetadata] at h
  simp only [bind_eq_bind, bind_eq_some_iff, some.injEq] at h
  obtain ⟨_, _, _, _, _, _, _, _, _, _, _, _, _, _, rfl⟩ := h
  rfl

/-- What the loop has restored, of some voices. -/
structure Restored (maxUploaded : Nat) (voices : List UploadedVoice)
    (restored : Dict Text UploadedVoice × Int) : Prop where
  keys : restored.1.keys.Nodup
  size : restored.1.length ≤ maxUploaded
  voice : ∀ e ∈ restored.1, e.1 = e.2.normalizedName ∧ e.2 ∈ voices ∧ e.2.createdAt ≤ restored.2

theorem length_set {β : Type} (d : Dict Text β) (k : Text) (b : β) :
    (d.set k b).length = if k ∈ d.keys then d.length else d.length + 1 := by
  rw [Dict.set]
  split
  · exact length_map _
  · exact length_append

theorem Restored.restoreVoice {maxUploaded : Nat} {voices : List UploadedVoice}
    {restored : Dict Text UploadedVoice × Int} (h : Restored maxUploaded voices restored)
    {voice : UploadedVoice} (hvoice : voice ∈ voices) :
    Restored maxUploaded voices (restoreVoice maxUploaded restored voice) := by
  rw [VoiceVersions.restoreVoice]
  split
  · exact h
  next hf =>
    split
    · exact h
    next hroom =>
      refine ⟨nodup_set h.keys _ _, ?_, ?_⟩
      · rw [length_set, if_neg hf]
        exact Nat.lt_of_not_le hroom
      · intro e he
        rcases Dict.mem_set.mp he with rfl | ⟨_, he⟩
        · exact ⟨rfl, hvoice, Int.le_max_right _ _⟩
        · obtain ⟨hkey, hmem, hle⟩ := h.voice e he
          exact ⟨hkey, hmem, Int.le_trans hle (Int.le_max_left _ _)⟩

theorem Restored.foldl {maxUploaded : Nat} {voices : List UploadedVoice} (more : List UploadedVoice)
    {restored : Dict Text UploadedVoice × Int} (h : Restored maxUploaded voices restored)
    (hmore : ∀ v ∈ more, v ∈ voices) :
    Restored maxUploaded voices (more.foldl (VoiceVersions.restoreVoice maxUploaded) restored) := by
  induction more generalizing restored with
  | nil => exact h
  | cons v more ih =>
    exact ih (h.restoreVoice (hmore v mem_cons_self)) fun w hw =>
      hmore w (mem_cons_of_mem v hw)

theorem restored_of_room {maxUploaded : Nat} (more : List UploadedVoice)
    (restored : Dict Text UploadedVoice × Int)
    (hnms : (restored.1.keys ++ more.map UploadedVoice.normalizedName).Nodup)
    (hroom : restored.1.length + more.length ≤ maxUploaded) :
    (more.foldl (restoreVoice maxUploaded) restored).1 =
      restored.1 ++ more.map fun v => (v.normalizedName, v) := by
  induction more generalizing restored with
  | nil => exact (append_nil _).symm
  | cons v more ih =>
    have hf : v.normalizedName ∉ restored.1.keys := fun hmem =>
      (nodup_append.mp hnms).2.2 _ hmem _ mem_cons_self rfl
    rw [length_cons] at hroom
    have hlt : ¬ maxUploaded ≤ restored.1.length := by omega
    have hstep : (restoreVoice maxUploaded restored v).1 =
        restored.1 ++ [(v.normalizedName, v)] := by
      rw [restoreVoice, if_neg hf, if_neg hlt]
      exact if_neg hf
    rw [foldl_cons, ih, hstep, append_assoc]
    · rfl
    · rw [hstep, Dict.keys, map_append, append_assoc]
      exact hnms
    · rw [hstep, length_append, length_singleton]
      omega

section Directory

variable {α : Type} {py : PyLower} {root : Text} {maxUploaded : Nat}
  {files : Dict Text (VoiceFile α)}

/-- Voice files are where `upload` puts them. -/
def WellPlaced (py : PyLower) (root : Text) (files : Dict Text (VoiceFile α)) : Prop :=
  ∀ e ∈ files, ∀ v, voiceOf py e.1 e.2 = some v → e.1 = voicePath root v.normalizedName

theorem mem_candidates :
    v ∈ candidates py files ↔ ∃ e ∈ files, voiceOf py e.1 e.2 = some v :=
  mem_filterMap

theorem names_nodup (hkeys : files.keys.Nodup) (hplaced : WellPlaced py root files) :
    ((candidates py files).map UploadedVoice.normalizedName).Nodup := by
  rw [candidates, map_filterMap]
  rw [Dict.keys, List.Nodup, pairwise_map] at hkeys
  refine pairwise_filterMap.mpr (hkeys.imp_of_mem fun {e e'} he he' hne n hn n' hn' heq => ?_)
  obtain ⟨v, hv, rfl⟩ := map_eq_some_iff.mp hn
  obtain ⟨v', hv', rfl⟩ := map_eq_some_iff.mp hn'
  refine hne ?_
  rw [hplaced e he v hv, hplaced e' he' v' hv', heq]

/-- The order in which a directory is restored. -/
def ordered (py : PyLower) (files : Dict Text (VoiceFile α)) : List UploadedVoice :=
  (candidates py (files.insertionSort fun a b => a.1 ≤ b.1)).insertionSort
    fun v w => w.createdAt ≤ v.createdAt

theorem ordered_perm (py : PyLower) (files : Dict Text (VoiceFile α)) :
    (ordered py files).Perm (candidates py files) :=
  (perm_insertionSort _ _).trans ((perm_insertionSort _ _).filterMap _)

theorem restored_restore (py : PyLower) (maxUploaded : Nat) (files : Dict Text (VoiceFile α)) :
    Restored maxUploaded (candidates py files) (restore py maxUploaded files) := by
  refine Restored.foldl (ordered py files) ⟨nodup_nil, Nat.zero_le _, ?_⟩ fun v hv =>
    (ordered_perm py files).subset hv
  exact (by rintro _ ⟨⟩)

/-- With room for all of them, all voices of a directory are restored. -/
theorem mem_restore (hkeys : files.keys.Nodup) (hplaced : WellPlaced py root files)
    (hroom : (candidates py files).length ≤ maxUploaded) (hv : v ∈ candidates py files) :
    (v.normalizedName, v) ∈ (restore py maxUploaded files).1 := by
  have hperm := ordered_perm py files
  have hall : (restore py maxUploaded files).1 =
      (ordered py files).map fun v => (v.normalizedName, v) := by
    refine restored_of_room (ordered py files) ([], 0) ?_ ?_
    · exact (hperm.map _).nodup_iff.mpr (names_nodup hkeys hplaced)
    · rw [hperm.length_eq]
      exact (zero_add _).trans_le hroom
  rw [hall]
  exact mem_map_of_mem (hperm.symm.subset hv)

end Directory

/-! ## Uploads -/

/-- What a client uploads, once its MIME type is resolved and its sample is decoded and validated:
    the samples, their rate and their number. -/
structure UploadRequest (α : Type) where
  name : Text
  consent : Text
  fileSize : Nat
  originalFilename : Option Text
  mimeType : Option Text
  decoded : Option (α × Int × Nat)
  fingerprint : Text
  refText : Option Text
  speakerDescription : Option Text

def maxVoiceUploadBytes : Nat := 10 * 1024 * 1024

def normalizeOptionalText (value : Option Text) : Option Text :=
  value.bind fun text => if strip text = [] then none else some (strip text)

/-- An upload that is in progress; `written` are the bytes of its temporary file. -/
structure UploadTask (α : Type) where
  voice : UploadedVoice
  samples : α
  written : Option Int := none
deriving DecidableEq, Repr

/-- The checks of `upload`, and the voice it builds with a time stamp. -/
def uploadTask {α : Type} (py : PyLower) (root : Text) (request : UploadRequest α)
    (createdAt : Int) : Except VoiceError (UploadTask α) :=
  match normalizeVoiceName py request.name with
  | .error e => .error e
  | .ok normalizedName =>
    if normalizedName ∈ defaultVoicePresets then .error .nameReserved
    else if strip request.consent = [] then .error (.refused "consent must be non-empty")
    else if request.fileSize = 0 then .error (.refused "audio_sample must not be empty")
    else if maxVoiceUploadBytes < request.fileSize then
      .error (.refused "audio_sample must be at most 10485760 bytes")
    else match request.mimeType, request.decoded with
      | none, _ => .error (.refused "audio_sample MIME type is not accepted")
      | _, none => .error (.refused "audio_sample could not be decoded")
      | some mimeType, some (samples, sampleRate, numSamples) =>
        .ok {
          voice := {
            name := strip request.name
            normalizedName
            consent := strip request.consent
            createdAt
            fileSize := request.fileSize
            mimeType
            originalFilename := request.originalFilename.getD []
            sampleRate
            numSamples
            fingerprint := request.fingerprint
            filePath := voicePath root normalizedName
            refText := normalizeOptionalText request.refText
            speakerDescription := normalizeOptionalText request.speakerDescription }
          samples }

theorem toLower_voiceChar {c : Char} (h : isVoiceChar c = true) :
    isVoiceChar c.toLower = true ∧ c.toLower.toLower = c.toLower ∧
      (c.isAlphanum = true → c.toLower.isAlphanum = true) := by
  have hall : ∀ n < 128, isVoiceChar (Char.ofNat n) = true →
      isVoiceChar (Char.ofNat n).toLower = true ∧
        (Char.ofNat n).toLower.toLower = (Char.ofNat n).toLower ∧
        ((Char.ofNat n).isAlphanum = true → (Char.ofNat n).toLower.isAlphanum = true) := by
    decide
  have hc := hall c.toNat (isVoiceChar_bounds h).2
  rw [Char.ofNat_toNat] at hc
  exact hc h

theorem normalizeVoiceName_normalized {py : PyLower} {name key : Text}
    (h : normalizeVoiceName py name = .ok key) : normalizeVoiceName py key = .ok key := by
  obtain ⟨hne, hpattern, rfl⟩ := normalizeVoiceName_eq_ok h
  have hlower := py.ascii _ (ascii_of_pattern hpattern)
  rw [matchesVoicePattern, Bool.and_eq_true, List.any_eq_true, List.all_eq_true] at hpattern
  obtain ⟨⟨c, hc, halnum⟩, hall⟩ := hpattern
  have hkey : matchesVoicePattern (py.lower (strip name)) = true := by
    rw [hlower, matchesVoicePattern, Bool.and_eq_true, List.any_eq_true, List.all_eq_true]
    refine ⟨⟨c.toLower, mem_map_of_mem hc, (toLower_voiceChar (hall c hc)).2.2 halnum⟩, ?_⟩
    intro d hd
    obtain ⟨e, he, rfl⟩ := mem_map.mp hd
    exact (toLower_voiceChar (hall e he)).1
  have htwice : py.lower (py.lower (strip name)) = py.lower (strip name) := by
    rw [py.ascii _ (ascii_of_pattern hkey), hlower, List.map_map]
    exact map_congr_left fun e he => (toLower_voiceChar (hall e he)).2.1
  have hkeyne : py.lower (strip name) ≠ [] := by
    rw [hlower]
    exact fun h => hne (map_eq_nil_iff.mp h)
  rw [normalizeVoiceName, strip_of_pattern hkey]
  simp only [if_neg hkeyne, if_pos hkey, htwice]

/-- What the checks of an upload let through. -/
theorem uploadTask_eq_ok {α : Type} {py : PyLower} {root : Text} {request : UploadRequest α}
    {createdAt : Int} {task : UploadTask α}
    (h : uploadTask py root request createdAt = .ok task) :
    task.voice.Prepared py root ∧ task.voice.createdAt = createdAt := by
  unfold uploadTask at h
  cases hname : normalizeVoiceName py request.name with
  | error e =>
    rw [hname] at h
    cases h
  | ok normalizedName =>
    rw [hname] at h
    dsimp only at h
    iterate 4
      split at h
      · cases h
    split at h
    · cases h
    · cases h
    · cases h
      exact ⟨⟨(normalizeVoiceName_eq_ok hname).1, normalizeVoiceName_normalized hname, rfl⟩, rfl⟩

/-! ## The store -/

/-- A data URL. -/
structure RefAudio (α : Type) where
  samples : α
  sampleRate : Int
deriving DecidableEq, Repr

/-- Where a resolution is: it looks the voice up, reads its sample, or checks what it has read. -/
inductive Resolution (α : Type)
  | lookup
  | load (voice : UploadedVoice)
  | check (voice : UploadedVoice) (refAudio : RefAudio α)
deriving DecidableEq, Repr

inductive VoiceAnswer (α : Type)
  | uploaded (voice : UploadedVoice)
  | uploadFailed
  | deleted (voice : UploadedVoice)
  | deleteFailed
  | notFound
  | reference (voice : UploadedVoice) (refAudio : RefAudio α)
  | referenceFailed
deriving DecidableEq, Repr

/-- The store and what is in progress. `uploaded` are the samples that records were created with,
    `answers` what the calls returned or raised. -/
structure SpeakerSampleStore (α : Type) where
  files : Dict Text (VoiceFile α)
  voices : Dict Text UploadedVoice
  lastUploadTimestamp : Int
  cache : Text → Int → Option (RefAudio α) := fun _ _ => none
  uploads : Nat → Option (UploadTask α) := fun _ => none
  resolutions : Nat → Option (Text × Resolution α) := fun _ => none
  uploaded : List (UploadedVoice × Option α)
  answers : List (VoiceAnswer α) := []

inductive StoreEvent (α : Type)
  | upload (id : Nat) (request : UploadRequest α) (now : Int)
  /-- The temporary file is written, with so many bytes, or the write fails. -/
  | writeTemp (id : Nat) (size : Option Int)
  /-- What the lock holds in `upload`; the file is replaced, or that fails. -/
  | commit (id : Nat) (moved : Bool)
  | delete (name : Text) (unlinked : Bool)
  | resolve (id : Nat) (name : Text)
  | lookup (id : Nat)
  | load (id : Nat) (loaded : Bool)
  | check (id : Nat)
  /-- The cache drops an entry, or did not keep it. -/
  | evict (name : Text) (version : Int)

section Store

variable {α : Type}

def SpeakerSampleStore.answer (s : SpeakerSampleStore α) (a : VoiceAnswer α) :
    SpeakerSampleStore α :=
  { s with answers := s.answers ++ [a] }

/-- `cache.clear_voice`. -/
def clearVoice (cache : Text → Int → Option (RefAudio α)) (name : Text) :
    Text → Int → Option (RefAudio α) :=
  fun name' version => if name' = name then none else cache name' version

def putAudio (cache : Text → Int → Option (RefAudio α)) (name : Text) (version : Int)
    (refAudio : Option (RefAudio α)) : Text → Int → Option (RefAudio α) :=
  fun name' version' => if name' = name ∧ version' = version then refAudio else cache name' version'

def SpeakerSampleStore.loadSamples (s : SpeakerSampleStore α) (path : Text) : Option α :=
  (s.files.get path).bind VoiceFile.samples

/-- The store of a directory. -/
def SpeakerSampleStore.opened (py : PyLower) (maxUploaded : Nat) (files : Dict Text (VoiceFile α)) :
    SpeakerSampleStore α where
  files
  voices := (restore py maxUploaded files).1
  lastUploadTimestamp := (restore py maxUploaded files).2
  uploaded := (restore py maxUploaded files).1.map fun entry =>
    (entry.2, (files.get entry.2.filePath).bind VoiceFile.samples)

theorem opened_voices (py : PyLower) (maxUploaded : Nat) (files : Dict Text (VoiceFile α)) :
    (SpeakerSampleStore.opened py maxUploaded files).voices = (restore py maxUploaded files).1 :=
  rfl

theorem opened_files (py : PyLower) (maxUploaded : Nat) (files : Dict Text (VoiceFile α)) :
    (SpeakerSampleStore.opened py maxUploaded files).files = files :=
  rfl

/-- The locked part of `upload`. -/
def SpeakerSampleStore.commit (s : SpeakerSampleStore α) (maxUploaded : Nat) (task : UploadTask α)
    (size : Int) (moved : Bool) : SpeakerSampleStore α :=
  let name := task.voice.normalizedName
  if name ∉ s.voices.keys ∧ maxUploaded ≤ s.voices.length then s.answer .uploadFailed
  else if moved then
    { s with
      files := s.files.set task.voice.filePath
        ⟨some task.voice.toSafetensorsMetadata, some task.samples, size⟩
      cache := if name ∈ s.voices.keys then clearVoice s.cache name else s.cache
      voices := s.voices.set name task.voice
      uploaded := s.uploaded ++ [(task.voice, some task.samples)] }.answer (.uploaded task.voice)
  else s.answer .uploadFailed

/-- The locked part of `delete`. -/
def SpeakerSampleStore.remove (s : SpeakerSampleStore α) (name : Text) (unlinked : Bool) :
    SpeakerSampleStore α :=
  match s.voices.get name with
  | none => s.answer .notFound
  | some voice =>
    if unlinked then
      { s with
        files := s.files.pop voice.filePath
        voices := s.voices.pop name
        cache := clearVoice s.cache name }.answer (.deleted voice)
    else s.answer .deleteFailed

/-- The first locked part of `resolve_reference`. -/
def SpeakerSampleStore.lookup (s : SpeakerSampleStore α) (id : Nat) (name : Text) :
    SpeakerSampleStore α :=
  match s.voices.get name with
  | none => { s with resolutions := Function.update s.resolutions id none }.answer .notFound
  | some voice =>
    match s.cache voice.normalizedName voice.createdAt with
    | some refAudio =>
      { s with resolutions := Function.update s.resolutions id none }.answer
        (.reference voice refAudio)
    | none =>
      { s with resolutions := Function.update s.resolutions id (some (name, .load voice)) }

/-- The second one. -/
def SpeakerSampleStore.check (s : SpeakerSampleStore α) (id : Nat) (name : Text)
    (voice : UploadedVoice) (refAudio : RefAudio α) : SpeakerSampleStore α :=
  if s.voices.get name = some voice then
    { s with
      cache := putAudio s.cache voice.normalizedName voice.createdAt (some refAudio)
      resolutions := Function.update s.resolutions id none }.answer (.reference voice refAudio)
  else { s with resolutions := Function.update s.resolutions id (some (name, .lookup)) }

def storeStep (py : PyLower) (root : Text) (maxUploaded : Nat) (s : SpeakerSampleStore α) :
    StoreEvent α → Option (SpeakerSampleStore α)
  | .upload id request now =>
    if s.uploads id = none then
      let createdAt := max now (s.lastUploadTimestamp + 1)
      match uploadTask py root request createdAt with
      | .error _ => some (s.answer .uploadFailed)
      | .ok task =>
        some { s with
          lastUploadTimestamp := createdAt
          uploads := Function.update s.uploads id (some task) }
    else none
  | .writeTemp id size =>
    match s.uploads id with
    | some ⟨voice, samples, none⟩ =>
      match size with
      | some _ =>
        some { s with uploads := Function.update s.uploads id (some ⟨voice, samples, size⟩) }
      | none => some ({ s with uploads := Function.update s.uploads id none }.answer .uploadFailed)
    | _ => none
  | .commit id moved =>
    match s.uploads id with
    | some ⟨voice, samples, some size⟩ =>
      some ({ s with uploads := Function.update s.uploads id none }.commit maxUploaded
        ⟨voice, samples, some size⟩ size moved)
    | _ => none
  | .delete name unlinked =>
    match normalizeVoiceName py name with
    | .error _ => some (s.answer .deleteFailed)
    | .ok normalized => some (s.remove normalized unlinked)
  | .resolve id name =>
    if s.resolutions id = none then
      match normalizeVoiceName py name with
      | .error _ => some (s.answer .referenceFailed)
      | .ok normalized =>
        some { s with resolutions := Function.update s.resolutions id (some (normalized, .lookup)) }
    else none
  | .lookup id =>
    match s.resolutions id with
    | some (name, .lookup) => some (s.lookup id name)
    | _ => none
  | .load id loaded =>
    match s.resolutions id with
    | some (name, .load voice) =>
      match if loaded then s.loadSamples voice.filePath else none with
      | some samples =>
        some { s with
          resolutions := Function.update s.resolutions id
            (some (name, .check voice ⟨samples, voice.sampleRate⟩)) }
      | none =>
        some ({ s with resolutions := Function.update s.resolutions id none }.answer
          .referenceFailed)
    | _ => none
  | .check id =>
    match s.resolutions id with
    | some (name, .check voice refAudio) => some (s.check id name voice refAudio)
    | _ => none
  | .evict name version => some { s with cache := putAudio s.cache name version none }

/-! ## What stays together -/

/-- The reference audio is that of the upload which created the record. -/
def Carries (uploaded : List (UploadedVoice × Option α)) (v : UploadedVoice)
    (refAudio : RefAudio α) : Prop :=
  ∃ samples, (v, some samples) ∈ uploaded ∧ refAudio = ⟨samples, v.sampleRate⟩

/-- Voices and files: a voice has its own file, and there are no more voices than allowed. -/
structure Registry (py : PyLower) (root : Text) (maxUploaded : Nat) (s : SpeakerSampleStore α) :
    Prop where
  voices : s.voices.keys.Nodup
  files : s.files.keys.Nodup
  size : s.voices.length ≤ maxUploaded
  placed : WellPlaced py root s.files
  backed : ∀ n v, (n, v) ∈ s.voices → v.normalizedName = n ∧ v.filePath = voicePath root n ∧
    ∃ file, (v.filePath, file) ∈ s.files ∧ voiceOf py v.filePath file = some v ∧
      (v, file.samples) ∈ s.uploaded

/-- Every file that can be restored is that of a registered voice. -/
def Registered (py : PyLower) (s : SpeakerSampleStore α) : Prop :=
  ∀ v ∈ candidates py s.files, (v.normalizedName, v) ∈ s.voices

/-- No two uploads have the same time stamp, unless both were restored, and then their names
    differ. -/
structure Stamped (py : PyLower) (root : Text) (s : SpeakerSampleStore α) : Prop where
  last : ∀ e ∈ s.uploaded, e.1.createdAt ≤ s.lastUploadTimestamp
  unique : ∀ e ∈ s.uploaded, ∀ e' ∈ s.uploaded, e.1 = e'.1 → e = e'
  tasks : ∀ id task, s.uploads id = some task → task.voice.Prepared py root ∧
    task.voice.createdAt ≤ s.lastUploadTimestamp ∧
    ∀ e ∈ s.uploaded, e.1.createdAt ≠ task.voice.createdAt
  distinct : ∀ id id' task task', s.uploads id = some task → s.uploads id' = some task' →
    id ≠ id' → task.voice.createdAt ≠ task'.voice.createdAt

/-- The audio in the cache, in resolutions and in answers. -/
structure Matched (s : SpeakerSampleStore α) : Prop where
  cached : ∀ n t refAudio, s.cache n t = some refAudio →
    ∃ v, (n, v) ∈ s.voices ∧ v.createdAt = t ∧ Carries s.uploaded v refAudio
  loading : ∀ id n v, s.resolutions id = some (n, .load v) →
    v.normalizedName = n ∧ ∃ o, (v, o) ∈ s.uploaded
  checked : ∀ id n v refAudio, s.resolutions id = some (n, .check v refAudio) →
    v.normalizedName = n ∧ (∃ o, (v, o) ∈ s.uploaded) ∧
      ((n, v) ∈ s.voices → Carries s.uploaded v refAudio)
  answers : ∀ v refAudio, .reference v refAudio ∈ s.answers → Carries s.uploaded v refAudio

variable {py : PyLower} {root : Text} {maxUploaded : Nat} {s : SpeakerSampleStore α}

theorem Carries.append {uploaded : List (UploadedVoice × Option α)} {refAudio : RefAudio α}
    (h : Carries uploaded v refAudio) (more : List (UploadedVoice × Option α)) :
    Carries (uploaded ++ more) v refAudio := by
  obtain ⟨samples, hmem, haudio⟩ := h
  exact ⟨samples, mem_append_left _ hmem, haudio⟩

theorem Registry.answer (hs : Registry py root maxUploaded s) (a : VoiceAnswer α) :
    Registry py root maxUploaded (s.answer a) :=
  ⟨hs.voices, hs.files, hs.size, hs.placed, hs.backed⟩

theorem voiceOf_saved (h : v.Prepared py root) (samples : Option α) (size : Int) :
    voiceOf py v.filePath ⟨some v.toSafetensorsMetadata, samples, size⟩ = some v :=
  voiceFromMetadata_toSafetensorsMetadata h size

theorem Registry.commit (hs : Registry py root maxUploaded s) {task : UploadTask α}
    (htask : task.voice.Prepared py root) (size : Int) (moved : Bool) :
    Registry py root maxUploaded (s.commit maxUploaded task size moved) := by
  rw [SpeakerSampleStore.commit]
  split
  · exact hs.answer _
  next hroom =>
    split
    · refine Registry.answer
        ⟨nodup_set hs.voices _ _, nodup_set hs.files _ _, ?_, ?_, ?_⟩ _
      · show (s.voices.set _ _).length ≤ maxUploaded
        rw [length_set]
        split
        · exact hs.size
        next hf => exact Nat.lt_of_not_le fun hfull => hroom ⟨hf, hfull⟩
      · intro e he v hv
        rcases Dict.mem_set.mp he with rfl | ⟨_, he⟩
        · rw [voiceOf_saved htask] at hv
          cases hv
          exact htask.path
        · exact hs.placed e he v hv
      · intro n v hv
        rcases Dict.mem_set.mp hv with heq | ⟨hne, hv⟩
        · cases heq
          exact ⟨rfl, htask.path, _, Dict.mem_set.mpr (.inl rfl), voiceOf_saved htask _ _,
            mem_append_right _ mem_cons_self⟩
        · obtain ⟨hname, hpath, file, hfile, hvoice, hmem⟩ := hs.backed n v hv
          refine ⟨hname, hpath, file, Dict.mem_set.mpr (.inr ⟨fun h => hne ?_, hfile⟩), hvoice,
            mem_append_left _ hmem⟩
          -- another name, another path
          exact voicePath_inj (hpath.symm.trans (h.trans htask.path))
    · exact hs.answer _

theorem Registered.commit (hs : Registered py s) (hplaced : WellPlaced py root s.files)
    {task : UploadTask α} (htask : task.voice.Prepared py root) (size : Int) (moved : Bool) :
    Registered py (s.commit maxUploaded task size moved) := by
  rw [SpeakerSampleStore.commit]
  split
  · exact hs
  split
  · intro v hv
    obtain ⟨e, he, hvoice⟩ := mem_candidates.mp hv
    rcases Dict.mem_set.mp he with rfl | ⟨hne, he⟩
    · rw [voiceOf_saved htask] at hvoice
      cases hvoice
      exact Dict.mem_set.mpr (.inl rfl)
    · refine Dict.mem_set.mpr (.inr ⟨fun h => hne ?_, hs v (mem_candidates.mpr ⟨e, he, hvoice⟩)⟩)
      rw [hplaced e he v hvoice, htask.path]
      exact congrArg (voicePath root) h
  · exact hs

theorem Registry.remove (hs : Registry py root maxUploaded s) (name : Text) (unlinked : Bool) :
    Registry py root maxUploaded (s.remove name unlinked) := by
  rw [SpeakerSampleStore.remove]
  split
  · exact hs.answer _
  next voice hget =>
    split
    · have hvoice := (get_eq_some hs.voices).mp hget
      refine Registry.answer ⟨nodup_pop hs.voices _, nodup_pop hs.files _, ?_, ?_, ?_⟩ _
      · exact le_trans (length_filter_le _ _) hs.size
      · exact fun e he => hs.placed e (mem_pop.mp he).1
      · intro n v hv
        obtain ⟨hv, hne⟩ := mem_pop.mp hv
        obtain ⟨hname, hpath, file, hfile, hvoiceOf, hmem⟩ := hs.backed n v hv
        refine ⟨hname, hpath, file, mem_pop.mpr ⟨hfile, fun h => hne ?_⟩, hvoiceOf, hmem⟩
        exact voicePath_inj (hpath.symm.trans (h.trans (hs.backed name voice hvoice).2.1))
    · exact hs.answer _

theorem Registered.remove (hs : Registered py s) (hr : Registry py root maxUploaded s)
    (name : Text) (unlinked : Bool) : Registered py (s.remove name unlinked) := by
  rw [SpeakerSampleStore.remove]
  split
  · exact hs
  next voice hget =>
    split
    · intro v hv
      obtain ⟨e, he, hvoiceOf⟩ := mem_candidates.mp hv
      obtain ⟨he, hne⟩ := mem_pop.mp he
      refine mem_pop.mpr ⟨hs v (mem_candidates.mpr ⟨e, he, hvoiceOf⟩), fun h => hne ?_⟩
      have hvoice := (get_eq_some hr.voices).mp hget
      rw [hr.placed e he v hvoiceOf, (hr.backed name voice hvoice).2.1]
      exact congrArg (voicePath root) h
    · exact hs

section

variable (hs : Matched s)
include hs

theorem Matched.answer {a : VoiceAnswer α}
    (ha : ∀ v refAudio, a = .reference v refAudio → Carries s.uploaded v refAudio) :
    Matched (s.answer a) := by
  refine ⟨hs.cached, hs.loading, hs.checked, ?_⟩
  intro v refAudio hmem
  rcases mem_append.mp hmem with hmem | hmem
  · exact hs.answers v refAudio hmem
  · exact ha v refAudio (mem_singleton.mp hmem).symm

theorem Matched.resolution (id : Nat) {r : Option (Text × Resolution α)}
    (hload : ∀ n v, r = some (n, .load v) → v.normalizedName = n ∧ ∃ o, (v, o) ∈ s.uploaded)
    (hcheck : ∀ n v refAudio, r = some (n, .check v refAudio) →
      v.normalizedName = n ∧ (∃ o, (v, o) ∈ s.uploaded) ∧
        ((n, v) ∈ s.voices → Carries s.uploaded v refAudio)) :
    Matched { s with resolutions := Function.update s.resolutions id r } := by
  refine ⟨hs.cached, ?_, ?_, hs.answers⟩
  · intro id' n v h
    rcases update_eq_some h with ⟨_, h⟩ | ⟨_, h⟩
    · exact hload n v h
    · exact hs.loading id' n v h
  · intro id' n v refAudio h
    rcases update_eq_some h with ⟨_, h⟩ | ⟨_, h⟩
    · exact hcheck n v refAudio h
    · exact hs.checked id' n v refAudio h

theorem Matched.resolved (id : Nat) :
    Matched { s with resolutions := Function.update s.resolutions id none } :=
  hs.resolution id (fun _ _ h => by cases h) fun _ _ _ h => by cases h

theorem Matched.commit {task : UploadTask α}
    (hf : ∀ e ∈ s.uploaded, e.1.createdAt ≠ task.voice.createdAt) (size : Int) (moved : Bool) :
    Matched (s.commit maxUploaded task size moved) := by
  rw [SpeakerSampleStore.commit]
  split
  · exact hs.answer (by rintro _ _ ⟨⟩)
  split
  · refine Matched.answer ⟨?_, ?_, ?_, ?_⟩ ?_
    · intro n t refAudio h
      -- what is cached is of another name
      have hcached : s.cache n t = some refAudio ∧ n ≠ task.voice.normalizedName := by
        split at h
        · change (if n = task.voice.normalizedName then none else s.cache n t) = _ at h
          split at h
          · cases h
          next hne => exact ⟨h, hne⟩
        next hunknown =>
          obtain ⟨v, hv, _⟩ := hs.cached n t refAudio h
          exact ⟨h, fun hn => hunknown (hn ▸ Dict.mem_keys.mpr ⟨v, hv⟩)⟩
      obtain ⟨v, hv, ht, hcarries⟩ := hs.cached n t refAudio hcached.1
      exact ⟨v, Dict.mem_set.mpr (.inr ⟨hcached.2, hv⟩), ht, hcarries.append _⟩
    · intro id n v h
      obtain ⟨hname, o, ho⟩ := hs.loading id n v h
      exact ⟨hname, o, mem_append_left _ ho⟩
    · intro id n v refAudio h
      obtain ⟨hname, ⟨o, ho⟩, hcarries⟩ := hs.checked id n v refAudio h
      refine ⟨hname, ⟨o, mem_append_left _ ho⟩, fun hv => ?_⟩
      rcases Dict.mem_set.mp hv with heq | ⟨_, hv⟩
      · -- the record is new, the resolution's is not
        cases heq
        exact absurd rfl (hf _ ho)
      · exact (hcarries hv).append _
    · exact fun v refAudio h => (hs.answers v refAudio h).append _
    · intro v refAudio h
      cases h
  · exact hs.answer (by rintro _ _ ⟨⟩)

theorem Matched.remove (name : Text) (unlinked : Bool) : Matched (s.remove name unlinked) := by
  rw [SpeakerSampleStore.remove]
  split
  · exact hs.answer (by rintro _ _ ⟨⟩)
  split
  · refine Matched.answer ⟨?_, ?_, ?_, ?_⟩ ?_
    · intro n t refAudio h
      change (if n = name then none else s.cache n t) = _ at h
      split at h
      · cases h
      next hne =>
        obtain ⟨v, hv, ht, hcarries⟩ := hs.cached n t refAudio h
        exact ⟨v, mem_pop.mpr ⟨hv, hne⟩, ht, hcarries⟩
    · exact hs.loading
    · intro id n v refAudio h
      obtain ⟨hname, ho, hcarries⟩ := hs.checked id n v refAudio h
      exact ⟨hname, ho, fun hv => hcarries (mem_pop.mp hv).1⟩
    · exact hs.answers
    · intro v refAudio h
      cases h
  · exact hs.answer (by rintro _ _ ⟨⟩)

theorem Matched.lookup (hr : Registry py root maxUploaded s) (id : Nat) (name : Text)
    : Matched (s.lookup id name) := by
  rw [SpeakerSampleStore.lookup]
  split
  · exact (hs.resolved id).answer (by rintro _ _ ⟨⟩)
  next voice hget =>
    have hvoice := (get_eq_some hr.voices).mp hget
    obtain ⟨hname, _, file, _, _, hmem⟩ := hr.backed name voice hvoice
    split
    next refAudio hcached =>
      refine (hs.resolved id).answer fun v refAudio' h => ?_
      cases h
      -- the cached entry is of the voice that is registered
      obtain ⟨w, hw, _, hcarries⟩ := hs.cached _ _ refAudio hcached
      rw [hname] at hw
      have heq : voice = w := some.inj
        (hget.symm.trans ((get_eq_some hr.voices).mpr hw))
      rw [heq]
      exact hcarries
    next =>
      refine hs.resolution id (fun n v h => ?_) nofun
      cases h
      exact ⟨hname, _, hmem⟩

theorem Matched.check (hr : Registry py root maxUploaded s) {id : Nat} {name : Text}
    {voice : UploadedVoice} {refAudio : RefAudio α}
    (hcheck : s.resolutions id = some (name, .check voice refAudio)) :
    Matched (s.check id name voice refAudio) := by
  rw [SpeakerSampleStore.check]
  obtain ⟨hname, _, hcarries⟩ := hs.checked id name voice refAudio hcheck
  split
  next hget =>
    have hvoice := (get_eq_some hr.voices).mp hget
    refine Matched.answer ⟨?_, ?_, ?_, ?_⟩ ?_
    · intro n t refAudio' h
      change (if n = voice.normalizedName ∧ t = voice.createdAt then some refAudio
        else s.cache n t) = _ at h
      split at h
      next heq =>
        cases h
        rw [heq.1, heq.2, hname]
        exact ⟨voice, hvoice, rfl, hcarries hvoice⟩
      next => exact hs.cached n t refAudio' h
    · exact (hs.resolved id).loading
    · exact (hs.resolved id).checked
    · exact hs.answers
    · intro v refAudio' h
      cases h
      exact hcarries hvoice
  next => exact hs.resolution id (fun n v h => by cases h) fun n v refAudio h => by cases h

end

/-! ## Steps -/

/-- The answer of a call that raised before it changed anything. -/
inductive VoiceAnswer.Failure : VoiceAnswer α → Prop
  | upload : Failure .uploadFailed
  | delete : Failure .deleteFailed
  | reference : Failure .referenceFailed

/-- What a step can do. -/
inductive StoreMove (py : PyLower) (root : Text) (maxUploaded : Nat) (s : SpeakerSampleStore α) :
    SpeakerSampleStore α → Prop
  | failed {a : VoiceAnswer α} (ha : a.Failure) : StoreMove py root maxUploaded s (s.answer a)
  | begun (id : Nat) {request : UploadRequest α} (now : Int) {task : UploadTask α}
      (htask : uploadTask py root request (max now (s.lastUploadTimestamp + 1)) = .ok task) :
      StoreMove py root maxUploaded s { s with
        lastUploadTimestamp := max now (s.lastUploadTimestamp + 1)
        uploads := Function.update s.uploads id (some task) }
  | written {id : Nat} {voice : UploadedVoice} {samples : α} (size : Option Int)
      (htask : s.uploads id = some ⟨voice, samples, none⟩) :
      StoreMove py root maxUploaded s
        { s with uploads := Function.update s.uploads id (some ⟨voice, samples, size⟩) }
  | unwritten (id : Nat) :
      StoreMove py root maxUploaded s
        ({ s with uploads := Function.update s.uploads id none }.answer .uploadFailed)
  | committed {id : Nat} {task : UploadTask α} (size : Int) (moved : Bool)
      (htask : s.uploads id = some task) :
      StoreMove py root maxUploaded s
        ({ s with uploads := Function.update s.uploads id none }.commit maxUploaded task size moved)
  | removed (name : Text) (unlinked : Bool) :
      StoreMove py root maxUploaded s (s.remove name unlinked)
  | resolving (id : Nat) (name : Text) :
      StoreMove py root maxUploaded s
        { s with resolutions := Function.update s.resolutions id (some (name, .lookup)) }
  | looked (id : Nat) (name : Text) : StoreMove py root maxUploaded s (s.lookup id name)
  | loaded {id : Nat} {name : Text} {voice : UploadedVoice} {samples : α}
      (hload : s.resolutions id = some (name, .load voice))
      (hsamples : s.loadSamples voice.filePath = some samples) :
      StoreMove py root maxUploaded s { s with
        resolutions := Function.update s.resolutions id
          (some (name, .check voice ⟨samples, voice.sampleRate⟩)) }
  | unloaded (id : Nat) :
      StoreMove py root maxUploaded s
        ({ s with resolutions := Function.update s.resolutions id none }.answer .referenceFailed)
  | checked {id : Nat} {name : Text} {voice : UploadedVoice} {refAudio : RefAudio α}
      (hcheck : s.resolutions id = some (name, .check voice refAudio)) :
      StoreMove py root maxUploaded s (s.check id name voice refAudio)
  | evicted (name : Text) (version : Int) :
      StoreMove py root maxUploaded s { s with cache := putAudio s.cache name version none }

variable {t : SpeakerSampleStore α}

theorem storeStep_eq_some {e : StoreEvent α} (h : storeStep py root maxUploaded s e = some t) :
    StoreMove py root maxUploaded s t := by
  cases e with
  | upload id request now =>
    rw [storeStep] at h
    split at h
    · dsimp only at h
      cases htask : uploadTask py root request (max now (s.lastUploadTimestamp + 1)) with
      | error e =>
        rw [htask] at h
        exact some.inj h ▸ .failed .upload
      | ok task =>
        rw [htask] at h
        exact some.inj h ▸ .begun id now htask
    · cases h
  | writeTemp id size =>
    rw [storeStep] at h
    split at h
    next voice samples htask =>
      cases size with
      | none => exact some.inj h ▸ .unwritten id
      | some size => exact some.inj h ▸ .written (some size) htask
    next => cases h
  | commit id moved =>
    rw [storeStep] at h
    split at h
    next voice samples size htask => exact some.inj h ▸ .committed size moved htask
    next => cases h
  | delete name unlinked =>
    rw [storeStep] at h
    split at h
    next => exact some.inj h ▸ .failed .delete
    next normalized _ => exact some.inj h ▸ .removed normalized unlinked
  | resolve id name =>
    rw [storeStep] at h
    split at h
    next =>
      split at h
      next => exact some.inj h ▸ .failed .reference
      next normalized _ => exact some.inj h ▸ .resolving id normalized
    next => cases h
  | lookup id =>
    rw [storeStep] at h
    split at h
    next name _ => exact some.inj h ▸ .looked id name
    next => cases h
  | load id loaded =>
    rw [storeStep] at h
    split at h
    next name voice hload =>
      cases loaded with
      | false => exact some.inj h ▸ .unloaded id
      | true =>
        rw [if_pos rfl] at h
        cases hsamples : s.loadSamples voice.filePath with
        | none =>
          rw [hsamples] at h
          exact some.inj h ▸ .unloaded id
        | some samples =>
          rw [hsamples] at h
          exact some.inj h ▸ .loaded hload hsamples
    next => cases h
  | check id =>
    rw [storeStep] at h
    split at h
    next name voice refAudio hcheck => exact some.inj h ▸ .checked hcheck
    next => cases h
  | evict name version => exact some.inj h ▸ .evicted name version

section

variable (hs : Stamped py root s)
include hs

theorem Stamped.uploads {uploads : Nat → Option (UploadTask α)}
    (h : ∀ id task, uploads id = some task →
      ∃ task', s.uploads id = some task' ∧ task'.voice = task.voice) :
    Stamped py root { s with uploads } := by
  refine ⟨hs.last, hs.unique, fun id task htask => ?_, fun id id' task task' htask htask' hne => ?_⟩
  · obtain ⟨old, hold, hvoice⟩ := h id task htask
    rw [← hvoice]
    exact hs.tasks id old hold
  · obtain ⟨old, hold, hvoice⟩ := h id task htask
    obtain ⟨old', hold', hvoice'⟩ := h id' task' htask'
    rw [← hvoice, ← hvoice']
    exact hs.distinct id id' old old' hold hold' hne

theorem Stamped.ended (id : Nat) :
    Stamped py root { s with uploads := Function.update s.uploads id none } := by
  refine hs.uploads fun id' task htask => ?_
  rcases update_eq_some htask with ⟨_, h⟩ | ⟨_, h⟩
  · cases h
  · exact ⟨task, h, rfl⟩

theorem Stamped.begun (id : Nat) {task : UploadTask α} {createdAt : Int}
    (htask : task.voice.Prepared py root ∧ task.voice.createdAt = createdAt)
    (hnew : s.lastUploadTimestamp < createdAt) :
    Stamped py root { s with
      lastUploadTimestamp := createdAt
      uploads := Function.update s.uploads id (some task) } := by
  obtain ⟨hp, rfl⟩ := htask
  have hold : ∀ id old, s.uploads id = some old → old.voice.createdAt < task.voice.createdAt :=
    fun id old h => Int.lt_of_le_of_lt (hs.tasks id old h).2.1 hnew
  refine ⟨fun e he => Int.le_of_lt (Int.lt_of_le_of_lt (hs.last e he) hnew), hs.unique, ?_, ?_⟩
  · intro id' other h
    rcases update_eq_some h with ⟨_, h⟩ | ⟨_, h⟩
    · cases h
      exact ⟨hp, Int.le_refl _, fun e he =>
        Int.ne_of_lt (Int.lt_of_le_of_lt (hs.last e he) hnew)⟩
    · obtain ⟨hp', hlast, hf⟩ := hs.tasks id' other h
      exact ⟨hp', Int.le_of_lt (hold id' other h), hf⟩
  · intro id₁ id₂ task₁ task₂ h₁ h₂ hne
    rcases update_eq_some h₁ with ⟨hid₁, hnew₁⟩ | ⟨_, hold₁⟩ <;>
      rcases update_eq_some h₂ with ⟨hid₂, hnew₂⟩ | ⟨_, hold₂⟩
    · exact absurd (hid₁.trans hid₂.symm) hne
    · cases hnew₁
      exact (Int.ne_of_lt (hold id₂ task₂ hold₂)).symm
    · cases hnew₂
      exact Int.ne_of_lt (hold id₁ task₁ hold₁)
    · exact hs.distinct id₁ id₂ task₁ task₂ hold₁ hold₂ hne

theorem Stamped.commit {id : Nat} {task : UploadTask α} (htask : s.uploads id = some task)
    (size : Int) (moved : Bool) :
    Stamped py root ({ s with uploads := Function.update s.uploads id none }.commit maxUploaded
      task size moved) := by
  have hend := hs.ended id
  obtain ⟨_, hlast, hf⟩ := hs.tasks id task htask
  rw [SpeakerSampleStore.commit]
  split
  · exact ⟨hend.last, hend.unique, hend.tasks, hend.distinct⟩
  split
  · refine ⟨fun e he => ?_, fun e he e' he' heq => ?_, fun id' other h => ?_, hend.distinct⟩
    · rcases mem_append.mp he with he | he
      · exact hs.last e he
      · rw [mem_singleton.mp he]
        exact hlast
    · rcases mem_append.mp he with he | he <;> rcases mem_append.mp he' with he' | he'
      · exact hs.unique e he e' he' heq
      · rw [mem_singleton.mp he'] at heq
        exact absurd (congrArg UploadedVoice.createdAt heq) (hf e he)
      · rw [mem_singleton.mp he] at heq
        exact absurd (congrArg UploadedVoice.createdAt heq.symm) (hf e' he')
      · rw [mem_singleton.mp he, mem_singleton.mp he']
    · rcases update_eq_some h with ⟨_, h⟩ | ⟨hne, h⟩
      · cases h
      obtain ⟨hp, hle, hother⟩ := hs.tasks id' other h
      refine ⟨hp, hle, fun e he => ?_⟩
      rcases mem_append.mp he with he | he
      · exact hother e he
      · rw [mem_singleton.mp he]
        exact hs.distinct id id' task other htask h (Ne.symm hne)
  · exact ⟨hend.last, hend.unique, hend.tasks, hend.distinct⟩

theorem Stamped.remove (name : Text) (unlinked : Bool) :
    Stamped py root (s.remove name unlinked) := by
  rw [SpeakerSampleStore.remove]
  split
  · exact ⟨hs.last, hs.unique, hs.tasks, hs.distinct⟩
  split
  · exact ⟨hs.last, hs.unique, hs.tasks, hs.distinct⟩
  · exact ⟨hs.last, hs.unique, hs.tasks, hs.distinct⟩

end

/-- What is registered, cached and read belongs together. -/
structure Versioned (py : PyLower) (root : Text) (maxUploaded : Nat) (s : SpeakerSampleStore α) :
    Prop where
  registry : Registry py root maxUploaded s
  stamped : Stamped py root s
  matched : Matched s

theorem Registry.congr (hs : Registry py root maxUploaded s) (hfiles : t.files = s.files)
    (hvoices : t.voices = s.voices) (hu : t.uploaded = s.uploaded) :
    Registry py root maxUploaded t := by
  obtain ⟨hvoicesKeys, hfilesKeys, hsize, hplaced, hbacked⟩ := hs
  rw [← hfiles] at hfilesKeys hplaced
  rw [← hvoices] at hvoicesKeys hsize
  rw [← hfiles, ← hvoices, ← hu] at hbacked
  exact ⟨hvoicesKeys, hfilesKeys, hsize, hplaced, hbacked⟩

theorem Stamped.congr (hs : Stamped py root s) (hu : t.uploaded = s.uploaded)
    (hlast : t.lastUploadTimestamp = s.lastUploadTimestamp) (huploads : t.uploads = s.uploads) :
    Stamped py root t := by
  obtain ⟨hle, hunique, htks, hdistinct⟩ := hs
  rw [← hu] at hunique
  rw [← hu, ← hlast] at hle
  rw [← hu, ← hlast, ← huploads] at htks
  rw [← huploads] at hdistinct
  exact ⟨hle, hunique, htks, hdistinct⟩

theorem lookup_frame (s : SpeakerSampleStore α) (id : Nat) (name : Text) :
    (s.lookup id name).files = s.files ∧ (s.lookup id name).voices = s.voices ∧
      (s.lookup id name).uploaded = s.uploaded ∧
      (s.lookup id name).lastUploadTimestamp = s.lastUploadTimestamp ∧
      (s.lookup id name).uploads = s.uploads := by
  rw [SpeakerSampleStore.lookup]
  split
  · exact ⟨rfl, rfl, rfl, rfl, rfl⟩
  split
  · exact ⟨rfl, rfl, rfl, rfl, rfl⟩
  · exact ⟨rfl, rfl, rfl, rfl, rfl⟩

theorem check_frame (s : SpeakerSampleStore α) (id : Nat) (name : Text) (voice : UploadedVoice)
    (refAudio : RefAudio α) :
    (s.check id name voice refAudio).files = s.files ∧
      (s.check id name voice refAudio).voices = s.voices ∧
      (s.check id name voice refAudio).uploaded = s.uploaded ∧
      (s.check id name voice refAudio).lastUploadTimestamp = s.lastUploadTimestamp ∧
      (s.check id name voice refAudio).uploads = s.uploads := by
  rw [SpeakerSampleStore.check]
  split
  · exact ⟨rfl, rfl, rfl, rfl, rfl⟩
  · exact ⟨rfl, rfl, rfl, rfl, rfl⟩

theorem Matched.failed (hs : Matched s) {a : VoiceAnswer α} (ha : a.Failure) :
    Matched (s.answer a) := by
  refine hs.answer fun v refAudio h => ?_
  rw [h] at ha
  cases ha

theorem Matched.loaded (hs : Matched s) (hr : Registry py root maxUploaded s) {id : Nat}
    {name : Text} {voice : UploadedVoice} {samples : α}
    (hload : s.resolutions id = some (name, .load voice))
    (hsamples : s.loadSamples voice.filePath = some samples) :
    Matched { s with
      resolutions := Function.update s.resolutions id
        (some (name, .check voice ⟨samples, voice.sampleRate⟩)) } := by
  obtain ⟨hname, hmem⟩ := hs.loading id name voice hload
  refine hs.resolution id (by rintro _ _ ⟨⟩) fun n v refAudio h => ?_
  cases h
  refine ⟨hname, hmem, fun hvoice => ?_⟩
  obtain ⟨_, _, file, hfile, _, hu⟩ := hr.backed name voice hvoice
  rw [SpeakerSampleStore.loadSamples, (get_eq_some hr.files).mpr hfile] at hsamples
  rw [show file.samples = some samples from hsamples] at hu
  exact ⟨samples, hu, rfl⟩

theorem Versioned.step {e : StoreEvent α} (hs : Versioned py root maxUploaded s)
    (h : storeStep py root maxUploaded s e = some t) :
    Versioned py root maxUploaded t := by
  obtain ⟨hr, hstamped, hm⟩ := hs
  have huploads : ∀ (uploads : Nat → Option (UploadTask α)) (last : Int),
      Matched { s with uploads, lastUploadTimestamp := last } := fun _ _ =>
    ⟨hm.cached, hm.loading, hm.checked, hm.answers⟩
  cases storeStep_eq_some h with
  | failed ha => exact ⟨hr.answer _, hstamped.congr rfl rfl rfl, hm.failed ha⟩
  | begun id now htask =>
    refine ⟨hr.congr rfl rfl rfl, hstamped.begun id (uploadTask_eq_ok htask) ?_,
      huploads _ _⟩
    exact Int.lt_of_lt_of_le (Int.lt_succ _) (Int.le_max_right _ _)
  | written size htask =>
    refine ⟨hr.congr rfl rfl rfl, hstamped.uploads fun id' task hid => ?_, huploads _ _⟩
    rcases update_eq_some hid with ⟨heq, hnew⟩ | ⟨_, hold⟩
    · cases hnew
      rw [heq]
      exact ⟨_, htask, rfl⟩
    · exact ⟨task, hold, rfl⟩
  | unwritten id =>
    exact ⟨hr.congr rfl rfl rfl, (hstamped.ended id).congr rfl rfl rfl,
      (huploads _ _).failed .upload⟩
  | @committed id task size moved htask =>
    obtain ⟨hp, _, hf⟩ := hstamped.tasks id task htask
    have hend : Registry py root maxUploaded
        { s with uploads := Function.update s.uploads id none } := hr.congr rfl rfl rfl
    have hkept : Matched { s with uploads := Function.update s.uploads id none } := huploads _ _
    exact ⟨hend.commit hp size moved, hstamped.commit htask size moved,
      hkept.commit hf size moved⟩
  | removed name unlinked =>
    exact ⟨hr.remove name unlinked, hstamped.remove name unlinked,
      hm.remove name unlinked⟩
  | resolving id name =>
    refine ⟨hr.congr rfl rfl rfl, hstamped.congr rfl rfl rfl, ?_⟩
    exact hm.resolution id (fun n v h => by cases h) fun n v refAudio h => by cases h
  | looked id name =>
    obtain ⟨hfiles, hvoices, hu, hlast, hsame⟩ := lookup_frame s id name
    exact ⟨hr.congr hfiles hvoices hu, hstamped.congr hu hlast hsame,
      hm.lookup hr id name⟩
  | loaded hload hsamples =>
    exact ⟨hr.congr rfl rfl rfl, hstamped.congr rfl rfl rfl,
      hm.loaded hr hload hsamples⟩
  | unloaded id =>
    exact ⟨hr.congr rfl rfl rfl, hstamped.congr rfl rfl rfl,
      (hm.resolved id).failed .reference⟩
  | checked hcheck =>
    obtain ⟨hfiles, hvoices, hu, hlast, hsame⟩ := check_frame s _ _ _ _
    exact ⟨hr.congr hfiles hvoices hu, hstamped.congr hu hlast hsame,
      hm.check hr hcheck⟩
  | evicted name version =>
    refine ⟨hr.congr rfl rfl rfl, hstamped.congr rfl rfl rfl, ?_, hm.loading,
      hm.checked, hm.answers⟩
    intro n t refAudio h
    change (if n = name ∧ t = version then none else s.cache n t) = _ at h
    split at h
    · cases h
    · exact hm.cached n t refAudio h

theorem Registered.step {e : StoreEvent α} (hs : Registered py s)
    (hversioned : Versioned py root maxUploaded s)
    (h : storeStep py root maxUploaded s e = some t) : Registered py t := by
  obtain ⟨hr, hstamped, _⟩ := hversioned
  cases storeStep_eq_some h with
  | @committed id task size moved htask =>
    have hend : Registered py { s with uploads := Function.update s.uploads id none } := hs
    exact hend.commit hr.placed (hstamped.tasks id task htask).1 size moved
  | removed name unlinked => exact hs.remove hr name unlinked
  | looked id name =>
    obtain ⟨hfiles, hvoices, _⟩ := lookup_frame s id name
    rw [Registered, hfiles, hvoices]
    exact hs
  | checked hcheck =>
    obtain ⟨hfiles, hvoices, _⟩ := check_frame s _ _ _ _
    rw [Registered, hfiles, hvoices]
    exact hs
  | failed | begun | written | unwritten | resolving | loaded | unloaded | evicted => exact hs

theorem storeStep_frame {e : StoreEvent α} (h : storeStep py root maxUploaded s e = some t) :
    t.files = s.files ∧ t.voices = s.voices ∨ (∃ v file, t.answers = s.answers ++ [.uploaded v] ∧
        t.files = s.files.set v.filePath file ∧ t.voices = s.voices.set v.normalizedName v) ∨
      ∃ name v, t.answers = s.answers ++ [.deleted v] ∧ s.voices.get name = some v ∧
        t.files = s.files.pop v.filePath ∧ t.voices = s.voices.pop name := by
  cases storeStep_eq_some h with
  | @committed id task size moved htask =>
    rw [SpeakerSampleStore.commit]
    split
    · exact .inl ⟨rfl, rfl⟩
    split
    · exact .inr (.inl ⟨task.voice, _, rfl, rfl, rfl⟩)
    · exact .inl ⟨rfl, rfl⟩
  | removed name unlinked =>
    rw [SpeakerSampleStore.remove]
    split
    · exact .inl ⟨rfl, rfl⟩
    next voice hget =>
      split
      · exact .inr (.inr ⟨name, voice, rfl, hget, rfl, rfl⟩)
      · exact .inl ⟨rfl, rfl⟩
  | looked id name =>
    obtain ⟨hfiles, hvoices, _⟩ := lookup_frame s id name
    exact .inl ⟨hfiles, hvoices⟩
  | checked hcheck =>
    obtain ⟨hfiles, hvoices, _⟩ := check_frame s _ _ _ _
    exact .inl ⟨hfiles, hvoices⟩
  | failed | begun | written | unwritten | resolving | loaded | unloaded | evicted =>
    exact .inl ⟨rfl, rfl⟩

/-- Every interleaving, from the store of a directory. -/
def storeSystem (py : PyLower) (root : Text) (maxUploaded : Nat) (files : Dict Text (VoiceFile α)) :
    System (SpeakerSampleStore α) (StoreEvent α) :=
  .ofFun (fun s => s = .opened py maxUploaded files) (storeStep py root maxUploaded)

/-! ## Every interleaving -/

variable {files : Dict Text (VoiceFile α)}

theorem Versioned.opened (hkeys : files.keys.Nodup) (hplaced : WellPlaced py root files) :
    Versioned py root maxUploaded (SpeakerSampleStore.opened py maxUploaded files) := by
  have hrestored := restored_restore py maxUploaded files
  have hu : ∀ e ∈ (SpeakerSampleStore.opened py maxUploaded files).uploaded,
      (e.1.normalizedName, e.1) ∈ (restore py maxUploaded files).1 ∧
        e.2 = (files.get e.1.filePath).bind VoiceFile.samples := by
    intro e he
    obtain ⟨entry, hent, rfl⟩ := mem_map.mp he
    obtain ⟨hname, _⟩ := hrestored.voice entry hent
    exact ⟨hname ▸ hent, rfl⟩
  refine ⟨⟨hrestored.keys, hkeys, hrestored.size, hplaced, ?_⟩, ⟨?_, ?_, ?_, ?_⟩, ?_, ?_, ?_, ?_⟩
  · intro n v hv
    obtain ⟨hname, hmem, _⟩ := hrestored.voice (n, v) hv
    obtain ⟨⟨path, file⟩, hfile, hvoice⟩ := mem_candidates.mp hmem
    obtain rfl := filePath_of_voiceOf hvoice
    have hpath := hplaced _ hfile v hvoice
    refine ⟨hname.symm, hpath.trans (congrArg _ hname.symm), file, hfile, hvoice, ?_⟩
    refine mem_map.mpr ⟨(n, v), hv, ?_⟩
    rw [(get_eq_some hkeys).mpr hfile]
    rfl
  · intro e he
    exact (hrestored.voice _ (hu e he).1).2.2
  · intro e he e' he' heq
    exact Prod.ext heq ((hu e he).2.trans (heq ▸ (hu e' he').2.symm))
  · intro id task h
    cases h
  · intro id id' task task' h
    cases h
  · intro n t refAudio h
    cases h
  · intro id n v h
    cases h
  · intro id n v refAudio h
    cases h
  · intro v refAudio h
    exact absurd h not_mem_nil

theorem reachable_versioned (hkeys : files.keys.Nodup) (hplaced : WellPlaced py root files)
    (h : (storeSystem py root maxUploaded files).Reachable s) :
    Versioned py root maxUploaded s ∧
      ((candidates py files).length ≤ maxUploaded → Registered py s) := by
  refine h.invariant (P := fun s => Versioned py root maxUploaded s ∧
    ((candidates py files).length ≤ maxUploaded → Registered py s)) ?_ ?_
  · rintro s rfl
    exact ⟨.opened hkeys hplaced, fun hroom v hv => mem_restore hkeys hplaced hroom hv⟩
  · rintro s e t ⟨hversioned, hregistered⟩ hstep
    exact ⟨hversioned.step hstep, fun hroom => (hregistered hroom).step hversioned hstep⟩

theorem Registered.restore_get (hs : Registered py s) (hr : Registry py root maxUploaded s)
    (name : Text) : (restore py maxUploaded s.files).1.get name = s.voices.get name := by
  have hrestored := restored_restore py maxUploaded s.files
  have hroom : (candidates py s.files).length ≤ maxUploaded := by
    have hnd := names_nodup hr.files hr.placed
    have hsub : (candidates py s.files).map UploadedVoice.normalizedName ⊆ s.voices.keys := by
      intro n hn
      obtain ⟨v, hv, rfl⟩ := mem_map.mp hn
      exact Dict.mem_keys.mpr ⟨v, hs v hv⟩
    have hle := (subperm_of_subset hnd hsub).length_le
    rw [length_map, Dict.keys, length_map] at hle
    exact le_trans hle hr.size
  refine Option.ext fun v => ?_
  rw [get_eq_some hrestored.keys, get_eq_some hr.voices]
  constructor
  · intro h
    obtain ⟨hname, hmem, _⟩ := hrestored.voice (name, v) h
    rw [show name = v.normalizedName from hname]
    exact hs v hmem
  · intro h
    obtain ⟨hname, _, file, hfile, hvoice, _⟩ := hr.backed name v h
    rw [← hname]
    exact mem_restore hr.files hr.placed hroom (mem_candidates.mpr ⟨_, hfile, hvoice⟩)

/-- What holds of a store of well-placed voice files in every interleaving. What is read back from
    the directory is the registry, if the store was opened with room for all voices. -/
theorem voice_references_match (py : PyLower) (root : Text) (maxUploaded : Nat)
    (files : Dict Text (VoiceFile α)) (hkeys : files.keys.Nodup)
    (hplaced : WellPlaced py root files) {s : SpeakerSampleStore α}
    (h : (storeSystem py root maxUploaded files).Reachable s) :
    (∀ v refAudio, .reference v refAudio ∈ s.answers → ∃ samples,
      refAudio = ⟨samples, v.sampleRate⟩ ∧ ∀ o, (v, o) ∈ s.uploaded ↔ o = some samples) ∧
    (∀ e t, storeStep py root maxUploaded s e = some t →
      t.files = s.files ∧ t.voices = s.voices ∨
      (∃ v file, t.answers = s.answers ++ [.uploaded v] ∧
        t.files = s.files.set v.filePath file ∧ t.voices = s.voices.set v.normalizedName v) ∨
      ∃ name v, t.answers = s.answers ++ [.deleted v] ∧ s.voices.get name = some v ∧
        t.files = s.files.pop v.filePath ∧ t.voices = s.voices.pop name) ∧
    s.voices.length ≤ maxUploaded ∧
    ((candidates py files).length ≤ maxUploaded →
      ∀ name, (restore py maxUploaded s.files).1.get name = s.voices.get name) := by
  obtain ⟨hversioned, hregistered⟩ := reachable_versioned hkeys hplaced h
  refine ⟨fun v refAudio hmem => ?_, fun e t => storeStep_frame, hversioned.registry.size,
    fun hroom name => (hregistered hroom).restore_get hversioned.registry name⟩
  obtain ⟨samples, hsamples, haudio⟩ := hversioned.matched.answers v refAudio hmem
  refine ⟨samples, haudio, fun o => ⟨fun ho => ?_, fun ho => ho ▸ hsamples⟩⟩
  exact congrArg Prod.snd (hversioned.stamped.unique _ ho _ hsamples rfl)

end Store

/-- An upload of a voice. -/
def sampleUpload (name : String) : UploadRequest Nat where
  name := name.toList
  consent := "yes".toList
  fileSize := 9
  originalFilename := none
  mimeType := some "audio/wav".toList
  decoded := some (7, 24000, 30000)
  fingerprint := []
  refText := none
  speakerDescription := none

def sampleVoice (name : String) (createdAt : Int) : UploadedVoice where
  name := name.toList
  normalizedName := name.toList
  consent := "yes".toList
  createdAt
  fileSize := 9
  mimeType := "audio/wav".toList
  originalFilename := []
  sampleRate := 24000
  numSamples := 30000
  fingerprint := []
  filePath := voicePath "root".toList name.toList
  refText := none
  speakerDescription := none

/-- A voice is uploaded, and a reference resolved. -/
theorem voice_references_match_uploaded :
    ∃ s : SpeakerSampleStore Nat, s.answers =
        [.uploaded (sampleVoice "bob" 5), .reference (sampleVoice "bob" 5) ⟨7, 24000⟩] ∧
      s.voices.length ≤ 1 ∧
      ∀ name, (restore .asciiOnly 1 s.files).1.get name = s.voices.get name := by
  have hrun : (System.exec (storeStep .asciiOnly "root".toList 1) (.opened .asciiOnly 1 [])
      [.upload 0 (sampleUpload "bob") 5, .writeTemp 0 (some 100), .resolve 1 "Bob".toList,
        .commit 0 true, .lookup 1, .load 1 true, .check 1]).map SpeakerSampleStore.answers =
      some [.uploaded (sampleVoice "bob" 5), .reference (sampleVoice "bob" 5) ⟨7, 24000⟩] := by
    decide +kernel
  obtain ⟨s, hs, hanswers⟩ := map_eq_some_iff.mp hrun
  have hreach : (storeSystem .asciiOnly "root".toList 1 ([] : Dict Text (VoiceFile Nat))).Reachable
      s := .of_exec (.init rfl) hs
  obtain ⟨_, _, hsize, hrestore⟩ := voice_references_match .asciiOnly "root".toList 1 []
    nodup_nil (by rintro _ ⟨⟩) hreach
  exact ⟨s, hanswers, hsize, hrestore (Nat.zero_le 1)⟩

theorem sampleVoice_prepared {n : String} (hname : n.toList ≠ [])
    (hnormalized : normalizeVoiceName .asciiOnly n.toList = .ok n.toList) (createdAt : Int) :
    (sampleVoice n createdAt).Prepared .asciiOnly "root".toList :=
  ⟨hname, hnormalized, rfl⟩

def sampleFile (v : UploadedVoice) : Text × VoiceFile Nat :=
  (v.filePath, ⟨some v.toSafetensorsMetadata, some 7, 100⟩)

theorem sampleFile_voice (h : v.Prepared .asciiOnly "root".toList) :
    voiceOf .asciiOnly (sampleFile v).1 (sampleFile v).2 = some v :=
  voiceOf_saved h (some 7) 100

/-- The directory of a store with room for two voices. -/
def sampleFiles : Dict Text (VoiceFile Nat) :=
  [sampleFile (sampleVoice "ann" 4), sampleFile (sampleVoice "bob" 5)]

/-- With room for one, the newer of two voices is restored. -/
theorem restore_newer {a b : Text × VoiceFile Nat} {w : UploadedVoice} (hsorted : a.1 ≤ b.1)
    (hv : voiceOf .asciiOnly a.1 a.2 = some v) (hw : voiceOf .asciiOnly b.1 b.2 = some w)
    (hnewer : v.createdAt < w.createdAt) :
    (restore .asciiOnly 1 [a, b]).1 = [(w.normalizedName, w)] := by
  have hfiles : ([a, b].insertionSort fun a b => a.1 ≤ b.1) = [a, b] := by
    simp [List.insertionSort, hsorted]
  have hcandidates : candidates .asciiOnly [a, b] = [v, w] := by
    simp [candidates, hv, hw]
  have hlatest : ([v, w].insertionSort fun v w => w.createdAt ≤ v.createdAt) = [w, v] := by
    simp [List.insertionSort, List.orderedInsert, Int.not_le.mpr hnewer]
  rw [restore, hfiles, hcandidates, hlatest]
  by_cases hname : v.normalizedName = w.normalizedName <;>
    simp [restoreVoice, Dict.keys, Dict.set, hname]

theorem restore_single {a : Text × VoiceFile Nat} (hv : voiceOf .asciiOnly a.1 a.2 = some v) :
    (restore .asciiOnly 1 [a]).1 = [(v.normalizedName, v)] := by
  have hcandidates : candidates .asciiOnly [a] = [v] := by
    simp [candidates, hv]
  simp [restore, List.insertionSort, hcandidates, restoreVoice, Dict.keys, Dict.set]

theorem remove_of_get {s : SpeakerSampleStore Nat} {name : Text} {voice : UploadedVoice}
    (h : s.voices.get name = some voice) :
    (s.remove name true).files = s.files.pop voice.filePath ∧
      (s.remove name true).voices = s.voices.pop name := by
  rw [SpeakerSampleStore.remove, h]
  exact ⟨rfl, rfl⟩

theorem sampleFiles_sorted :
    (sampleFile (sampleVoice "ann" 4)).1 ≤ (sampleFile (sampleVoice "bob" 5)).1 := by
  decide

/-- Opened with room for one, and that one deleted: the other comes back when the directory is
    read again. -/
theorem skipped_voice_restored :
    ∃ s : SpeakerSampleStore Nat,
      (storeSystem .asciiOnly "root".toList 1 sampleFiles).Reachable s ∧
      sampleFiles.keys.Nodup ∧ WellPlaced .asciiOnly "root".toList sampleFiles ∧
      (restore .asciiOnly 1 s.files).1.get "ann".toList ≠ s.voices.get "ann".toList := by
  have hnormalized : normalizeVoiceName .asciiOnly "bob".toList = .ok "bob".toList := by decide
  have hann := sampleFile_voice (sampleVoice_prepared (n := "ann") (by decide) (by decide) 4)
  have hbob := sampleFile_voice (sampleVoice_prepared (by decide) hnormalized 5)
  have hkeys : sampleFiles.keys.Nodup := by decide
  have hplaced : WellPlaced .asciiOnly "root".toList sampleFiles := by
    intro e he v hv
    simp only [sampleFiles, mem_cons, not_mem_nil, or_false] at he
    rcases he with rfl | rfl
    · obtain rfl := some.inj (hann.symm.trans hv)
      rfl
    · obtain rfl := some.inj (hbob.symm.trans hv)
      rfl
  -- the newer voice is kept
  have hvoices : (SpeakerSampleStore.opened .asciiOnly 1 sampleFiles).voices =
      [("bob".toList, sampleVoice "bob" 5)] :=
    (opened_voices _ _ _).trans
      (restore_newer sampleFiles_sorted hann hbob (show (4 : Int) < 5 by decide))
  have hget : (SpeakerSampleStore.opened .asciiOnly 1 sampleFiles).voices.get "bob".toList =
      some (sampleVoice "bob" 5) := by
    rw [hvoices]
    rfl
  have hstep : storeStep .asciiOnly "root".toList 1 (.opened .asciiOnly 1 sampleFiles)
      (.delete "bob".toList true) =
      some ((SpeakerSampleStore.opened .asciiOnly 1 sampleFiles).remove "bob".toList true) := by
    rw [storeStep, hnormalized]
  obtain ⟨hfiles, hremoved⟩ := remove_of_get hget
  rw [hvoices] at hremoved
  -- the other one is read again
  have hleft : sampleFiles.pop (sampleVoice "bob" 5).filePath =
      [sampleFile (sampleVoice "ann" 4)] := by
    decide
  rw [opened_files, hleft] at hfiles
  refine ⟨_, (System.Reachable.init rfl).step (l := .delete "bob".toList true) hstep, hkeys,
    hplaced, ?_⟩
  rw [hfiles, hremoved, restore_single hann]
  decide

end VoiceVersions

end OmniRealtime
