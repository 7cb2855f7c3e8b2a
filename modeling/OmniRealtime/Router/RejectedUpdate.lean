import OmniRealtime.Router.Registry

/-!
# Rejected worker updates

`app.py`: the handler of `PUT /workers/{worker_id}`, from the body of the request to its answer,
over `applyWorkerUpdate`.

1. `updateWorker`: the answer and what it leaves of the pool and the journal.
2. `visible_discard`: when a discard leaves the content of the journal.
3. `rejected_update_unchanged_iff`: a request that is rejected changes nothing, unless it
   re-enables the voice owner and takes its voice capabilities.
-/

namespace OmniRealtime

/-! ## The request -/

/-- A field of the payload that has to be a boolean. -/
inductive BoolField
  | absent
  | bool (b : Bool)
  | notBool
  deriving DecidableEq, Repr

def BoolField.value : BoolField → Option Bool
  | .bool b => some b
  | .absent | .notBool => none

/-- The JSON object of the body. -/
structure UpdatePayload where
  /-- The fields besides the four that are allowed, sorted. -/
  unknownFields : List String := []
  isDead : BoolField := .absent
  disabled : BoolField := .absent
  model : Option (Option String) := none
  capabilities : Option (List Capability) := none
  /-- The model or the capabilities are of a type `WorkerConfig` refuses. -/
  mistyped : Bool := false

def UpdatePayload.isEmpty (payload : UpdatePayload) : Bool :=
  payload.isDead == .absent && payload.disabled == .absent && payload.model.isNone &&
    payload.capabilities.isNone && !payload.mistyped

/-- What `_read_json_object` makes of the body; an empty one is an empty object. -/
inductive UpdateBody
  | invalidJson
  | notAnObject
  | object (payload : UpdatePayload)

structure PutWorker where
  workerId : String
  body : UpdateBody
  /-- The header passes the admin check. -/
  authorized : Bool := false

inductive UpdateRejection
  | invalidJson
  | notAnObject
  | unsupportedFields (fields : List String)
  | notBoolean (field : String)
  | refused (refusal : Refusal)
  deriving DecidableEq, Repr

def UpdateRejection.status : UpdateRejection → Nat
  | .invalidJson | .notAnObject | .unsupportedFields _ | .notBoolean _ => 400
  | .refused refusal => refusal.status

/-- The checks of `update_worker` before the lock. -/
def checkPayload (payload : UpdatePayload) : Option UpdateRejection :=
  if payload.unknownFields ≠ [] then some (.unsupportedFields payload.unknownFields)
  else if payload.isEmpty then some (.refused .noField)
  else if payload.isDead = .notBool then some (.notBoolean "is_dead")
  else if payload.disabled = .notBool then some (.notBoolean "disabled")
  else none

def PutWorker.request (q : PutWorker) (payload : UpdatePayload) : UpdateRequest where
  workerId := q.workerId
  isDead := payload.isDead.value
  disabled := payload.disabled.value
  model := payload.model
  capabilities := payload.capabilities
  authorized := q.authorized

/-- `WorkerConfig` refuses a value of another type. -/
def AdminConfig.validating (cfg : AdminConfig) (payload : UpdatePayload) : AdminConfig :=
  if payload.mistyped then { cfg with validate := fun _ => none } else cfg

/-- `update_worker`, without the probe after its answer; `locked` says that a weight update holds
    the lock or waits for it. -/
def updateWorker (cfg : AdminConfig) (journal : Journal) (file : JournalFile) (p : Pool)
    (locked : Bool) (q : PutWorker) (voiceOwner : Option String) (authReadable : Bool)
    (io : JournalIo) : Pool × JournalFile × Option UpdateRejection :=
  match q.body with
  | .invalidJson => (p, file, some .invalidJson)
  | .notAnObject => (p, file, some .notAnObject)
  | .object payload =>
    match checkPayload payload with
    | some rejection => (p, file, some rejection)
    | none =>
      if locked then (p, file, some (.refused .updateInProgress))
      else
        let answer := applyWorkerUpdate (cfg.validating payload) journal file p
          (q.request payload) voiceOwner authReadable io
        (answer.1, answer.2.1, answer.2.2.map .refused)

/-! ## Discarding -/

/-- A discard rewrites the journal: it can read and write it, and the document lists the id or is
    not as `keep` writes it. -/
def DiscardRewrites (file : JournalFile) (workerId : String) (io : JournalIo) : Prop :=
  match file.visible with
  | .absent | .unreadable => False
  | .document path workerIds => io.readable = true ∧ io.write = .synced ∧
      (workerId ∈ workerIds ∨ workerIds = [] ∨ ¬workerIds.Pairwise (· ≤ ·) ∨
        path ≠ none ∧ io.rereadable = false)

namespace UpdateJournal

variable {workerIds : List String}

theorem sorted_eq_iff : sorted workerIds = workerIds ↔ workerIds.Pairwise (· ≤ ·) := by
  constructor
  · intro h
    have hsorted := List.pairwise_insertionSort (· ≤ ·) workerIds
    rw [← h]
    exact hsorted
  · exact fun h => h.insertionSort_eq

variable {file : JournalFile}

theorem synced_of_replace {c : JournalContent} {write : WriteOutcome}
    (hok : (file.replace c write).2 = true) : write = .synced := by
  cases write with
  | synced => rfl
  | failedBefore => cases hok
  | failedAfter => cases hok

/-- What `keep` writes back is what was read exactly where nothing is to be removed or put in
    order and the path is read again. -/
theorem document_sorted_eq_iff {path : Option String} {workerId : String} {rereadable : Bool} :
    JournalContent.document (if rereadable then path else none)
        (sorted (workerIds.filter (· ≠ workerId))) = .document path workerIds ↔
      workerId ∉ workerIds ∧ workerIds.Pairwise (· ≤ ·) ∧ (path = none ∨ rereadable = true) := by
  have hp : (if rereadable then path else none) = path ↔ path = none ∨ rereadable = true := by
    cases rereadable with
    | true => simp
    | false => simpa using eq_comm
  have hids : sorted (workerIds.filter (· ≠ workerId)) = workerIds ↔
      workerId ∉ workerIds ∧ workerIds.Pairwise (· ≤ ·) := by
    constructor
    · intro heq
      have hlen := congrArg List.length heq
      unfold sorted at hlen
      rw [List.length_insertionSort, List.length_filter_eq_length_iff] at hlen
      have hnot : workerId ∉ workerIds := fun hmem => absurd (hlen workerId hmem) (by simp)
      rw [List.filter_eq_self.2 hlen] at heq
      exact ⟨hnot, sorted_eq_iff.1 heq⟩
    · rintro ⟨hnot, hsorted⟩
      have hself : workerIds.filter (· ≠ workerId) = workerIds := by
        refine List.filter_eq_self.2 fun id hid => decide_eq_true ?_
        rintro rfl
        exact hnot hid
      rw [hself]
      exact sorted_eq_iff.2 hsorted
  rw [JournalContent.document.injEq, hp, hids, and_comm, and_assoc]

theorem visible_discard {workerId : String} {io : JournalIo}
    (hok : (discard file workerId io).2 = true) :
    (discard file workerId io).1.visible = file.visible ↔ ¬DiscardRewrites file workerId io := by
  unfold DiscardRewrites
  unfold discard pending at hok ⊢
  cases hv : file.visible with
  | unreadable =>
    rw [hv] at hok
    cases hr : io.readable with
    | false | true =>
      rw [hr] at hok
      cases hok
  | absent =>
    rw [hv] at hok
    cases hr : io.readable with
    | false =>
      rw [hr] at hok
      cases hok
    | true =>
      refine iff_of_true ?_ id
      show (clear file io.write).1.visible = .absent
      unfold clear
      rw [if_pos hv, DurableFile.sync_visible, hv]
  | document path workerIds =>
    rw [hv] at hok
    cases hr : io.readable with
    | false =>
      rw [hr] at hok
      cases hok
    | true =>
      rw [hr] at hok
      dsimp only at hok ⊢
      unfold keep at hok ⊢
      by_cases hemp : (workerIds.filter (· ≠ workerId)).isEmpty = true
      · have hgone : workerId ∈ workerIds ∨ workerIds = [] := by
          cases workerIds with
          | nil => exact .inr rfl
          | cons id rest =>
            have hall := List.filter_eq_nil_iff.1 (List.isEmpty_iff.1 hemp) id List.mem_cons_self
            have hid : id = workerId := by simpa using hall
            exact .inl (hid ▸ List.mem_cons_self)
        rw [if_pos hemp] at hok ⊢
        have hw : io.write = .synced := by
          unfold clear at hok
          rw [if_neg (by rw [hv]; simp)] at hok
          exact synced_of_replace hok
        rw [clear_visible hok]
        refine iff_of_false (by simp) (not_not.2 ⟨rfl, hw, ?_⟩)
        exact hgone.imp_right .inl
      · rw [if_neg hemp] at hok ⊢
        rw [DurableFile.visible_of_replace hok]
        unfold existingPath
        rw [hv]
        dsimp only
        rw [document_sorted_eq_iff]
        have hne : workerIds ≠ [] := by
          rintro rfl
          exact hemp rfl
        have hw := synced_of_replace hok
        constructor
        · rintro ⟨hnot, hsorted, hp⟩ ⟨-, -, hmem | hnil | hunsorted | ⟨hsome, hfalse⟩⟩
          · exact hnot hmem
          · exact hne hnil
          · exact hunsorted hsorted
          · rw [hfalse] at hp
            exact hp.elim hsome (by simp)
        · intro hk
          refine ⟨fun hmem => hk ⟨rfl, hw, .inl hmem⟩, ?_, ?_⟩
          · by_contra hunsorted
            exact hk ⟨rfl, hw, .inr (.inr (.inl hunsorted))⟩
          · by_contra hp
            rw [not_or, Bool.not_eq_true] at hp
            exact hk ⟨rfl, hw, .inr (.inr (.inr hp))⟩

/-- A discard that rewrites the journal succeeds. -/
theorem discard_of_rewrites {workerId : String} {io : JournalIo}
    (h : DiscardRewrites file workerId io) : (discard file workerId io).2 = true := by
  unfold DiscardRewrites at h
  split at h
  · exact h.elim
  · exact h.elim
  next path workerIds hv =>
  obtain ⟨hr, hw, -⟩ := h
  unfold discard pending
  rw [hv, hr]
  dsimp only
  unfold keep clear
  rw [hw]
  split
  · rw [if_neg (by rw [hv]; simp)]
    rfl
  · rfl

end UpdateJournal

/-! ## Rejections -/

/-- A rejection, of a status from 400 to 499, leaves every worker and the content of the
    journal. -/
def RejectedUnchanged {ε : Type} (status : ε → Nat) (p : Pool) (file : JournalFile)
    (answer : Pool × JournalFile × Option ε) : Prop :=
  ∀ rejection, answer.2.2 = some rejection → 400 ≤ status rejection → status rejection < 500 →
    answer.1 = p ∧ answer.2.1.visible = file.visible

section Rejections

variable {ε : Type} {status : ε → Nat} {p : Pool} {file : JournalFile} {file' : JournalFile}

theorem unchanged_same (rejection : Option ε) :
    RejectedUnchanged status p file (p, file, rejection) := fun _ _ _ _ => ⟨rfl, rfl⟩

theorem unchanged_accepted (p' : Pool) (file' : JournalFile) :
    RejectedUnchanged status p file (p', file', none) := nofun

theorem unchanged_unavailable {p' : Pool} {rejection : ε} (h : 500 ≤ status rejection) :
    RejectedUnchanged status p file (p', file', some rejection) := by
  intro rejection' heq _ hlt
  cases heq
  exact absurd h (Nat.not_le_of_lt hlt)

theorem unchanged_rejected_iff {rejection : ε} (hlow : 400 ≤ status rejection)
    (hhigh : status rejection < 500) :
    RejectedUnchanged status p file (p, file', some rejection) ↔ file'.visible = file.visible :=
  ⟨fun h => (h rejection rfl hlow hhigh).2, fun h _ _ _ _ => ⟨rfl, h⟩⟩

theorem unchanged_map {δ : Type} {status' : δ → Nat} {f : ε → δ}
    (hstatus : ∀ rejection, status' (f rejection) = status rejection)
    (answer : Pool × JournalFile × Option ε) :
    RejectedUnchanged status' p file (answer.1, answer.2.1, answer.2.2.map f) ↔
      RejectedUnchanged status p file answer := by
  constructor
  · intro h rejection heq hlow hhigh
    refine h (f rejection) (by rw [heq]; rfl) ?_ ?_
    · rw [hstatus]
      exact hlow
    · rw [hstatus]
      exact hhigh
  · intro h rejection heq hlow hhigh
    obtain ⟨refusal, hrefusal, rfl⟩ := Option.map_eq_some_iff.1 heq
    rw [hstatus] at hlow hhigh
    exact h refusal hrefusal hlow hhigh

end Rejections

section Update

variable {cfg : AdminConfig} {journal : Journal} {file : JournalFile} {p : Pool} {locked : Bool}
  {q : PutWorker} {voiceOwner : Option String} {authReadable : Bool} {io : JournalIo}
  {r : UpdateRequest}

/-- A request for `w` that passes the admin check, asks for a valid configuration without the
    capabilities of the voice owner, which `w` is, and re-enables it by a discard that rewrites
    the journal. -/
def ConflictAfterDiscard (cfg : AdminConfig) (journal : Journal) (file : JournalFile)
    (r : UpdateRequest) (voiceOwner : Option String) (authReadable : Bool) (io : JournalIo)
    (w : Worker) : Prop :=
  r.disabled = some false ∧
    (discardNeedsAdminAuth cfg journal file authReadable w.workerId = true → r.authorized = true) ∧
    (∃ next, nextConfig cfg r w = some next ∧
      canOwnUploadedVoices next.capabilities = false) ∧
    voiceOwner = some w.url ∧ journal = .durable ∧ DiscardRewrites file w.workerId io

theorem discard_kept_iff {w : Worker} (hok : (discardForUpdate journal file r w io).2 = true) :
    (discardForUpdate journal file r w io).1.visible = file.visible ↔
      ¬(r.disabled = some false ∧ journal = .durable ∧ DiscardRewrites file w.workerId io) := by
  obtain ⟨hd, hdiscard⟩ | ⟨hd, hdiscard⟩ :=
    discardForUpdate_cases journal file r w io
  · rw [hdiscard]
    exact iff_of_true rfl fun h => hd h.1
  · rw [hdiscard] at hok ⊢
    cases journal with
    | unavailable =>
      refine iff_of_true rfl fun h => ?_
      cases h.2.1
    | durable =>
      refine (UpdateJournal.visible_discard hok).trans (not_congr ?_)
      exact ⟨fun h => ⟨hd, rfl, h⟩, fun h => h.2.2⟩

theorem applyWorkerUpdate_unchanged_iff {w : Worker}
    (hfind : findWorker p.workers r.workerId = some w) : RejectedUnchanged Refusal.status p file
        (applyWorkerUpdate cfg journal file p r voiceOwner authReadable io) ↔
      ¬ConflictAfterDiscard cfg journal file r voiceOwner authReadable io w := by
  unfold applyWorkerUpdate
  rw [hfind]
  dsimp only
  split
  · next hauth =>
    refine iff_of_true (unchanged_same _) ?_
    rintro ⟨-, hneeds, -⟩
    simp only [Bool.and_eq_true, Bool.not_eq_true', beq_iff_eq] at hauth
    rw [hneeds hauth.1.2] at hauth
    cases hauth.2
  next hauth =>
  have hneeds : r.disabled = some false →
      discardNeedsAdminAuth cfg journal file authReadable w.workerId = true →
        r.authorized = true := by
    intro hd hneeds
    simpa [hd, hneeds] using hauth
  cases hn : nextConfig cfg r w with
  | none =>
    refine iff_of_true (unchanged_same _) ?_
    rintro ⟨-, -, ⟨next, hn', -⟩, -⟩
    rw [hn] at hn'
    cases hn'
  | some next =>
    have hreplace : (discardForUpdate journal file r w io).2 = false →
        ¬ConflictAfterDiscard cfg journal file r voiceOwner authReadable io w := by
      rintro hok ⟨hd, -, -, -, rfl, hrewrites⟩
      obtain ⟨hother, -⟩ | ⟨-, hdiscard⟩ := discardForUpdate_cases .durable file r w io
      · exact hother hd
      · rw [hdiscard] at hok
        exact Bool.false_ne_true (hok.symm.trans (UpdateJournal.discard_of_rewrites hrewrites))
    have hk := @discard_kept_iff journal file io r w
    rcases hdiscard : discardForUpdate journal file r w io with ⟨file', discarded⟩
    rw [hdiscard] at hreplace hk
    dsimp only at hreplace hk ⊢
    cases discarded with
    | false => exact iff_of_true (unchanged_unavailable (by decide)) (hreplace rfl)
    | true =>
      rw [if_neg (by decide)]
      split
      · next hconflict =>
        refine (unchanged_rejected_iff (by decide) (by decide)).trans ((hk rfl).trans ?_)
        refine not_congr ⟨fun h => ⟨h.1, hneeds h.1, ⟨next, hn, ?_⟩, hconflict.1, h.2⟩,
          fun h => ⟨h.1, h.2.2.2.2⟩⟩
        simpa using hconflict.2
      · next hconflict =>
        have hnot : ¬ConflictAfterDiscard cfg journal file r voiceOwner authReadable io w := by
          rintro ⟨-, -, ⟨next', hn', hunfit⟩, hown, -⟩
          rw [hn] at hn'
          cases hn'
          exact hconflict ⟨hown, by simp [hunfit]⟩
        split
        · exact iff_of_true (unchanged_unavailable (by decide)) hnot
        · exact iff_of_true (unchanged_accepted _ _) hnot

/-- The request that is not rejected without effect: the handler passes it on, and the update of
    its worker conflicts after the discard. -/
def PutConflict (cfg : AdminConfig) (journal : Journal) (file : JournalFile) (p : Pool)
    (locked : Bool) (q : PutWorker) (voiceOwner : Option String) (authReadable : Bool)
    (io : JournalIo) : Prop :=
  ∃ payload w, q.body = .object payload ∧ checkPayload payload = none ∧ locked = false ∧
    findWorker p.workers q.workerId = some w ∧
    ConflictAfterDiscard (cfg.validating payload) journal file (q.request payload) voiceOwner
      authReadable io w

/-- A rejected request leaves the workers and the journal as they were, but where it re-enables
    the voice owner and takes its voice capabilities: the discard comes before that check. -/
theorem rejected_update_unchanged_iff (cfg : AdminConfig) (journal : Journal) (file : JournalFile)
    (p : Pool) (locked : Bool) (q : PutWorker) (voiceOwner : Option String) (authReadable : Bool)
    (io : JournalIo) :
    RejectedUnchanged UpdateRejection.status p file
        (updateWorker cfg journal file p locked q voiceOwner authReadable io) ↔
      ¬PutConflict cfg journal file p locked q voiceOwner authReadable io := by
  unfold updateWorker
  split
  · next hbody =>
    refine iff_of_true (unchanged_same _) ?_
    rintro ⟨payload, w, hobject, -⟩
    rw [hbody] at hobject
    cases hobject
  · next hbody =>
    refine iff_of_true (unchanged_same _) ?_
    rintro ⟨payload, w, hobject, -⟩
    rw [hbody] at hobject
    cases hobject
  next payload hbody =>
  have hput : PutConflict cfg journal file p locked q voiceOwner authReadable io ↔
      checkPayload payload = none ∧ locked = false ∧
        ∃ w, findWorker p.workers q.workerId = some w ∧
          ConflictAfterDiscard (cfg.validating payload) journal file (q.request payload)
            voiceOwner authReadable io w := by
    constructor
    · rintro ⟨payload', w, hobject, hcheck, hlocked, hfind, hconflict⟩
      rw [hbody] at hobject
      cases hobject
      exact ⟨hcheck, hlocked, w, hfind, hconflict⟩
    · rintro ⟨hcheck, hlocked, w, hfind, hconflict⟩
      exact ⟨payload, w, hbody, hcheck, hlocked, hfind, hconflict⟩
  rw [hput]
  cases hcheck : checkPayload payload with
  | some rejection => exact iff_of_true (unchanged_same _) fun h => by cases h.1
  | none =>
    dsimp only
    cases locked with
    | true => exact iff_of_true (unchanged_same _) fun h => by cases h.2.1
    | false =>
      rw [if_neg (by decide)]
      refine (unchanged_map (fun _ => rfl) (applyWorkerUpdate (cfg.validating payload) journal file
        p (q.request payload) voiceOwner authReadable io)).trans ?_
      cases hfind : findWorker p.workers q.workerId with
      | none =>
        have hnone : findWorker p.workers (q.request payload).workerId = none := hfind
        unfold applyWorkerUpdate
        rw [hnone]
        refine iff_of_true (unchanged_same _) ?_
        rintro ⟨-, -, w, hfound, -⟩
        cases hfound
      | some w =>
        have hsome : findWorker p.workers (q.request payload).workerId = some w := hfind
        refine (applyWorkerUpdate_unchanged_iff hsome).trans (not_congr ?_)
        constructor
        · exact fun h => ⟨rfl, rfl, w, rfl, h⟩
        · rintro ⟨-, -, w', hfound, h⟩
          cases hfound
          exact h

end Update

/-- The voice owner, disabled and journaled by an update that did not finish. -/
def exVoiceOwner : Worker where
  config := ⟨"http://a:8000", none, [.speech, .audioInput]⟩
  incarnation := "i"
  disabled := true

/-- Re-enable the voice owner as a worker that only chats. -/
def exReenable : PutWorker where
  workerId := exVoiceOwner.workerId
  body := .object { disabled := .bool false, capabilities := some [.chat] }

def exAdminConfig : AdminConfig where
  validate := fun config => if config.capabilities.isEmpty then none else some config
  adminApiKey := false

/-- The answer is 409, and the worker is no longer in the journal. -/
theorem conflict_after_discard :
    let file : JournalFile := .settled (.document none [exVoiceOwner.workerId])
    let answer := updateWorker exAdminConfig .durable file
      (Pool.empty.add exVoiceOwner List.not_mem_nil) false exReenable (some exVoiceOwner.url) true {}
    answer.2.2 = some (.refused .voiceOwnerCapabilities) ∧
      (UpdateRejection.refused .voiceOwnerCapabilities).status = 409 ∧
      answer.2.1.visible = .absent ∧
      ¬RejectedUnchanged UpdateRejection.status (Pool.empty.add exVoiceOwner List.not_mem_nil) file
        answer := by
  refine ⟨by decide +kernel, rfl, by decide +kernel, fun h => ?_⟩
  have hsame := (h (.refused .voiceOwnerCapabilities) (by decide +kernel) (by decide)
    (by decide)).2
  exact absurd hsame (by decide +kernel)

end OmniRealtime
