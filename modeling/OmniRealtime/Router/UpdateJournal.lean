import OmniRealtime.Lib.DurableFile

/-!
# The weight-update journal

`update_journal.py`: the record of a weight update whose outcome is not known yet, and
the stand-in of a router without a durable state directory. Reads and writes may fail at
every call; the outcomes are arguments.

1. `UpdateJournal.keep_names`: narrowing or rewriting the target set never loses an id that
   is still in it.
2. `UpdateJournal.begin_names`: after a successful `begin` every possible content names
   every target.
3. `UpdateJournal.discard_names`, `UpdateJournal.discard_forgets`: discarding one id keeps
   every other one, and removes that one when it succeeds.
4. `UpdateJournal.hasPending_of_names`: a content that names an id holds back every later
   update.
-/

namespace OmniRealtime

open DurableFile

/-! ## The file -/

/-- What the journal file holds: nothing, something `_read_document` or `pending` refuses, or
    a document. -/
inductive JournalContent
  | absent
  | unreadable
  | document (path : Option String) (workerIds : List String)
  deriving DecidableEq, Repr

/-- The content forbids trusting `workerId`: it lists it, or may list anything. -/
def JournalContent.Names (workerId : String) : JournalContent → Prop
  | .absent => False
  | .unreadable => True
  | .document _ workerIds => workerId ∈ workerIds

abbrev JournalFile := DurableFile JournalContent

/-- The outcomes of the file accesses of one call: whether its reads go through (a missing
    file is no failure), and how its write ends. -/
structure JournalIo where
  readable : Bool := true
  rereadable : Bool := true
  write : WriteOutcome := .synced

namespace UpdateJournal

/-- `pending`; `none` is `JournalUnreadableError`. -/
def pending (file : JournalFile) (readable : Bool) : Option (List String) :=
  match file.visible, readable with
  | _, false | .unreadable, _ => none
  | .absent, true => some []
  | .document _ workerIds, true => some workerIds

def hasPending (file : JournalFile) (readable : Bool) : Bool :=
  match pending file readable with
  | some workerIds => !workerIds.isEmpty
  | none => true

def sorted (workerIds : List String) : List String := workerIds.insertionSort (· ≤ ·)

/-- `begin`; the flag is false when `JournalUnwritableError` is raised. -/
def «begin» (file : JournalFile) (path : String) (workerIds : List String)
    (write : WriteOutcome) : JournalFile × Bool :=
  file.replace (.document (some path) (sorted workerIds)) write

/-- `clear`: an absent file is still synced, for an earlier unlink may not be durable. -/
def clear (file : JournalFile) (write : WriteOutcome) : JournalFile × Bool :=
  if file.visible = .absent then file.sync write else file.replace .absent write

/-- The admin path a rewrite preserves: that of the document read again. -/
def existingPath (file : JournalFile) (readable : Bool) : Option String :=
  match file.visible with
  | .document path _ => if readable then path else none
  | .absent | .unreadable => none

def keep (file : JournalFile) (workerIds : List String) (readable : Bool)
    (write : WriteOutcome) : JournalFile × Bool :=
  if workerIds.isEmpty then
    clear file write
  else
    file.replace (.document (existingPath file readable) (sorted workerIds)) write

def discard (file : JournalFile) (workerId : String) (io : JournalIo) : JournalFile × Bool :=
  match pending file io.readable with
  | none => (file, false)
  | some workerIds => keep file (workerIds.filter (· ≠ workerId)) io.rereadable io.write

/-! ## What each call leaves in the file -/

@[simp] theorem mem_sorted {id : String} {workerIds : List String} :
    id ∈ sorted workerIds ↔ id ∈ workerIds := List.mem_insertionSort _

variable {workerIds : List String} {id : String}

theorem names_document {path : Option String} :
    (JournalContent.document path (sorted workerIds)).Names id ↔ id ∈ workerIds := by
  rw [JournalContent.Names, mem_sorted]

variable {file : JournalFile} {c : JournalContent}

theorem mem_of_names {readable : Bool} (hnms : file.visible.Names id)
    (hp : pending file readable = some workerIds) : id ∈ workerIds := by
  unfold pending at hp
  split at hp
  next => cases hp
  next => cases hp
  next hvis =>
    rw [hvis] at hnms
    exact hnms.elim
  next hvis =>
    rw [hvis] at hnms
    exact Option.some.inj hp ▸ hnms

theorem hasPending_of_names (readable : Bool) (hnms : file.visible.Names id) :
    hasPending file readable = true := by
  unfold hasPending
  cases hp : pending file readable with
  | none => rfl
  | some workerIds =>
    have hmem : id ∈ workerIds := mem_of_names hnms hp
    cases workerIds with
    | nil => cases hmem
    | cons => rfl

theorem begin_names {path : String} {write : WriteOutcome}
    (hok : («begin» file path workerIds write).2 = true)
    (hc : («begin» file path workerIds write).1.Possible c) (hid : id ∈ workerIds) :
    c.Names id := by
  rw [possible_of_replace_synced hok hc]
  exact names_document.mpr hid

/-- Rewriting the target set never loses an id that is still in it. -/
theorem keep_names {readable : Bool} {write : WriteOutcome} (hid : id ∈ workerIds)
    (hold : ∀ c, file.Possible c → c.Names id)
    (hc : (keep file workerIds readable write).1.Possible c) : c.Names id := by
  have hne : workerIds.isEmpty = false := List.isEmpty_eq_false_iff_exists_mem.mpr ⟨id, hid⟩
  unfold keep at hc
  rw [hne] at hc
  rcases replace_possible hc with rfl | hc
  · exact names_document.mpr hid
  · exact hold c hc

theorem discard_names {workerId id : String} {io : JournalIo} (hne : id ≠ workerId)
    (hold : ∀ c, file.Possible c → c.Names id) (hc : (discard file workerId io).1.Possible c) : c.Names id := by
  unfold discard at hc
  cases hp : pending file io.readable with
  | none =>
    rw [hp] at hc
    exact hold c hc
  | some workerIds =>
    rw [hp] at hc
    have hmem : id ∈ workerIds :=
      mem_of_names (hold _ file.possible_visible) hp
    exact keep_names (List.mem_filter.mpr ⟨hmem, decide_eq_true hne⟩) hold hc

theorem clear_visible {write : WriteOutcome} (hok : (clear file write).2 = true) :
    (clear file write).1.visible = .absent := by
  unfold clear at hok ⊢
  split at hok
  next habs => rw [if_pos habs, sync_visible, habs]
  next habs =>
    rw [if_neg habs]
    exact visible_of_replace hok

theorem discard_forgets {workerId : String} {io : JournalIo}
    (hok : (discard file workerId io).2 = true) :
    ¬ (discard file workerId io).1.visible.Names workerId := by
  unfold discard at hok ⊢
  cases hp : pending file io.readable with
  | none => simp [hp] at hok
  | some workerIds =>
    rw [hp] at hok
    dsimp only [keep] at hok ⊢
    split at hok
    next hemp =>
      rw [if_pos hemp, clear_visible hok]
      exact id
    next hemp =>
      rw [if_neg hemp, visible_of_replace hok, names_document]
      simp

end UpdateJournal

/-! ## The journal of a router -/

/-- `build_journal`: `unavailable` stands for `UnavailableJournal`. -/
inductive Journal
  | durable
  | unavailable
  deriving DecidableEq, Repr

namespace Journal

def pending (file : JournalFile) (readable : Bool) : Journal → Option (List String)
  | .durable => UpdateJournal.pending file readable
  | .unavailable => some []

def hasPending (file : JournalFile) (readable : Bool) : Journal → Bool
  | .durable => UpdateJournal.hasPending file readable
  | .unavailable => false

def «begin» (file : JournalFile) (path : String) (workerIds : List String)
    (write : WriteOutcome) : Journal → JournalFile × Bool
  | .durable => UpdateJournal.begin file path workerIds write
  | .unavailable => (file, false)

def keep (file : JournalFile) (workerIds : List String) (readable : Bool)
    (write : WriteOutcome) : Journal → JournalFile × Bool
  | .durable => UpdateJournal.keep file workerIds readable write
  | .unavailable => (file, false)

def discard (file : JournalFile) (workerId : String) (io : JournalIo) :
    Journal → JournalFile × Bool
  | .durable => UpdateJournal.discard file workerId io
  | .unavailable => (file, true)

def clear (file : JournalFile) (write : WriteOutcome) : Journal → JournalFile × Bool
  | .durable => UpdateJournal.clear file write
  | .unavailable => (file, true)

end Journal

end OmniRealtime
