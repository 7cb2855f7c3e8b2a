import Mathlib

/-!
# A file across a host crash

A file replaced through a temporary file and a rename, or unlinked, is seen by every
process at once but is durable only after the sync of its directory. `DurableFile` keeps
the visible content and every content a host crash may leave behind.

1. `replace_possible`: a replacement, whatever its outcome, leaves only contents that
   were possible before, or the new one.
2. `possible_of_replace_synced`: after a synced replacement only the new content is left.
3. `hostCrash_possible`: a host crash leaves one of the possible contents.
-/

namespace OmniRealtime

universe u

/-- How a replacement ends: it is on disk, it never happened, or it is visible and the sync
    of the directory failed. -/
inductive WriteOutcome
  | synced | failedBefore | failedAfter
  deriving DecidableEq, Repr

/-- `durable` lists the contents a host crash may leave; the visible one is among them. -/
structure DurableFile (κ : Type u) where
  visible : κ
  durable : List κ
  visible_mem : visible ∈ durable

namespace DurableFile

variable {κ : Type u} {f : DurableFile κ} {o : WriteOutcome} {c d : κ}

/-- `c` is what a reader may see now or after a host crash. -/
def Possible (f : DurableFile κ) (c : κ) : Prop := c ∈ f.durable

def settled (c : κ) : DurableFile κ := ⟨c, [c], List.mem_singleton.mpr rfl⟩

/-- The file after a replacement, and whether the replacement reports success. -/
def replace (f : DurableFile κ) (c : κ) : WriteOutcome → DurableFile κ × Bool
  | .synced => (settled c, true)
  | .failedBefore => (f, false)
  | .failedAfter => (⟨c, c :: f.durable, List.mem_cons_self⟩, false)

/-- Sync the directory without touching the file. -/
def sync (f : DurableFile κ) : WriteOutcome → DurableFile κ × Bool
  | .synced => (settled f.visible, true)
  | .failedBefore | .failedAfter => (f, false)

/-- The disk comes back with content `c`. -/
def hostCrash [DecidableEq κ] (f : DurableFile κ) (c : κ) : Option (DurableFile κ) :=
  if c ∈ f.durable then some (settled c) else none

/-! ## What may be left -/

theorem possible_visible (f : DurableFile κ) : f.Possible f.visible := f.visible_mem

@[simp] theorem possible_settled {c d : κ} : (settled c).Possible d ↔ d = c :=
  List.mem_singleton

theorem replace_possible (h : (f.replace c o).1.Possible d) : d = c ∨ f.Possible d := by
  cases o with
  | synced => exact .inl (possible_settled.mp h)
  | failedBefore => exact .inr h
  | failedAfter => exact List.mem_cons.mp h

theorem possible_of_replace_synced (hok : (f.replace c o).2 = true)
    (h : (f.replace c o).1.Possible d) : d = c := by
  cases o with
  | synced => exact possible_settled.mp h
  | failedBefore | failedAfter => cases hok

theorem visible_of_replace {c : κ} (hok : (f.replace c o).2 = true) : (f.replace c o).1.visible =
    c :=
  possible_of_replace_synced hok (possible_visible _)

@[simp] theorem sync_visible (f : DurableFile κ) (o : WriteOutcome) :
    (f.sync o).1.visible = f.visible := by
  cases o <;> rfl

theorem hostCrash_possible [DecidableEq κ] {f f' : DurableFile κ} (hcsh : f.hostCrash c = some f')
    (h : f'.Possible d) : f.Possible d := by
  unfold hostCrash at hcsh
  split at hcsh
  case isTrue hc =>
    cases hcsh
    exact possible_settled.mp h ▸ hc
  case isFalse => cases hcsh

end DurableFile

end OmniRealtime
