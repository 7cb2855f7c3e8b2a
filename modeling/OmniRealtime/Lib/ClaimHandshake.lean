import Mathlib

/-!
# Answers with a claim

Calls that are opened one at a time. A call may be claimed until it is settled, and a settled call
is answered; the answer says whether the call was claimed.

1. `Told`: the marks of a run are whole calls and what is there of the last one.
2. `Told.opened`, `Told.claimed`, `Told.settled`, `Told.answered`: one more mark.
3. `Told.answer`: no call is left without its answer.
-/

namespace OmniRealtime

open List

namespace Handshake

universe u

variable {κ : Type u}

inductive Mark (κ : Type u)
  | opened (i : κ)
  | claimed (i : κ)
  | settled (i : κ)
  | answered (i : κ) (claimed : Bool)
  deriving DecidableEq

/-- How far the last call is. -/
inductive Stage (κ : Type u)
  | idle
  | begun (i : κ) (claimed : Bool)
  | settled (i : κ) (claimed : Bool)

namespace Stage

def call : Stage κ → Option κ
  | idle => none
  | begun i _ | settled i _ => some i

def marks : Stage κ → List (Mark κ)
  | idle => []
  | begun i claimed => .opened i :: if claimed then [.claimed i] else []
  | settled i claimed => (.opened i :: if claimed then [.claimed i] else []) ++ [.settled i]

end Stage

/-- The marks of a call from its opening to its answer. -/
def story (c : κ × Bool) : List (Mark κ) := (Stage.settled c.1 c.2).marks ++ [.answered c.1 c.2]

/-- The calls `calls` are whole, and the last call is at `stage`. -/
structure Told (marks : List (Mark κ)) (calls : List (κ × Bool)) (stage : Stage κ) : Prop where
  marks_eq : marks = calls.flatMap story ++ stage.marks
  distinct : (calls.map Prod.fst ++ stage.call.toList).Nodup

namespace Told

variable {marks : List (Mark κ)} {calls : List (κ × Bool)} {i : κ} {b : Bool}

theorem nil : Told ([] : List (Mark κ)) [] .idle := ⟨rfl, .nil⟩

theorem opened (h : Told marks calls .idle) (hfrs : i ∉ calls.map Prod.fst) :
    Told (marks ++ [.opened i]) calls (.begun i false) := by
  refine ⟨?_, ?_⟩
  · rw [h.marks_eq]
    exact append_assoc ..
  · have hdistinct : (calls.map Prod.fst).Nodup := by simpa [Stage.call] using h.distinct
    show (calls.map Prod.fst ++ [i]).Nodup
    rw [nodup_append]
    refine ⟨hdistinct, nodup_singleton i, fun a ha c hc => ?_⟩
    rw [mem_singleton.mp hc]
    exact fun heq => hfrs (heq ▸ ha)

theorem claimed (h : Told marks calls (.begun i false)) :
    Told (marks ++ [.claimed i]) calls (.begun i true) := by
  refine ⟨?_, h.distinct⟩
  rw [h.marks_eq]
  exact append_assoc ..

theorem settled (h : Told marks calls (.begun i b)) :
    Told (marks ++ [.settled i]) calls (.settled i b) := by
  refine ⟨?_, h.distinct⟩
  rw [h.marks_eq]
  exact append_assoc ..

theorem answered (h : Told marks calls (.settled i b)) :
    Told (marks ++ [.answered i b]) (calls ++ [(i, b)]) .idle := by
  refine ⟨?_, ?_⟩
  · rw [h.marks_eq, flatMap_append, flatMap_singleton, append_assoc]
    exact (append_nil _).symm
  · rw [map_append]
    exact (append_nil _).symm ▸ h.distinct

theorem answer (h : Told marks calls .idle) (hmem : .opened i ∈ marks) :
    ∃ b, .answered i b ∈ marks := by
  have hmarks : marks = calls.flatMap story := h.marks_eq.trans (append_nil _)
  rw [hmarks] at hmem ⊢
  obtain ⟨⟨j, b⟩, hc, hmem⟩ := mem_flatMap.mp hmem
  have hij : i = j := by
    cases b <;> simpa [story, Stage.marks] using hmem
  refine ⟨b, mem_flatMap.mpr ⟨(j, b), hc, ?_⟩⟩
  rw [hij]
  exact mem_append_right _ (mem_singleton_self _)

end Told

theorem Stage.opened_mem {stage : Stage κ} {i : κ} (h : stage.call = some i) :
    .opened i ∈ stage.marks := by
  cases stage with
  | idle => cases h
  | begun j b =>
    cases h
    exact mem_cons_self
  | settled j b =>
    cases h
    exact mem_append_left _ mem_cons_self

end Handshake

end OmniRealtime
