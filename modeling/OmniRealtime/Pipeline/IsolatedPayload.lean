import OmniRealtime.Lib.DepthFirst

/-!
# Projected payloads that share nothing

A stage hands its projected payload over in the same process if the check says that it is isolated:
that its data shares no mutable container with the data of the original.

The check looks at the data of the two payloads, not at the request that they share, and into
built-in containers only.
-/

namespace OmniRealtime

open DepthFirst Relation

/-- An object of the interpreter, with the identities of the objects that it refers to. -/
inductive PyObject (ι : Type*)
  | dict (keys values : List ι)
  | list (items : List ι)
  | tuple (items : List ι)
  | set (items : List ι)
  | frozenset (items : List ι)
  | bytearray
  | stagePayload (requestId request data prefetchedChunks : ι)
  | other (typeName : String) (attributes : List ι)

namespace PyObject

variable {ι : Type*}

def typeName : PyObject ι → String
  | dict _ _ => "dict"
  | list _ => "list"
  | tuple _ => "tuple"
  | set _ => "set"
  | frozenset _ => "frozenset"
  | bytearray => "bytearray"
  | stagePayload _ _ _ _ => "StagePayload"
  | other name _ => name

/-- `isinstance(obj, (dict, list, set, bytearray))`. -/
def isMutableContainer : PyObject ι → Bool
  | dict _ _ | list _ | set _ | bytearray => true
  | _ => false

def containerChildren : PyObject ι → List ι
  | dict _ values => values
  | list items | tuple items | set items | frozenset items => items
  | _ => []

/-- All that the object refers to. -/
def references : PyObject ι → List ι
  | dict keys values => keys ++ values
  | stagePayload requestId request data prefetchedChunks =>
    [requestId, request, data, prefetchedChunks]
  | other _ attributes => attributes
  | object => object.containerChildren

end PyObject

namespace IsolatedPayload

open PyObject

variable {ι : Type*} [DecidableEq ι] [Fintype ι] (heap : ι → PyObject ι)

/-- A mutable container below both objects, as far as the check can see. -/
def Shares (original projected : ι) : Prop :=
  ∃ x, (heap x).isMutableContainer = true ∧
    Below (fun obj => (heap obj).containerChildren) original x ∧
    Below (fun obj => (heap obj).containerChildren) projected x

def collectMutableContainerIds (fuel : ℕ) (obj : ι) (seen : Finset ι) :
    Option (Finset ι × Finset ι) :=
  walk (fun obj => (heap obj).containerChildren)
    (fun obj => if (heap obj).isMutableContainer then {obj} else ∅) (fun _ => false) fuel obj seen

-- `||` on `Bool`, written out so that it computes.
local instance supBool : SemilatticeSup Bool :=
  Bool.instBooleanAlgebra.toBiheytingAlgebra.toLattice.toSemilatticeSup

local instance botBool : OrderBot Bool :=
  Bool.instBooleanAlgebra.toBiheytingAlgebra.toHeytingAlgebra.toOrderBot

def containsMutableContainerId (originalIds : Finset ι) (fuel : ℕ) (obj : ι) (seen : Finset ι) :
    Option (Bool × Finset ι) :=
  walk (fun obj => (heap obj).containerChildren)
    (fun obj => (heap obj).isMutableContainer && obj ∈ originalIds) id fuel obj seen

/-- No recursion is deeper than there are objects. -/
def sharesMutableContainer (original projected : ι) : Option Bool :=
  (collectMutableContainerIds heap (Fintype.card ι + 1) original ∅).bind fun (originalIds, _) =>
    if originalIds = ∅ then some false
    else (containsMutableContainerId heap originalIds (Fintype.card ι + 1) projected ∅).map Prod.fst

/-- The data of an object that is a `StagePayload`. -/
def data? (payload : ι) : Option ι :=
  match heap payload with
  | .stagePayload _ _ data _ => some data
  | _ => none

/-- The verdict, or the text of a `TypeError`. -/
def isIsolatedProjectedPayload (originalPayload projectedPayload : ι) (projectorPresent : Bool) :
    Option (Except String Bool) :=
  if projectorPresent = false ∨ projectedPayload = originalPayload then some (.ok false)
  else
    match data? heap originalPayload, data? heap projectedPayload with
    | none, _ => some (.error ("projected local-object dispatch requires the original payload " ++
        "to be StagePayload, got " ++ (heap originalPayload).typeName))
    | some _, none => some (.error ("projected local-object dispatch requires projectors to " ++
        "return StagePayload, got " ++ (heap projectedPayload).typeName))
    | some originalData, some projectedData =>
      if projectedData = originalData then some (.ok false)
      else (sharesMutableContainer heap originalData projectedData).map fun shares => .ok !shares

theorem collectMutableContainerIds_spec (obj : ι) :
    ∃ out, collectMutableContainerIds heap (Fintype.card ι + 1) obj ∅ = some out ∧
      ∀ x, x ∈ out.1 ↔ (heap x).isMutableContainer = true ∧
        Below (fun obj => (heap obj).containerChildren) obj x := by
  obtain ⟨out, hout, hids, hseen⟩ := exists_walk (fun obj => (heap obj).containerChildren) obj
    fun obj => if (heap obj).isMutableContainer then ({obj} : Finset ι) else ∅
  refine ⟨out, hout, fun x => ?_⟩
  rw [hids, Finset.mem_sup, ← hseen x]
  constructor
  · rintro ⟨y, hy, hmem⟩
    split at hmem
    · next hm =>
      obtain rfl := Finset.mem_singleton.mp hmem
      exact ⟨hm, hy⟩
    · exact absurd hmem (Finset.notMem_empty x)
  · rintro ⟨hm, hx⟩
    exact ⟨x, hx, by rw [if_pos hm]; exact Finset.mem_singleton_self x⟩

theorem sharesMutableContainer_spec (original projected : ι) :
    ∃ shares, sharesMutableContainer heap original projected = some shares ∧
      (shares = true ↔ Shares heap original projected) := by
  obtain ⟨⟨ids, seen⟩, hids, hmem⟩ := collectMutableContainerIds_spec heap original
  unfold sharesMutableContainer
  rw [hids, Option.bind_some]
  dsimp only at hmem ⊢
  split
  · next hnone =>
    refine ⟨false, rfl, nofun, fun ⟨x, hm, hbelow, _⟩ => ?_⟩
    have hx : x ∈ ids := (hmem x).mpr ⟨hm, hbelow⟩
    rw [hnone] at hx
    exact absurd hx (Finset.notMem_empty x)
  · obtain ⟨out, hout, hfound⟩ := exists_search (fun obj => (heap obj).containerChildren) projected
      fun obj => (heap obj).isMutableContainer && obj ∈ ids
    refine ⟨out.1, ?_, hfound.trans ⟨?_, ?_⟩⟩
    · rw [containsMutableContainerId, hout]
      rfl
    · rintro ⟨x, hbelow, hhit⟩
      obtain ⟨hm, hx⟩ := (Bool.and_eq_true ..).mp hhit
      exact ⟨x, hm, ((hmem x).mp (of_decide_eq_true hx)).2, hbelow⟩
    · rintro ⟨x, hm, horiginal, hprojected⟩
      refine ⟨x, hprojected, (Bool.and_eq_true ..).mpr ⟨hm, decide_eq_true ?_⟩⟩
      exact (hmem x).mpr ⟨hm, horiginal⟩

/-- The check ends for every graph of objects. It accepts a payload that a projector has made, with
    data of its own, exactly if no mutable container is below the data of both payloads; and it
    raises only where one of the two objects is no payload. -/
theorem isolated_iff (originalPayload projectedPayload : ι) (projectorPresent : Bool) :
    ∃ verdict, isIsolatedProjectedPayload heap originalPayload projectedPayload projectorPresent =
        some verdict ∧
      (verdict = .ok true ↔ projectorPresent = true ∧ projectedPayload ≠ originalPayload ∧
        ∃ originalData projectedData, data? heap originalPayload = some originalData ∧
          data? heap projectedPayload = some projectedData ∧ projectedData ≠ originalData ∧
          ¬Shares heap originalData projectedData) ∧
      ((∃ message, verdict = .error message) ↔ projectorPresent = true ∧
        projectedPayload ≠ originalPayload ∧
        (data? heap originalPayload = none ∨ data? heap projectedPayload = none)) := by
  unfold isIsolatedProjectedPayload
  split
  · next hguard =>
    have hno : ¬(projectorPresent = true ∧ projectedPayload ≠ originalPayload) := by
      rintro ⟨rfl, hother⟩
      exact hguard.elim nofun hother
    exact ⟨_, rfl, ⟨nofun, fun h => absurd ⟨h.1, h.2.1⟩ hno⟩, nofun,
      fun h => absurd ⟨h.1, h.2.1⟩ hno⟩
  · next hgo =>
    obtain ⟨hpresent, hother⟩ := not_or.mp hgo
    have hpresent : projectorPresent = true := Bool.not_eq_false _ ▸ hpresent
    cases data? heap originalPayload with
    | none =>
      refine ⟨_, rfl, ⟨nofun, ?_⟩, fun _ => ⟨hpresent, hother, .inl rfl⟩, fun _ => ⟨_, rfl⟩⟩
      rintro ⟨-, -, _, _, ⟨⟩, -⟩
    | some originalData =>
      cases data? heap projectedPayload with
      | none =>
        refine ⟨_, rfl, ⟨nofun, ?_⟩, fun _ => ⟨hpresent, hother, .inr rfl⟩, fun _ => ⟨_, rfl⟩⟩
        rintro ⟨-, -, _, _, -, ⟨⟩, -⟩
      | some projectedData =>
        have hpayloads : ¬(some originalData = none ∨ some projectedData = none) := nofun
        dsimp only
        split
        · next hsame =>
          refine ⟨_, rfl, ⟨nofun, ?_⟩, nofun, fun h => absurd h.2.2 hpayloads⟩
          rintro ⟨-, -, _, _, ⟨⟩, ⟨⟩, hdata, -⟩
          exact absurd hsame hdata
        · next hdata =>
          obtain ⟨shares, hshares, hiff⟩ := sharesMutableContainer_spec heap originalData projectedData
          rw [hshares]
          refine ⟨_, rfl, ⟨fun hok => ?_, ?_⟩, nofun, fun h => absurd h.2.2 hpayloads⟩
          · refine ⟨hpresent, hother, _, _, rfl, rfl, hdata, fun hshared => ?_⟩
            rw [hiff.mpr hshared] at hok
            cases hok
          · rintro ⟨-, -, _, _, ⟨⟩, ⟨⟩, -, hisolated⟩
            rw [Bool.eq_false_iff.mpr (mt hiff.mp hisolated)]
            rfl

/-- Two payloads of one request, with data of their own. -/
def exSharedRequest : Fin 9 → PyObject (Fin 9)
  | 0 => .stagePayload 2 3 5 7
  | 1 => .stagePayload 2 3 6 8
  | 2 => .other "str" []
  | 3 => .other "OmniRequest" [4]
  | 4 | 5 | 6 => .dict [] []
  | 7 | 8 => .list []

theorem isolated_shares_request : ¬∀ (n : ℕ) (heap : Fin n → PyObject (Fin n))
    (originalPayload projectedPayload : Fin n),
    isIsolatedProjectedPayload heap originalPayload projectedPayload true = some (.ok true) ↔
      ¬∃ x, (heap x).isMutableContainer = true ∧
        Below (fun obj => (heap obj).references) originalPayload x ∧
        Below (fun obj => (heap obj).references) projectedPayload x := by
  intro hexact
  refine (hexact 9 exSharedRequest 0 1).mp (by decide) ⟨4, rfl, ?_, ?_⟩
  · exact .tail (.single (b := 3) (by decide)) (by decide)
  · exact .tail (.single (b := 3) (by decide)) (by decide)

end IsolatedPayload

end OmniRealtime
