import Mathlib

/-!
# The usage ledger

`vl_api_adapter/adapter/usage.py`: the counters of a snapshot, their validation, and the ledger that
keeps what was reported and what was settled.

1. `UsageLedger.record_rejected`: a rejected snapshot leaves the ledger unchanged.
2. `UsageLedger.Sound`: what `record` and `settle` keep.
-/

namespace OmniRealtime

/-! ## Counters -/

inductive UsageField
  | visionTokens | textInputTokens | textOutputTokens | textTokens | totalTokens
  deriving DecidableEq, Repr

def usageFields : List UsageField :=
  [.visionTokens, .textInputTokens, .textOutputTokens, .textTokens, .totalTokens]

theorem mem_usageFields (key : UsageField) : key ∈ usageFields := by cases key <;> decide

abbrev Usage := UsageField → ℤ

def emptyUsage : Usage := 0

/-- The text and total counters are the sums of their parts. -/
structure Usage.Reconciles (usage : Usage) : Prop where
  text : usage .textTokens = usage .textInputTokens + usage .textOutputTokens
  total : usage .totalTokens = usage .visionTokens + usage .textTokens

theorem Usage.Reconciles.sub {usage other : Usage} (h : usage.Reconciles)
    (hother : other.Reconciles) : (usage - other).Reconciles where
  text := by simp only [Pi.sub_apply, h.text, hother.text]; omega
  total := by simp only [Pi.sub_apply, h.total, hother.total]; omega

/-- A value that may be no dict, and may have fields that are no ints. -/
abbrev RawUsage := Option (UsageField → Option ℤ)

def validateUsage : RawUsage → Except String Usage
  | none => .error "missing authoritative usage"
  | some fields =>
    if usageFields.any (fun key => (fields key).all fun n => n < 0) = true then
      .error "usage fields must be non-negative integers"
    else
      let result : Usage := fun key => (fields key).getD 0
      if result .textTokens ≠ result .textInputTokens + result .textOutputTokens then
        .error "text usage does not reconcile"
      else if result .totalTokens ≠ result .visionTokens + result .textTokens then
        .error "total usage does not reconcile"
      else .ok result

/-- What passes is not negative, and reconciles. -/
theorem valid_of_validateUsage {raw : RawUsage} {usage : Usage}
    (h : validateUsage raw = .ok usage) : 0 ≤ usage ∧ usage.Reconciles := by
  cases raw with
  | none => cases h
  | some fields =>
    dsimp only [validateUsage] at h
    split_ifs at h with hfields htext htot
    cases h
    refine ⟨fun key => ?_, not_not.mp htext, not_not.mp htot⟩
    have hkey : ¬(fields key).all (fun n => n < 0) = true :=
      fun hkey => hfields (List.any_eq_true.mpr ⟨key, mem_usageFields key, hkey⟩)
    show 0 ≤ (fields key).getD 0
    cases hv : fields key with
    | none => exact absurd hkey (by simp [hv])
    | some n =>
      rw [hv] at hkey
      simpa using hkey

/-! ## The ledger -/

structure UsageLedger where
  latest : Usage := emptyUsage
  settled : Usage := emptyUsage
  watermark : ℤ := -1

/-- The `usage` of a `response.done`. -/
structure Settlement where
  delta : Usage
  cumulative : Usage

namespace UsageLedger

/-- `record`, with the text of the error that it raises. -/
def record (ledger : UsageLedger) (snapshot : RawUsage) (watermark : Option ℤ) :
    Option String × UsageLedger :=
  match validateUsage snapshot with
  | .error e => (some e, ledger)
  | .ok value =>
    if watermark.all (fun n => n < ledger.watermark) = true then
      (some "accounting watermark regressed", ledger)
    else if usageFields.any (fun key => value key < ledger.latest key) = true then
      (some "cumulative usage regressed", ledger)
    else (none, { ledger with latest := value, watermark := watermark.getD 0 })

def settle (ledger : UsageLedger) : Settlement × UsageLedger :=
  ({ delta := ledger.latest - ledger.settled, cumulative := ledger.latest },
    { ledger with settled := ledger.latest })

theorem record_rejected {ledger : UsageLedger} {snapshot : RawUsage} {watermark : Option ℤ}
    {e : String} (h : (ledger.record snapshot watermark).1 = some e) :
    (ledger.record snapshot watermark).2 = ledger := by
  unfold record at h ⊢
  split
  · rfl
  · rename_i value hv
    simp only [hv] at h
    split_ifs at h ⊢ <;> rfl

structure Accepted (ledger : UsageLedger) (snapshot : RawUsage) (watermark : Option ℤ)
    (value : Usage) : Prop where
  valid : validateUsage snapshot = .ok value
  mono : ledger.latest ≤ value
  result : (ledger.record snapshot watermark).2 =
    { ledger with latest := value, watermark := watermark.getD 0 }

theorem accepted_of_record {ledger : UsageLedger} {snapshot : RawUsage} {watermark : Option ℤ}
    (h : (ledger.record snapshot watermark).1 = none) :
    ∃ value, ledger.Accepted snapshot watermark value := by
  unfold record at h
  split at h
  · cases h
  · rename_i value hv
    split_ifs at h with hwatermark hregressed
    refine ⟨value, hv, fun key => not_lt.mp fun hlt => hregressed ?_, ?_⟩
    · exact List.any_eq_true.mpr ⟨key, mem_usageFields key, decide_eq_true hlt⟩
    · simp only [record, hv, if_neg hwatermark, if_neg hregressed]

/-- The counters are valid, and no more is settled than was reported. -/
structure Sound (ledger : UsageLedger) : Prop where
  settled_nonneg : 0 ≤ ledger.settled
  settled_reconciles : ledger.settled.Reconciles
  latest_reconciles : ledger.latest.Reconciles
  settled_le : ledger.settled ≤ ledger.latest

namespace Sound

variable {ledger : UsageLedger}

theorem initial : Sound {} where
  settled_nonneg := le_refl _
  settled_reconciles := ⟨rfl, rfl⟩
  latest_reconciles := ⟨rfl, rfl⟩
  settled_le := le_refl _

theorem latest_nonneg (h : ledger.Sound) : 0 ≤ ledger.latest := h.settled_nonneg.trans h.settled_le

theorem record (h : ledger.Sound) (snapshot : RawUsage) (watermark : Option ℤ) :
    (ledger.record snapshot watermark).2.Sound := by
  cases hres : (ledger.record snapshot watermark).1 with
  | some e => rw [record_rejected hres]; exact h
  | none =>
    obtain ⟨value, hacc⟩ := accepted_of_record hres
    rw [hacc.result]
    exact { h with
      latest_reconciles := (valid_of_validateUsage hacc.valid).2
      settled_le := h.settled_le.trans hacc.mono }

theorem settle (h : ledger.Sound) : ledger.settle.2.Sound where
  settled_nonneg := h.latest_nonneg
  settled_reconciles := h.latest_reconciles
  latest_reconciles := h.latest_reconciles
  settled_le := le_refl _

end Sound

end UsageLedger

end OmniRealtime
