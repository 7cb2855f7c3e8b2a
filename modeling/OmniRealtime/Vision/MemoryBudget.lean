import OmniRealtime.Lib.Dict

/-!
# The memory budget of an extend batch

`_enforce_extend_memory_budget` of `scheduler.py`: before the pending extends are allocated
the heaviest live sessions are given up until the rest fits. The decision is that of the only
rank, or of rank 0.

1. `BudgetState.step`: one victim.
2. `budgetLoop_spec`: the loop ends, and on what.
3. `extend_budget_sound`: the extends it keeps fit.
-/

namespace OmniRealtime

open List Option Or

/-! ## Requests and extends -/

/-- What the budget reads of a request: the encoder and decoder lengths of its realtime state,
    if it has one, and its output. -/
structure BudgetReq where
  rid : String
  runtimeState : Option (Nat × Nat)
  outputIds : List Int
  deriving DecidableEq, Repr

def realtimeKvCost (r : BudgetReq) : Nat :=
  match r.runtimeState with
  | some (encoderLength, decoderLength) => encoderLength + decoderLength
  | none => r.outputIds.length

/-- A selected request with the segment appended to it. -/
structure PendingExtend where
  req : BudgetReq
  rawAppendIds : List Int
  deriving DecidableEq, Repr

/-- `_needed`: segment tokens, the re-extended pending token and the headroom of one step. -/
def needed (remaining : List PendingExtend) : Nat :=
  (remaining.map fun e => e.rawAppendIds.length + 2).sum

/-- `live.setdefault(req.rid, req)`. -/
def setDefault (live : Dict String BudgetReq) (r : BudgetReq) : Dict String BudgetReq :=
  match live.get r.rid with
  | some _ => live
  | none => live.set r.rid r

def liveRequests (running parked : List BudgetReq) (selected : List PendingExtend) :
    Dict String BudgetReq :=
  (parked ++ selected.map (·.req)).foldl setDefault
    (running.foldl (fun live r => live.set r.rid r) [])

/-- `max(live.values(), key=_realtime_kv_cost)`: the first of the greatest. -/
def heaviest (live : Dict String BudgetReq) : Option BudgetReq :=
  (live.map Prod.snd).argmax realtimeKvCost

/-! ## The loop -/

/-- The variables of the loop. -/
structure BudgetState where
  live : Dict String BudgetReq
  remaining : List PendingExtend
  available : Nat
  victims : List BudgetReq

/-- One victim; none if the batch fits or nobody is left. -/
def BudgetState.next (s : BudgetState) : Option BudgetState :=
  if s.remaining ≠ [] ∧ s.available < needed s.remaining then
    (heaviest s.live).map fun victim =>
      { live := s.live.pop victim.rid
        remaining := s.remaining.filter (·.req.rid ≠ victim.rid)
        available := s.available + realtimeKvCost victim
        victims := s.victims ++ [victim] }
  else none

/-- The victims of the loop; none if it has not ended within `fuel` rounds. -/
def budgetLoop : Nat → BudgetState → Option (List BudgetReq)
  | 0, _ => none
  | fuel + 1, s =>
    match s.next with
    | none => some s.victims
    | some s => budgetLoop fuel s

inductive BudgetEffect
  | undoAppend (entry : PendingExtend)
  | emitError (rid text : String)
  | abort (rid : String)
  deriving DecidableEq, Repr

structure BudgetDecision where
  victims : List BudgetReq
  effects : List BudgetEffect
  kept : List PendingExtend
  deriving DecidableEq, Repr

def stagedByRid (selected : List PendingExtend) : Dict String PendingExtend :=
  selected.foldl (fun staged e => Dict.set staged e.req.rid e) []

/-- What becomes of a victim: a staged append is undone first. -/
def giveUp (staged : Dict String PendingExtend) (rid : String) : List BudgetEffect :=
  ((staged.get rid).map .undoAppend).toList ++
    [.emitError rid ("KV pool exhausted by concurrent sessions; this session " ++
      "was aborted so remaining sessions can continue"), .abort rid]

/-- `_enforce_extend_memory_budget`; `available` is none for an allocator that does not tell
    its size. -/
def enforceExtendMemoryBudget (fuel : Nat) (running parked : List BudgetReq)
    (available : Option Nat) (selected : List PendingExtend) : Option BudgetDecision :=
  match available with
  | none => some ⟨[], [], selected⟩
  | some available =>
    (budgetLoop fuel ⟨liveRequests running parked selected, selected, available, []⟩).map
      fun victims =>
        { victims := victims
          effects := (victims.map (·.rid)).flatMap (giveUp (stagedByRid selected))
          kept := selected.filter fun e => !(victims.map (·.rid)).contains e.req.rid }

/-! ## Live requests -/

/-- The requests of the dict, each under its own id. -/
structure Keyed (live : Dict String BudgetReq) : Prop where
  keys : live.keys.Nodup
  rid : ∀ k r, (k, r) ∈ live → r.rid = k

variable {live : Dict String BudgetReq} {selected : List PendingExtend}
  (running parked : List BudgetReq) {s : BudgetState}

theorem Keyed.set (h : Keyed live) (r : BudgetReq) :
    Keyed (live.set r.rid r) where
  keys := Dict.nodup_set h.keys _ _
  rid k r' hmem := by
    rcases Dict.mem_set.1 hmem with heq | ⟨-, hold⟩
    · cases heq
      rfl
    · exact h.rid k r' hold

theorem Keyed.setDefault (h : Keyed live) (r : BudgetReq) : Keyed (setDefault live r) := by
  unfold OmniRealtime.setDefault
  split
  · exact h
  · exact h.set r

theorem Keyed.pop (h : Keyed live) (k : String) :
    Keyed (live.pop k) where
  keys := Dict.nodup_pop h.keys k
  rid k' r hmem := h.rid k' r (Dict.mem_pop.1 hmem).1

theorem mem_keys_setDefault (live : Dict String BudgetReq) (r : BudgetReq) {k : String}
    (h : k = r.rid ∨ k ∈ live.keys) : k ∈ (setDefault live r).keys := by
  unfold setDefault
  split
  · next r' hget =>
    rcases h with rfl | h
    · by_contra hnot
      rw [Dict.get_eq_none.2 hnot] at hget
      cases hget
    · exact h
  · exact Dict.mem_keys_set.2 h

theorem keyed_liveRequests (selected : List PendingExtend) :
    Keyed (liveRequests running parked selected) := by
  have hrunning : ∀ (rs : List BudgetReq) (live : Dict String BudgetReq), Keyed live →
      Keyed (rs.foldl (fun live r => live.set r.rid r) live) := by
    intro rs
    induction rs with
    | nil => exact fun _ h => h
    | cons r rs ih => exact fun live h => ih _ (h.set r)
  have hothers : ∀ (rs : List BudgetReq) (live : Dict String BudgetReq), Keyed live →
      Keyed (rs.foldl setDefault live) := by
    intro rs
    induction rs with
    | nil => exact fun _ h => h
    | cons r rs ih => exact fun live h => ih _ (h.setDefault r)
  exact hothers _ _ (hrunning _ _ ⟨nodup_nil, nofun⟩)

theorem mem_liveRequests {e : PendingExtend} (he : e ∈ selected) :
    e.req.rid ∈ (liveRequests running parked selected).keys := by
  have hkeep : ∀ (rs : List BudgetReq) (live : Dict String BudgetReq) (k : String),
      (k ∈ live.keys ∨ ∃ r ∈ rs, k = r.rid) → k ∈ (rs.foldl setDefault live).keys := by
    intro rs
    induction rs with
    | nil =>
      rintro live k (h | ⟨r, hr, -⟩)
      · exact h
      · cases hr
    | cons r rs ih =>
      rintro live k (h | ⟨r', hr', hk⟩)
      · exact ih _ _ (inl (mem_keys_setDefault live r (inr h)))
      · cases hr' with
        | head => exact ih _ _ (inl (mem_keys_setDefault live r (inl hk)))
        | tail _ hr' => exact ih _ _ (inr ⟨r', hr', hk⟩)
  refine hkeep _ _ _ (inr ⟨e.req, mem_append_right _ ?_, rfl⟩)
  exact mem_map_of_mem he

theorem heaviest_mem {victim : BudgetReq} (hl : Keyed live) (h : heaviest live = some victim) :
    (victim.rid, victim) ∈ live := by
  have hmem : victim ∈ live.map Prod.snd := argmax_mem h
  obtain ⟨⟨k, r⟩, hkr, rfl⟩ := mem_map.1 hmem
  rw [hl.rid k r hkr]
  exact hkr

theorem heaviest_eq_none (h : heaviest live = none) :
    live = [] :=
  map_eq_nil_iff.1 (argmax_eq_none.1 h)

/-! ## Rounds of the loop -/

/-- The ids of the victims so far. -/
def BudgetState.gone (s : BudgetState) : List String := s.victims.map (·.rid)

/-- What every round of the loop keeps: who is gone is no longer live, what remains is what
    was selected of the others, and the slots of each victim count once. -/
structure BudgetInv (selected : List PendingExtend) (available : Nat) (s : BudgetState) :
    Prop where
  live : Keyed s.live
  nodup : s.gone.Nodup
  gone : ∀ rid ∈ s.gone, rid ∉ s.live.keys
  remaining : s.remaining = selected.filter fun e => !s.gone.contains e.req.rid
  covered : ∀ e ∈ selected, e.req.rid ∈ s.live.keys ∨ e.req.rid ∈ s.gone
  available : s.available = available + (s.victims.map realtimeKvCost).sum

theorem BudgetInv.start (available : Nat) (selected : List PendingExtend) :
    BudgetInv selected available ⟨liveRequests running parked selected, selected, available, []⟩ where
  live := keyed_liveRequests running parked selected
  nodup := nodup_nil
  gone _ h := absurd h not_mem_nil
  remaining := (filter_eq_self.2 fun _ _ => rfl).symm
  covered _ he := inl (mem_liveRequests running parked he)
  available := rfl

theorem BudgetInv.step {available : Nat} {s s' : BudgetState} (h : BudgetInv selected available s)
    (hn : s.next = some s') :
    BudgetInv selected available s' ∧ s'.live.length < s.live.length := by
  unfold BudgetState.next at hn
  split at hn
  · obtain ⟨victim, hvictim, rfl⟩ := map_eq_some_iff.1 hn
    have hmem := heaviest_mem h.live hvictim
    have hkey : victim.rid ∈ s.live.keys := Dict.mem_keys.2 ⟨victim, hmem⟩
    have hgone : ∀ rid, rid ∈ (s.victims ++ [victim]).map (·.rid) ↔ rid ∈ s.gone ∨ rid = victim.rid := by
      intro rid
      simp [BudgetState.gone]
    refine ⟨⟨h.live.pop _, ?_, ?_, ?_, ?_, ?_⟩, ?_⟩
    · show ((s.victims ++ [victim]).map (·.rid)).Nodup
      rw [map_append, map_singleton, nodup_append]
      refine ⟨h.nodup, nodup_singleton _, ?_⟩
      rintro rid hrid _ hv rfl
      rw [mem_singleton] at hv
      rw [hv] at hrid
      exact h.gone _ hrid hkey
    · intro rid hrid hl
      obtain ⟨r, hr⟩ := Dict.mem_keys.1 hl
      obtain ⟨hold, hne⟩ := Dict.mem_pop.1 hr
      rcases (hgone rid).1 hrid with hgone | heq
      · exact h.gone rid hgone (Dict.mem_keys.2 ⟨r, hold⟩)
      · exact hne heq
    · show s.remaining.filter _ = _
      rw [h.remaining, List.filter_filter]
      refine filter_congr fun e _ => ?_
      rw [Bool.eq_iff_iff]
      simp only [BudgetState.gone, Bool.and_eq_true, decide_eq_true_eq, Bool.not_eq_true',
        ← Bool.not_eq_true, contains_iff_mem, hgone, not_or]
      exact And.comm
    · intro e he
      rcases h.covered e he with hl | hold
      · by_cases heq : e.req.rid = victim.rid
        · exact inr ((hgone _).2 (inr heq))
        · obtain ⟨r, hr⟩ := Dict.mem_keys.1 hl
          exact inl (Dict.mem_keys.2 ⟨r, Dict.mem_pop.2 ⟨hr, heq⟩⟩)
      · exact inr ((hgone _).2 (inl hold))
    · show s.available + _ = _
      rw [h.available, map_append, sum_append, add_assoc]
      rfl
    · exact length_filter_lt_length_iff_exists.2 ⟨_, hmem, by simp⟩
  · cases hn

/-- Where the loop stops the extends that remain fit. -/
theorem BudgetInv.fits {available : Nat} (h : BudgetInv selected available s)
    (hn : s.next = none) : needed s.remaining ≤ s.available := by
  unfold BudgetState.next at hn
  split at hn
  · -- nobody is left, so every selected request is gone
    have hl : s.live = [] := heaviest_eq_none (map_eq_none_iff.1 hn)
    have hnone : s.remaining = [] := by
      rw [h.remaining, filter_eq_nil_iff]
      intro e he
      have hgone : e.req.rid ∈ s.gone := by
        rcases h.covered e he with hkey | hgone
        · rw [hl] at hkey
          cases hkey
        · exact hgone
      simp [hgone]
    rw [hnone]
    exact Nat.zero_le _
  · next hstop =>
    rcases not_and_or.1 hstop with hnone | hfits
    · rw [not_not.1 hnone]
      exact Nat.zero_le _
    · exact Nat.le_of_not_lt hfits

/-- With more rounds than live requests the loop ends, in a state where the rest fits. -/
theorem budgetLoop_spec {available fuel : Nat} (h : BudgetInv selected available s)
    (hfuel : s.live.length < fuel) :
    ∃ s', budgetLoop fuel s = some s'.victims ∧ BudgetInv selected available s' ∧
      needed s'.remaining ≤ s'.available := by
  induction fuel generalizing s with
  | zero => exact absurd hfuel (Nat.not_lt_zero _)
  | succ fuel ih =>
    unfold budgetLoop
    cases hn : s.next with
    | none => exact ⟨s, rfl, h, h.fits hn⟩
    | some s' =>
      obtain ⟨hs', hlt⟩ := h.step hn
      exact ih hs' (lt_of_lt_of_le hlt (Nat.le_of_lt_succ hfuel))

/-- More rounds do not change what the loop finds. -/
theorem budgetLoop_mono {fuel fuel' : Nat} {victims : List BudgetReq}
    (h : budgetLoop fuel s = some victims) (hle : fuel ≤ fuel') :
    budgetLoop fuel' s = some victims := by
  induction fuel generalizing s fuel' with
  | zero => cases h
  | succ fuel ih =>
    obtain ⟨more, rfl⟩ := Nat.exists_eq_succ_of_ne_zero (Nat.pos_iff_ne_zero.1
      (lt_of_lt_of_le (Nat.succ_pos fuel) hle))
    unfold budgetLoop at h ⊢
    cases hn : s.next with
    | none =>
      rw [hn] at h
      exact h
    | some s' =>
      rw [hn] at h
      exact ih h (Nat.le_of_succ_le_succ hle)

/-! ## The decision -/

/-- The loop ends after at most one round a live request. The victims are pairwise distinct
    and none is among the extends kept, and these fit into the slots that were available and
    those freed by the victims, if each frees what it is counted for. -/
theorem extend_budget_sound (running parked : List BudgetReq) (selected : List PendingExtend)
    (available : Nat) :
    ∃ decision, (∀ fuel, (liveRequests running parked selected).length < fuel →
        enforceExtendMemoryBudget fuel running parked (some available) selected =
          some decision) ∧
      (decision.victims.map (·.rid)).Nodup ∧
      (∀ e ∈ decision.kept, e.req.rid ∉ decision.victims.map (·.rid)) ∧
      ∀ freed : BudgetReq → Nat, (∀ r ∈ decision.victims, realtimeKvCost r ≤ freed r) →
        needed decision.kept ≤ available + (decision.victims.map freed).sum := by
  obtain ⟨s, hloop, hinv, hfits⟩ :=
    budgetLoop_spec (BudgetInv.start running parked available selected) (Nat.lt_succ_self _)
  refine ⟨⟨s.victims, s.gone.flatMap (giveUp (stagedByRid selected)),
    selected.filter fun e => !s.gone.contains e.req.rid⟩, ?_, hinv.nodup, ?_, ?_⟩
  · intro fuel hfuel
    show Option.map _ (budgetLoop fuel _) = _
    rw [budgetLoop_mono hloop hfuel]
    rfl
  · intro e he hgone
    have hkept := (mem_filter.1 he).2
    rw [Bool.not_eq_true', ← Bool.not_eq_true, contains_iff_mem] at hkept
    exact hkept hgone
  · intro freed hfreed
    show needed (selected.filter _) ≤ _
    rw [← hinv.remaining]
    calc
      needed s.remaining ≤ s.available := hfits
      _ = available + (s.victims.map realtimeKvCost).sum := hinv.available
      _ ≤ available + (s.victims.map freed).sum :=
        Nat.add_le_add_left (sum_le_sum hfreed) _

/-- Twelve slots for two extends of eight: the parked request, the heaviest, has to go. -/
theorem extend_budget_sound_one_victim :
    ∃ kept, (enforceExtendMemoryBudget 4 [⟨"a", some (5, 2), []⟩] [⟨"b", some (6, 6), []⟩]
        (some 12)
        [⟨⟨"a", some (5, 2), []⟩, [1, 2, 3, 4, 5, 6]⟩,
          ⟨⟨"c", some (1, 2), []⟩, [1, 2, 3, 4, 5, 6]⟩]).map (·.kept) = some kept ∧
      needed kept ≤ 12 + 12 := by
  obtain ⟨decision, hdecision, -, -, hfits⟩ := extend_budget_sound [⟨"a", some (5, 2), []⟩]
    [⟨"b", some (6, 6), []⟩]
    [⟨⟨"a", some (5, 2), []⟩, [1, 2, 3, 4, 5, 6]⟩, ⟨⟨"c", some (1, 2), []⟩, [1, 2, 3, 4, 5, 6]⟩] 12
  have hrun := hdecision 4 (by decide)
  have hvictims : decision.victims = [⟨"b", some (6, 6), []⟩] := by
    have hgiven : _ = some decision := hrun
    have := congrArg (Option.map (·.victims)) hgiven
    exact (some.inj this).symm
  have hdemand := hfits realtimeKvCost fun _ _ => le_rfl
  rw [hvictims] at hdemand
  exact ⟨decision.kept, congrArg (Option.map (·.kept)) hrun, hdemand⟩

end OmniRealtime
