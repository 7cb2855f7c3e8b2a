import OmniRealtime.Lib.Gather
import OmniRealtime.Pipeline.StageIntake

/-!
# Fan-in of several sources

`input.py`: `AggregatedInput`, which keeps the payloads of a request until its sources are
complete. The sources may be resolved by a function that is asked with each payload and may not
know them yet.

1. `runInput`: payloads and cancels of many requests, in any order.
2. `InputsHeld.receive`: what one payload of the request does; `collected_apart`: what the others
   do to it.
3. `fan_in_fires_once`: the payloads of a request are merged at the one that makes its sources
   known and complete, and not before.
-/

namespace OmniRealtime

open List Option Function StageIntake

universe u

open Gathering

/-! ## Runs -/

inductive InputEvent (δ : Type u)
  | receive (requestId fromStage : String) (data : δ)
  | cancel (requestId : String)

/-- The configuration of an `AggregatedInput`. -/
structure FanIn (δ : Type u) where
  sources : Finset String
  merge : Dict String δ → Option δ
  expectedSourcesFn : Option (String → String → δ → ExpectedSources)

open FanIn

/-- The handler, and what `receive` has returned or raised instead of waiting. -/
structure FanInRun (δ : Type u) where
  intake : StageIntake δ := {}
  outcomes : List (String × InputResult δ) := []

section Run

variable {δ : Type u} (f : FanIn δ)

def FanIn.handler : InputHandler δ := .aggregated f.sources f.merge f.expectedSourcesFn

/-- `cancel`. -/
def StageIntake.cancelInput (s : StageIntake δ) (requestId : String) : StageIntake δ :=
  (s.setPending requestId none).setExpectedSources requestId none

def FanInRun.record (r : FanInRun δ) (requestId : String)
    (received : StageIntake δ × InputResult δ) : FanInRun δ where
  intake := received.1
  outcomes :=
    match received.2 with
    | .waiting => r.outcomes
    | outcome => r.outcomes ++ [(requestId, outcome)]

def inputStep (r : FanInRun δ) : InputEvent δ → FanInRun δ
  | .receive requestId fromStage data =>
    r.record requestId (r.intake.receiveInput requestId fromStage data f.handler)
  | .cancel requestId => { r with intake := r.intake.cancelInput requestId }

def runInput (r : FanInRun δ) (events : List (InputEvent δ)) : FanInRun δ :=
  events.foldl (inputStep f) r

/-- The payloads of a request from a source of the handler, oldest first. -/
def payloadOf (id : String) : InputEvent δ → Option (String × δ)
  | .receive requestId fromStage data =>
    if requestId = id ∧ fromStage ∈ f.sources then some (fromStage, data) else none
  | .cancel _ => none

def payloadsOf (id : String) (events : List (InputEvent δ)) : List (String × δ) :=
  events.filterMap (payloadOf f id)

/-- What became of the payloads of a request. -/
def outcomesOf (r : FanInRun δ) (id : String) : List (InputResult δ) :=
  (r.outcomes.filter fun o => o.1 = id).map Prod.snd

/-- The merge of a complete set. -/
def FanIn.outcome (inputs : Dict String δ) : InputResult δ :=
  match f.merge inputs with
  | some payload => .merged payload
  | none => .raises

/-- The sources of a request are `expected`: all there are, or what the function answers whenever
    it answers. -/
def FanIn.Expects (id : String) (expected : Finset String) (payload : String × δ) : Prop :=
  match f.expectedSourcesFn with
  | none => f.sources = expected
  | some resolve => resolve id payload.1 payload.2 = .undecided ∨
      ∃ names, resolve id payload.1 payload.2 = .sources names ∧
        StageIntake.normalizeExpectedSources f.sources names = some expected

/-- The sources are known after these payloads. -/
def FanIn.Known (id : String) (payloads : List (String × δ)) : Prop :=
  match f.expectedSourcesFn with
  | none => True
  | some resolve => ∃ payload ∈ payloads, resolve id payload.1 payload.2 ≠ .undecided

/-- The sources are known and complete. -/
def FanIn.Ready (id : String) (expected : Finset String) (payloads : List (String × δ)) : Prop :=
  Covers expected (payloads.map Prod.fst) ∧ f.Known id payloads

end Run

/-! ## One request -/

section Request

variable {δ : Type u} {f : FanIn δ} {id : String} {expected : Finset String}
  {s t : StageIntake δ} {payloads : List (String × δ)}

/-- The state of a request whose payloads are not complete. -/
structure InputsHeld (f : FanIn δ) (id : String) (expected : Finset String) (s : StageIntake δ)
    (payloads : List (String × δ)) : Prop where
  pending : s.pending id = if payloads = [] then none else some (gathered payloads)
  sources : s.expectedSources id = none ∧ (f.expectedSourcesFn = none ∨ ¬f.Known id payloads) ∨
    s.expectedSources id = some expected ∧ f.expectedSourcesFn.isSome ∧ f.Known id payloads

/-- No state of the request. -/
def Forgotten (id : String) (s : StageIntake δ) : Prop :=
  s.pending id = none ∧ s.expectedSources id = none

section

variable (s : StageIntake δ) {id' : String}

theorem forgotten_cancelInput (id : String) :
    Forgotten id (s.cancelInput id) := ⟨update_self .., update_self ..⟩

section

variable (hne : id ≠ id')
include hne

theorem cancelInput_apart : (s.cancelInput id').pending id = s.pending id ∧
      (s.cancelInput id').expectedSources id = s.expectedSources id :=
  ⟨update_of_ne hne .., update_of_ne hne ..⟩

theorem setPending_apart (inputs : Option (Dict String δ)) : (s.setPending id' inputs).pending id =
    s.pending id :=
  update_of_ne hne ..

theorem setExpectedSources_apart (names : Option (Finset String)) :
    (s.setExpectedSources id' names).expectedSources id = s.expectedSources id :=
  update_of_ne hne ..

theorem receiveInput_apart (fromStage : String) (data : δ) :
    (s.receiveInput id' fromStage data f.handler).1.pending id = s.pending id ∧
      (s.receiveInput id' fromStage data f.handler).1.expectedSources id =
        s.expectedSources id := by
  have hpending := fun (s : StageIntake δ) => setPending_apart s hne
  have hsources := fun (s : StageIntake δ) => setExpectedSources_apart s hne
  have hset : ∀ s : StageIntake δ, ∀ expected, (if f.expectedSourcesFn.isSome then
      s.setExpectedSources id' (some expected) else s).pending id = s.pending id ∧
      (if f.expectedSourcesFn.isSome then
        s.setExpectedSources id' (some expected) else s).expectedSources id =
          s.expectedSources id := by
    intro s expected
    split
    · exact ⟨rfl, hsources s _⟩
    · exact ⟨rfl, rfl⟩
  dsimp only [receiveInput, handler]
  split
  · exact ⟨rfl, rfl⟩
  split
  · exact ⟨hpending s _, rfl⟩
  · exact ⟨hpending s _, rfl⟩
  next expected _ =>
  obtain ⟨hp, hs⟩ := hset (s.setPending id' (some (((s.pending id').getD []).set fromStage data)))
    expected
  split
  · exact ⟨hp.trans (hpending s _), hs⟩
  split
  · split
    · exact ⟨(hpending _ _).trans (hp.trans (hpending s _)), (hsources _ _).trans hs⟩
    · exact ⟨(hpending _ _).trans (hp.trans (hpending s _)), (hsources _ _).trans hs⟩
  · exact ⟨hp.trans (hpending s _), hs⟩

end

end

theorem InputsHeld.apart (h : InputsHeld f id expected s payloads)
    (hpending : t.pending id = s.pending id)
    (hsources : t.expectedSources id = s.expectedSources id) :
    InputsHeld f id expected t payloads :=
  ⟨hpending.trans h.pending, by rw [hsources]; exact h.sources⟩

theorem collected_nil (h : Forgotten id s) : InputsHeld f id expected s [] := by
  refine ⟨h.1, .inl ⟨h.2, ?_⟩⟩
  cases hfn : f.expectedSourcesFn with
  | none => exact .inl rfl
  | some resolve =>
    refine .inr fun hknown => ?_
    unfold Known at hknown
    rw [hfn] at hknown
    obtain ⟨payload, hmem, -⟩ := hknown
    exact absurd hmem not_mem_nil

theorem FanIn.Known.append (h : f.Known id payloads) (more : List (String × δ)) :
    f.Known id (payloads ++ more) := by
  unfold Known at h ⊢
  cases hfn : f.expectedSourcesFn with
  | none => trivial
  | some resolve =>
    rw [hfn] at h
    obtain ⟨payload, hmem, hknown⟩ := h
    exact ⟨payload, mem_append_left more hmem, hknown⟩

theorem FanIn.Ready.append (h : f.Ready id expected payloads) (more : List (String × δ)) :
    f.Ready id expected (payloads ++ more) := by
  refine ⟨?_, h.2.append more⟩
  rw [map_append]
  exact h.1.append _

/-- The sources with one more payload: known, and then as expected, or still undecided. -/
theorem InputsHeld.resolve (h : InputsHeld f id expected s payloads) {fromStage : String} {data : δ}
    (he : f.Expects id expected (fromStage, data)) :
    f.Known id (payloads ++ [(fromStage, data)]) ∧
        s.resolveSources id fromStage data f.sources f.expectedSourcesFn = some (some expected) ∨
      ¬f.Known id (payloads ++ [(fromStage, data)]) ∧ f.expectedSourcesFn.isSome ∧
        s.expectedSources id = none ∧
        s.resolveSources id fromStage data f.sources f.expectedSourcesFn = some none := by
  have hsources := h.sources
  unfold Expects at he
  unfold Known at hsources ⊢
  unfold resolveSources
  cases hfn : f.expectedSourcesFn with
  | none =>
    rw [hfn] at hsources he
    obtain ⟨hnone, -⟩ | ⟨-, hsome, -⟩ := hsources
    · rw [hnone]
      dsimp only at he ⊢
      rw [he]
      exact .inl ⟨trivial, rfl⟩
    · cases hsome
  | some resolve =>
    rw [hfn] at hsources he
    dsimp only at hsources he ⊢
    obtain ⟨hnone, hunknown⟩ | ⟨hsome, -, payload, hmem, hknown⟩ := hsources
    · rw [hnone]
      dsimp only
      obtain hundecided | ⟨names, hnms, hnormalize⟩ := he
      · rw [hundecided]
        refine .inr ⟨?_, rfl, rfl, rfl⟩
        rintro ⟨payload, hmem, hknown⟩
        obtain hmem | hmem := mem_append.1 hmem
        · obtain hno | hno := hunknown
          · cases hno
          · exact hno ⟨payload, hmem, hknown⟩
        · rw [mem_singleton.1 hmem] at hknown
          exact hknown hundecided
      · rw [hnms]
        dsimp only
        rw [hnormalize]
        refine .inl ⟨⟨_, mem_append_right _ (mem_singleton.2 rfl), ?_⟩, rfl⟩
        rw [hnms]
        simp
    · rw [hsome]
      exact .inl ⟨⟨payload, mem_append_left _ hmem, hknown⟩, rfl⟩

theorem resolveSources_congr (h : t.expectedSources id = s.expectedSources id) (fromStage : String)
    (data : δ) : t.resolveSources id fromStage data f.sources f.expectedSourcesFn =
      s.resolveSources id fromStage data f.sources f.expectedSourcesFn := by
  unfold resolveSources
  rw [h]

theorem InputsHeld.inputs (h : InputsHeld f id expected s payloads) (payload : String × δ) :
    ((s.pending id).getD []).set payload.1 payload.2 = gathered (payloads ++ [payload]) := by
  rw [gathered_concat, h.pending]
  split
  · next hnil =>
    rw [hnil]
    rfl
  · rfl

/-- One payload of the request: it waits until the sources are known and complete. -/
theorem InputsHeld.receive (h : InputsHeld f id expected s payloads) {payload : String × δ}
    (hsrc : payload.1 ∈ f.sources) (he : f.Expects id expected payload)
    (hin : ∀ p ∈ payloads ++ [payload], p.1 ∈ expected) :
    ¬f.Ready id expected (payloads ++ [payload]) ∧
        (s.receiveInput id payload.1 payload.2 f.handler).2 = .waiting ∧
        InputsHeld f id expected (s.receiveInput id payload.1 payload.2 f.handler).1
          (payloads ++ [payload]) ∨
      f.Ready id expected (payloads ++ [payload]) ∧
        (s.receiveInput id payload.1 payload.2 f.handler).2 =
          f.outcome (gathered (payloads ++ [payload])) ∧
        Forgotten id (s.receiveInput id payload.1 payload.2 f.handler).1 := by
  have hne : payloads ++ [payload] ≠ [] := by simp
  have hkeys : (gathered (payloads ++ [payload])).keys.toFinset ⊆ expected := by
    rw [toFinset_keys_gathered]
    intro k hk
    obtain ⟨p, hp, rfl⟩ := mem_map.1 (List.mem_toFinset.1 hk)
    exact hin p hp
  have hcovers : (gathered (payloads ++ [payload])).keys.toFinset = expected ↔
      Covers expected ((payloads ++ [payload]).map Prod.fst) := by
    rw [toFinset_keys_gathered] at hkeys ⊢
    constructor
    · intro heq
      exact ⟨by simp, fun k hk => List.mem_toFinset.1 (heq ▸ hk)⟩
    · intro hcovers
      exact hkeys.antisymm fun k hk => List.mem_toFinset.2 (hcovers.2 k hk)
  dsimp only [receiveInput, handler]
  have hsame : (s.setPending id (some (gathered (payloads ++ [payload])))).resolveSources id
      payload.1 payload.2 f.sources f.expectedSourcesFn =
        s.resolveSources id payload.1 payload.2 f.sources f.expectedSourcesFn :=
    resolveSources_congr rfl payload.1 payload.2
  rw [if_neg (not_not.2 hsrc), h.inputs payload, hsame]
  obtain ⟨hknown, hresolve⟩ | ⟨hunknown, hdynamic, hnone, hresolve⟩ := h.resolve he
  · rw [hresolve]
    dsimp only
    rw [if_neg (not_not.2 hkeys)]
    by_cases hcomplete : Covers expected ((payloads ++ [payload]).map Prod.fst)
    · rw [if_pos (hcovers.2 hcomplete)]
      refine .inr ⟨⟨hcomplete, hknown⟩, ?_⟩
      unfold outcome
      cases f.merge (gathered (payloads ++ [payload])) with
      | none | some merged => exact ⟨rfl, forgotten_cancelInput _ id⟩
    · rw [if_neg (fun heq => hcomplete (hcovers.1 heq))]
      refine .inl ⟨fun hready => hcomplete hready.1, rfl, ?_⟩
      cases hfn : f.expectedSourcesFn with
      | none =>
        refine ⟨?_, .inl ⟨?_, .inl hfn⟩⟩
        · rw [if_neg hne]
          exact update_self ..
        · obtain ⟨hnone, -⟩ | ⟨-, hsome, -⟩ := h.sources
          · exact hnone
          · rw [hfn] at hsome
            cases hsome
      | some resolve =>
        refine ⟨?_, .inr ⟨update_self .., by rw [hfn]; rfl, hknown⟩⟩
        rw [if_neg hne]
        exact update_self ..
  · rw [hresolve]
    refine .inl ⟨fun hready => hunknown hready.2, rfl, ?_, .inl ⟨hnone, .inr hunknown⟩⟩
    rw [if_neg hne]
    exact update_self ..

end Request

/-! ## Many requests -/

section Runs

variable {δ : Type u} {f : FanIn δ} {id : String} {expected : Finset String} {e : InputEvent δ}
  (r : FanInRun δ)

theorem runInput_concat (events : List (InputEvent δ)) (e : InputEvent δ) :
    runInput f r (events ++ [e]) = inputStep f (runInput f r events) e := by
  unfold runInput
  rw [foldl_append]
  rfl

theorem payloadsOf_concat (events : List (InputEvent δ)) (e : InputEvent δ) :
    payloadsOf f id (events ++ [e]) = payloadsOf f id events ++ (payloadOf f id e).toList := by
  unfold payloadsOf
  rw [filterMap_append, filterMap_cons]
  cases payloadOf f id e with
  | none => rfl
  | some payload => rfl

theorem outcomesOf_record_apart {id' : String} (hne : id' ≠ id)
    (received : StageIntake δ × InputResult δ) :
    outcomesOf (r.record id' received) id = outcomesOf r id := by
  unfold FanInRun.record outcomesOf
  split
  · rfl
  · rw [filter_append, filter_singleton]
    simp [hne]

theorem outcomesOf_record (received : StageIntake δ × InputResult δ) :
    outcomesOf (r.record id received) id = outcomesOf r id ++ match received.2 with
        | .waiting => []
        | outcome => [outcome] := by
  unfold FanInRun.record outcomesOf
  cases received.2 with
  | waiting => exact (append_nil _).symm
  | raises => simp
  | merged payload => simp

theorem inputStep_apart (hpay : payloadOf f id e = none) (hcancel : e ≠ .cancel id) :
    (inputStep f r e).intake.pending id = r.intake.pending id ∧
      (inputStep f r e).intake.expectedSources id = r.intake.expectedSources id ∧
      outcomesOf (inputStep f r e) id = outcomesOf r id := by
  cases e with
  | cancel id' =>
    have hne : id ≠ id' := fun heq => hcancel (heq ▸ rfl)
    obtain ⟨hpending, hsources⟩ := cancelInput_apart r.intake hne
    exact ⟨hpending, hsources, rfl⟩
  | receive id' fromStage data =>
    by_cases heq : id' = id
    · subst heq
      have hsrc : fromStage ∉ f.sources := fun hsrc => by
        have hsome : payloadOf f id' (.receive id' fromStage data) = some (fromStage, data) :=
          if_pos ⟨rfl, hsrc⟩
        rw [hsome] at hpay
        cases hpay
      have hreceive : r.intake.receiveInput id' fromStage data f.handler =
          (r.intake, .waiting) := if_pos hsrc
      have hst : inputStep f r (.receive id' fromStage data) = r.record id' (r.intake, .waiting) :=
        congrArg (r.record id') hreceive
      rw [hst]
      exact ⟨rfl, rfl, rfl⟩
    · have hne : id ≠ id' := fun h => heq h.symm
      obtain ⟨hpending, hsources⟩ := receiveInput_apart (f := f) r.intake hne fromStage data
      refine ⟨hpending, hsources, outcomesOf_record_apart r heq _⟩

/-- A run in which the request is not cancelled and its payloads are of the sources it waits for. -/
structure Feeds (f : FanIn δ) (id : String) (expected : Finset String)
    (events : List (InputEvent δ)) : Prop where
  uncancelled : .cancel id ∉ events
  within : ∀ p ∈ payloadsOf f id events, p.1 ∈ expected
  expects : ∀ p ∈ payloadsOf f id events, f.Expects id expected p

variable {events : List (InputEvent δ)}

theorem Feeds.left (h : Feeds f id expected (events ++ [e])) : Feeds f id expected events := by
  have hsub : ∀ p ∈ payloadsOf f id events, p ∈ payloadsOf f id (events ++ [e]) := fun p hp => by
    rw [payloadsOf_concat]
    exact mem_append_left _ hp
  exact ⟨fun hmem => h.uncancelled (mem_append_left _ hmem), fun p hp => h.within p (hsub p hp),
    fun p hp => h.expects p (hsub p hp)⟩

theorem payloadOf_eq_some {payload : String × δ} (h : payloadOf f id e = some payload) :
    payload.1 ∈ f.sources ∧ e = .receive id payload.1 payload.2 := by
  cases e with
  | cancel id' => cases h
  | receive id' fromStage data =>
    obtain ⟨⟨rfl, hsrc⟩, ⟨⟩⟩ := of_guard h
    exact ⟨hsrc, rfl⟩

theorem Feeds.within_last (h : Feeds f id expected (events ++ [e])) {payload : String × δ}
    (hpay : payloadOf f id e = some payload) :
    ∀ p ∈ payloadsOf f id events ++ [payload], p.1 ∈ expected := by
  have hwithin := h.within
  rw [payloadsOf_concat, hpay] at hwithin
  exact hwithin

theorem Feeds.expects_last (h : Feeds f id expected (events ++ [e])) {payload : String × δ}
    (hpay : payloadOf f id e = some payload) : f.Expects id expected payload := by
  have he := h.expects
  rw [payloadsOf_concat, hpay] at he
  exact he payload (mem_append_right _ (mem_singleton.2 rfl))

/-- Until the sources are known and complete the payloads are collected. -/
theorem collected_run {r : FanInRun δ} (hclean : Forgotten id r.intake)
    (hfeeds : Feeds f id expected events) (hready : ¬f.Ready id expected (payloadsOf f id events)) :
    InputsHeld f id expected (runInput f r events).intake (payloadsOf f id events) ∧
      outcomesOf (runInput f r events) id = outcomesOf r id := by
  induction events using List.reverseRecOn with
  | nil => exact ⟨collected_nil hclean, rfl⟩
  | append_singleton events e ih =>
    have hbefore : ¬f.Ready id expected (payloadsOf f id events) := fun h => by
      rw [payloadsOf_concat] at hready
      exact hready (h.append _)
    obtain ⟨hcollected, houtcomes⟩ := ih hfeeds.left hbefore
    rw [runInput_concat]
    cases hpay : payloadOf f id e with
    | none =>
      have hcancel : e ≠ .cancel id := fun heq => hfeeds.uncancelled (heq ▸ by simp)
      obtain ⟨hpending, hsources, hsame⟩ := inputStep_apart (runInput f r events) hpay hcancel
      rw [payloadsOf_concat, hpay]
      refine ⟨?_, hsame.trans houtcomes⟩
      rw [toList_none, append_nil]
      exact hcollected.apart hpending hsources
    | some payload =>
      obtain ⟨hsrc, rfl⟩ := payloadOf_eq_some hpay
      rw [payloadsOf_concat, hpay] at hready
      obtain ⟨-, hwaiting, hnext⟩ | ⟨hcomplete, -⟩ := hcollected.receive hsrc
        (hfeeds.expects_last hpay) (hfeeds.within_last hpay)
      · rw [payloadsOf_concat, hpay]
        refine ⟨hnext, ?_⟩
        show outcomesOf (FanInRun.record _ id _) id = _
        rw [outcomesOf_record, hwaiting, append_nil]
        exact houtcomes
      · exact absurd hcomplete hready

/-- The payload that makes the sources known and complete. -/
theorem fires_run {r : FanInRun δ} (hclean : Forgotten id r.intake)
    (hfeeds : Feeds f id expected events) {before : List (String × δ)} {payload : String × δ}
    (hpayloads : payloadsOf f id events = before ++ [payload])
    (hbefore : ¬f.Ready id expected before) (hready : f.Ready id expected (before ++ [payload])) :
    outcomesOf (runInput f r events) id =
        outcomesOf r id ++ [f.outcome (gathered (before ++ [payload]))] ∧
      Forgotten id (runInput f r events).intake := by
  induction events using List.reverseRecOn with
  | nil => simp [payloadsOf] at hpayloads
  | append_singleton events e ih =>
    rw [runInput_concat]
    rw [payloadsOf_concat] at hpayloads
    cases hpay : payloadOf f id e with
    | none =>
      rw [hpay, toList_none, append_nil] at hpayloads
      obtain ⟨houtcomes, hforgotten⟩ := ih hfeeds.left hpayloads
      have hcancel : e ≠ .cancel id := fun heq => hfeeds.uncancelled (heq ▸ by simp)
      obtain ⟨hpending, hsources, hsame⟩ := inputStep_apart (runInput f r events) hpay hcancel
      exact ⟨hsame.trans houtcomes, hpending.trans hforgotten.1, hsources.trans hforgotten.2⟩
    | some last =>
      have hwithin := hfeeds.within_last hpay
      have he := hfeeds.expects_last hpay
      rw [hpay, toList_some] at hpayloads
      obtain ⟨rfl, heq⟩ := append_inj' hpayloads rfl
      obtain rfl := singleton_inj.1 heq
      obtain ⟨hsrc, rfl⟩ := payloadOf_eq_some hpay
      obtain ⟨hcollected, houtcomes⟩ := collected_run hclean hfeeds.left hbefore
      obtain ⟨hnot, -⟩ | ⟨-, hfired, hforgotten⟩ := hcollected.receive hsrc he hwithin
      · exact absurd hready hnot
      · refine ⟨?_, hforgotten⟩
        show outcomesOf (FanInRun.record _ id _) id = _
        rw [outcomesOf_record, hfired, houtcomes]
        unfold outcome
        cases f.merge (gathered (payloadsOf f id events ++ [last])) with
        | none => rfl
        | some merged => rfl

/-- Without payloads of the request no state of it comes up. -/
theorem forgotten_run {r : FanInRun δ} (hclean : Forgotten id r.intake)
    (hnone : payloadsOf f id events = []) :
    Forgotten id (runInput f r events).intake := by
  induction events using List.reverseRecOn with
  | nil => exact hclean
  | append_singleton events e ih =>
    rw [payloadsOf_concat, append_eq_nil_iff] at hnone
    have hforgotten := ih hnone.1
    rw [runInput_concat]
    have hpay : payloadOf f id e = none := by
      cases hpay : payloadOf f id e with
      | none => rfl
      | some payload =>
        rw [hpay] at hnone
        cases hnone.2
    by_cases hcancel : e = .cancel id
    · rw [hcancel]
      exact forgotten_cancelInput _ id
    · obtain ⟨hpending, hsources, -⟩ := inputStep_apart (runInput f r events) hpay hcancel
      exact ⟨hpending.trans hforgotten.1, hsources.trans hforgotten.2⟩

/-- Whatever arrives for other requests in between, the payloads of a request wait until its
    sources are known and complete, are merged then, each source with its last payload, and leave
    no state; nor does a cancel. -/
theorem fan_in_fires_once {δ : Type u} (f : FanIn δ) {id : String} {expected : Finset String}
    {r : FanInRun δ} (hclean : Forgotten id r.intake) {events : List (InputEvent δ)}
    (hfeeds : Feeds f id expected events) :
    (¬f.Ready id expected (payloadsOf f id events) →
      outcomesOf (runInput f r events) id = outcomesOf r id ∧
        (runInput f r events).intake.pending id = if payloadsOf f id events = [] then none
          else some (gathered (payloadsOf f id events))) ∧
    (∀ before payload, payloadsOf f id events = before ++ [payload] →
      ¬f.Ready id expected before → f.Ready id expected (before ++ [payload]) →
        ∃ inputs : Dict String δ,
          outcomesOf (runInput f r events) id = outcomesOf r id ++ [f.outcome inputs] ∧
            inputs.keys.Nodup ∧ inputs.keys.toFinset = expected ∧
            (∀ k ∈ expected, inputs.get k = lastFrom (before ++ [payload]) k) ∧
            Forgotten id (runInput f r events).intake) ∧
    ∀ others, payloadsOf f id others = [] →
      Forgotten id (runInput f r (events ++ .cancel id :: others)).intake := by
  refine ⟨fun hready => ?_, fun before payload hpayloads hbefore hready => ?_, fun others hnone => ?_⟩
  · obtain ⟨hcollected, houtcomes⟩ := collected_run hclean hfeeds hready
    exact ⟨houtcomes, hcollected.pending⟩
  · obtain ⟨houtcomes, hforgotten⟩ := fires_run hclean hfeeds hpayloads hbefore hready
    refine ⟨_, houtcomes, nodup_gathered _, ?_, fun k _ => get_gathered _ k, hforgotten⟩
    have hwithin := hfeeds.within
    rw [hpayloads] at hwithin
    rw [toFinset_keys_gathered]
    ext k
    rw [List.mem_toFinset]
    refine ⟨fun hk => ?_, hready.1.2 k⟩
    obtain ⟨p, hp, rfl⟩ := mem_map.1 hk
    exact hwithin p hp
  · have hsplit : runInput f r (events ++ .cancel id :: others) =
        runInput f (inputStep f (runInput f r events) (.cancel id)) others := by
      unfold runInput
      rw [foldl_append, foldl_cons]
    rw [hsplit]
    exact forgotten_run (forgotten_cancelInput _ id) hnone

/-- Two sources, of which the first tells which payloads a request has. -/
def exFanIn : FanIn Nat where
  sources := {"text", "image"}
  merge := fun inputs => some ((inputs.get "text").getD 0 + (inputs.get "image").getD 0)
  expectedSourcesFn := some fun _ fromStage data =>
    if fromStage = "text" then if data = 0 then .sources ["text"] else .sources ["image", "text"]
    else .undecided

/-- The image arrives first, twice, and between it and the text a payload of another request. -/
def exInputs : List (InputEvent Nat) :=
  [.receive "r" "image" 1, .receive "q" "text" 0, .receive "r" "image" 2, .receive "r" "text" 5]

theorem fan_in_fires_once_interleaved : ∃ inputs : Dict String Nat,
    outcomesOf (runInput exFanIn {} exInputs) "r" = [exFanIn.outcome inputs] ∧
      inputs.get "image" = some 2 ∧ exFanIn.outcome inputs = .merged 7 ∧
      Forgotten "r" (runInput exFanIn {} exInputs).intake := by
  have hpayloads : payloadsOf exFanIn "r" exInputs =
    [("image", 1), ("image", 2)] ++ [("text", 5)] := rfl
  have hfeeds : Feeds exFanIn "r" {"image", "text"} exInputs := by
    refine ⟨fun hcancel => ?_, by decide, fun p hp => ?_⟩
    · simp [exInputs] at hcancel
    · rw [hpayloads] at hp
      simp only [mem_append, mem_cons, not_mem_nil, or_false] at hp
      obtain (rfl | rfl) | rfl := hp
      · exact .inl rfl
      · exact .inl rfl
      · exact .inr ⟨["image", "text"], rfl, by decide⟩
  have hnot : ¬exFanIn.Ready "r" {"image", "text"} [("image", 1), ("image", 2)] := fun h =>
    absurd (h.1.2 "text" (by decide)) (by decide)
  have hready : exFanIn.Ready "r" {"image", "text"}
      ([("image", 1), ("image", 2)] ++ [("text", 5)]) :=
    ⟨by decide, ("text", 5), by simp, nofun⟩
  have hclean : Forgotten "r" ({} : FanInRun Nat).intake := ⟨rfl, rfl⟩
  obtain ⟨inputs, houtcomes, -, -, hget, hforgotten⟩ :=
    (fan_in_fires_once exFanIn hclean hfeeds).2.1 _ _ hpayloads hnot hready
  have himage : inputs.get "image" = some 2 := hget "image" (by decide)
  have htext : inputs.get "text" = some 5 := hget "text" (by decide)
  refine ⟨inputs, houtcomes, himage, ?_, hforgotten⟩
  dsimp only [outcome, exFanIn]
  rw [himage, htext]
  rfl

/-- A payload that repeats a source after the merge starts the request anew: it is merged again
    where it is the only source, and is left behind where it is not. -/
theorem repeated_source_fires_again :
    outcomesOf (runInput exFanIn {} [.receive "r" "text" 0, .receive "r" "text" 0]) "r" =
        [.merged 0, .merged 0] ∧
      ¬Forgotten "r" (runInput exFanIn {}
        [.receive "r" "image" 1, .receive "r" "text" 5, .receive "r" "image" 1]).intake := by
  refine ⟨rfl, fun h => ?_⟩
  have hpending := h.1
  cases hpending

end Runs

end OmniRealtime
