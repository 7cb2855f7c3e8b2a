import OmniRealtime.Speech.ZonosDecode

/-!
# Decode state of ZONOS2 over its runs

The pool row of a request is a function of the frames it has, and so is what each step is given
for it, as long as it is prefilled once and keeps its row.

1. `ZonosInv.apply`: what a step keeps.
2. `zonos2_state_survives`: the runs without a prefill of a request that has frames, in which a
   decode step takes all running requests.
3. `zonos2_state_lost`: the others.
-/

namespace OmniRealtime

open List Option Function

open StatePool (PoolOk Grew Shrank)

section Runner

variable {E S : Type}

/-! ## What a step keeps -/

open ZonosState

variable {m : ZonosModel E S} {s : ZonosState E S} {d : ZonosRequest S} {p : StatePool (PoolRow E)}
  {chosen : List Nat} {i : Nat}

/-- The row of a running request is the function of its frames, and other rows are empty, or of a
    request that has frames. -/
structure ZonosInv (m : ZonosModel E S) (s : ZonosState E S) : Prop where
  pool : PoolOk m.resetRow s.pool
  distinct : ∀ (i j : Nat) (d e : ZonosRequest S), s.requests[i]? = some d → s.requests[j]? = some e →
    d.phase ≠ .ended → e.phase ≠ .ended → d.requestId = e.requestId → i = j
  live : ∀ (i : Nat) (d : ZonosRequest S), s.requests[i]? = some d → d.phase = .running →
    s.frames i ≠ [] ∧
      ∃ row, s.pool.rowOf d.requestId = some row ∧ s.pool.rows row = m.rowAfter (s.frames i)
  stale : ∀ rid row, s.pool.rowOf rid = some row → s.pool.rows row = m.resetRow ∨
    ∃ (i : Nat) (d : ZonosRequest S), s.requests[i]? = some d ∧ d.requestId = rid ∧
      d.phase ≠ .ended ∧ s.frames i ≠ []
  eos : ∀ (i : Nat) (d : ZonosRequest S), s.requests[i]? = some d → d.eosFrame = m.eosFrame d.outputCodes
  launched : ∀ front entries back, s.pending = front ++ entries :: back →
    (entries.map LaunchEntry.request).Nodup ∧ ∀ entry ∈ entries,
      ∃ d : ZonosRequest S, s.requests[entry.request]? = some d ∧ entry.eosFrame =
        m.eosFrame (d.outputCodes ++ launchedFrames front entry.request ++ [entry.codes])

section

variable (h : ZonosInv m s)
include h

theorem ZonosInv.repool (hp : PoolOk m.resetRow p)
    (hl : ∀ (i : Nat) (d : ZonosRequest S) (row : Nat), s.requests[i]? = some d → d.phase = .running →
      s.pool.rowOf d.requestId = some row →
      p.rowOf d.requestId = some row ∧ p.rows row = s.pool.rows row)
    (hnew : ∀ rid row, p.rowOf rid = some row → p.rows row = m.resetRow ∨
      s.pool.rowOf rid = some row ∧ p.rows row = s.pool.rows row) :
    ZonosInv m { s with pool := p } where
  pool := hp
  distinct := h.distinct
  live := by
    intro i d hi hph
    obtain ⟨hfms, row, hrow, heq⟩ := h.live i d hi hph
    obtain ⟨hrow', hsame⟩ := hl i d row hi hph hrow
    exact ⟨hfms, row, hrow', hsame.trans heq⟩
  stale := by
    intro rid row hrow
    rcases hnew rid row hrow with hreset | ⟨hold, hsame⟩
    · exact .inl hreset
    · rcases h.stale rid row hold with hreset | hh
      · exact .inl (hsame.trans hreset)
      · exact .inr hh
  eos := h.eos
  launched := h.launched

theorem ZonosInv.grew (hg : Grew m.resetRow s.pool p) : ZonosInv m { s with pool := p } := by
  refine h.repool hg.ok (fun i d row _ _ hrow => ⟨hg.kept _ row hrow, by rw [hg.rows]⟩) ?_
  intro rid row hrow
  rw [hg.rows]
  cases hold : s.pool.rowOf rid with
  | none => exact .inl (hg.fresh rid row hrow hold)
  | some row' =>
    obtain rfl : row' = row := some.inj ((hg.kept rid row' hold).symm.trans hrow)
    exact .inr ⟨rfl, rfl⟩

theorem ZonosInv.shrank {P : String → Prop}
    (hshrank : Shrank m.resetRow P s.pool p)
    (hl : ∀ (i : Nat) (d : ZonosRequest S), s.requests[i]? = some d → d.phase = .running →
      P d.requestId) : ZonosInv m { s with pool := p } := by
  refine h.repool hshrank.ok (fun i d row hi hph hrow => ?_) (fun rid row hrow => .inr ?_)
  · have hP := hl i d hi hph
    exact ⟨(hshrank.kept _ hP).trans hrow, hshrank.same _ row hP hrow⟩
  · by_cases hP : P rid
    · have hold := (hshrank.kept rid hP).symm.trans hrow
      exact ⟨hold, hshrank.same rid row hP hold⟩
    · exact absurd (hrow.symm.trans (hshrank.gone rid hP)) (some_ne_none row)

theorem ZonosInv.resolve (entries : List LaunchEntry) (rest : List (List LaunchEntry))
    (hpnd : s.pending = entries :: rest) :
    ZonosInv m { s with requests := collectResolve s.requests entries, pending := rest } := by
  obtain ⟨hn, hens⟩ := h.launched [] entries rest hpnd
  have hget : ∀ {i : Nat} {d' : ZonosRequest S},
      (collectResolve s.requests entries)[i]? = some d' → ∃ d, s.requests[i]? = some d ∧
        SameRequest d d' ∧ d' = (entries.filter (·.request = i)).foldl resolved d := by
    intro i d' hd'
    rw [getElem?_collectResolve] at hd'
    obtain ⟨d, hd, rfl⟩ := map_eq_some_iff.1 hd'
    exact ⟨d, hd, (foldl_resolved _ d).1, rfl⟩
  have hput : ∀ {i : Nat} {d : ZonosRequest S}, s.requests[i]? = some d →
      (collectResolve s.requests entries)[i]? =
        some ((entries.filter (·.request = i)).foldl resolved d) := by
    intro i d hd
    rw [getElem?_collectResolve, hd]
    rfl
  have hfms : ∀ i, ({ s with requests := collectResolve s.requests entries, pending := rest } :
      ZonosState E S).frames i = s.frames i := by
    intro i
    unfold ZonosState.frames
    rw [hpnd, launchedFrames_cons, getElem?_collectResolve]
    cases hi : s.requests[i]? with
    | none =>
      -- Nothing was launched for it.
      have hnone : i ∉ entries.map LaunchEntry.request := by
        intro hmem
        obtain ⟨entry, hent, rfl⟩ := mem_map.1 hmem
        obtain ⟨d, hd, -⟩ := hens entry hent
        exact absurd (hi.symm.trans hd) (some_ne_none d).symm
      rw [filter_of_not_mem hnone]
      rfl
    | some d =>
      dsimp only [map_some]
      rw [(foldl_resolved _ d).2, append_assoc]
  refine ⟨h.pool, ?_, ?_, ?_, ?_, ?_⟩
  · intro i j d e hi hj hd he hrid
    obtain ⟨d', hi', hsame, -⟩ := hget hi
    obtain ⟨e', hj', hsame', -⟩ := hget hj
    exact h.distinct i j d' e' hi' hj' (hsame.phase ▸ hd) (hsame'.phase ▸ he)
      (hsame.requestId.symm.trans (hrid.trans hsame'.requestId))
  · intro i d hi hph
    obtain ⟨d', hi', hsame, -⟩ := hget hi
    rw [hfms, hsame.requestId]
    exact h.live i d' hi' (hsame.phase ▸ hph)
  · intro rid row hrow
    rcases h.stale rid row hrow with hreset | ⟨i, d, hi, rfl, hph, hne⟩
    · exact .inl hreset
    · have hsame := (foldl_resolved (entries.filter (·.request = i)) d).1
      exact .inr ⟨i, _, hput hi, hsame.requestId, hsame.phase.symm ▸ hph, (hfms i).symm ▸ hne⟩
  · intro i d hi
    obtain ⟨d', hi', -, rfl⟩ := hget hi
    by_cases hmem : i ∈ entries.map LaunchEntry.request
    · obtain ⟨entry, hent, rfl⟩ := mem_map.1 hmem
      obtain ⟨d, hd, heos⟩ := hens entry hent
      obtain rfl : d' = d := some.inj (hi'.symm.trans hd)
      rw [filter_of_nodup hn hent]
      simpa [resolved, launchedFrames] using heos
    · rw [filter_of_not_mem hmem]
      exact h.eos i d' hi'
  · intro front es back hspl
    have hspl' : s.pending = (entries :: front) ++ es :: back := by
      rw [hpnd, cons_append]
      exact congrArg _ hspl
    obtain ⟨hes, hrest⟩ := h.launched (entries :: front) es back hspl'
    refine ⟨hes, fun entry hent => ?_⟩
    obtain ⟨d, hd, heos⟩ := hrest entry hent
    refine ⟨_, hput hd, ?_⟩
    rw [heos, (foldl_resolved _ d).2, launchedFrames_cons]
    simp only [append_assoc]

end

/-! ### Launches -/

theorem launchedFrames_snoc (front : List (List LaunchEntry)) (entries : List LaunchEntry)
    (i : Nat) :
    launchedFrames (front ++ [entries]) i =
      launchedFrames front i ++ (entries.filter (·.request = i)).map LaunchEntry.codes := by
  rw [launchedFrames_append, launchedFrames_cons]
  exact congrArg _ (append_nil _)

theorem of_setPhase {requests : List (ZonosRequest S)} {phase : ZonosPhase} {d' : ZonosRequest S}
    (h : (setPhase requests chosen phase)[i]? = some d') :
    ∃ d, requests[i]? = some d ∧ d' = if i ∈ chosen then { d with phase := phase } else d := by
  rw [getElem?_setPhase] at h
  obtain ⟨d, hd, rfl⟩ := map_eq_some_iff.1 h
  exact ⟨d, hd, rfl⟩

theorem frames_setPhase (s : ZonosState E S) (chosen : List Nat) (phase : ZonosPhase) (i : Nat)
    (p : StatePool (PoolRow E)) (pending : List (List LaunchEntry)) :
    ({ requests := setPhase s.requests chosen phase, pool := p, pending := pending } :
      ZonosState E S).frames i =
      ({ s with pending := pending } : ZonosState E S).frames i := by
  unfold ZonosState.frames
  rw [getElem?_setPhase]
  cases s.requests[i]? with
  | none => rfl
  | some d =>
    dsimp only [map_some]
    split <;> rfl

theorem ZonosInv.row_eq (h : ZonosInv m s) {i row : Nat} (hi : s.requests[i]? = some d)
    (hd : d.phase ≠ .ended) (hrdy : d.phase = .running ∨ s.frames i = [])
    (hrow : s.pool.rowOf d.requestId = some row) : s.pool.rows row = m.rowAfter (s.frames i) := by
  rcases hrdy with hr | hemp
  · obtain ⟨-, row', hrow', heq⟩ := h.live i d hi hr
    obtain rfl : row' = row := some.inj (hrow'.symm.trans hrow)
    exact heq
  · rcases h.stale _ _ hrow with hreset | ⟨j, e, he, hrid, hl, hne⟩
    · rw [hemp]
      exact hreset
    · obtain rfl : j = i := h.distinct j i e d he hi hl hd hrid
      exact absurd hemp hne

theorem ZonosInv.launch (h : ZonosInv m s) {batch : List BatchItem}
    (hn : (batch.map BatchItem.request).Nodup)
    (hb : ∀ it ∈ batch, ∃ d, s.requests[it.request]? = some d ∧ d.phase ≠ .ended ∧
      (d.phase = .running ∨ s.frames it.request = []))
    {p' : StatePool (PoolRow E)} {entries : List LaunchEntry}
    (hlaunch : collectLaunch m (s.ids batch) s.pool batch = (p', some entries)) :
    ZonosInv m { requests := setPhase s.requests (batch.map BatchItem.request) .running
                 pool := p', pending := s.pending ++ [entries] } := by
  have hid : ∀ {it : BatchItem} {d : ZonosRequest S}, s.requests[it.request]? = some d →
      s.requestId it = d.requestId := by
    intro it d hd
    rw [ZonosState.requestId, hd]
  have hids : (batch.map s.requestId).Nodup := by
    refine List.Nodup.map_on ?_ (List.Nodup.of_map BatchItem.request hn)
    intro it hit it' hit' heq
    obtain ⟨d, hd, hl, -⟩ := hb it hit
    obtain ⟨d', hd', hl', -⟩ := hb it' hit'
    rw [hid hd, hid hd'] at heq
    exact inj_on_of_nodup_map hn hit hit' (h.distinct _ _ d d' hd hd' hl hl' heq)
  obtain ⟨q, hg, hok, -, hh, hothers, row, hrow, hens⟩ :=
    collectLaunch_spec h.pool hids hlaunch
  have hq := h.grew hg
  set s' : ZonosState E S :=
    { requests := setPhase s.requests (batch.map BatchItem.request) .running
      pool := p', pending := s.pending ++ [entries] } with hs'
  have hrequests : entries.map LaunchEntry.request = batch.map BatchItem.request := by
    rw [hens, List.map_map]
    rfl
  have hfms : ∀ i, s'.frames i =
      s.frames i ++ (entries.filter (·.request = i)).map LaunchEntry.codes := by
    intro i
    rw [hs', frames_setPhase, ZonosState.frames, launchedFrames_snoc, ← append_assoc]
    rfl
  have hsame : ∀ i, i ∉ batch.map BatchItem.request → s'.frames i = s.frames i := by
    intro i hi
    rw [hfms, filter_of_not_mem (hrequests ▸ hi)]
    exact append_nil _
  have hnext : ∀ it ∈ batch, s'.frames it.request = s.frames it.request ++ [it.codes] := by
    intro it hit
    have hfilter := filter_of_nodup hn hit
    rw [hfms, hens, List.filter_map, List.map_map]
    exact congrArg _ (congrArg (List.map _) hfilter)
  -- The row of a request before the launch is that of its frames.
  have hbef : ∀ it ∈ batch, q.rows (row it) = m.rowAfter (s.frames it.request) := by
    intro it hit
    obtain ⟨d, hd, hl, hrdy⟩ := hb it hit
    exact hq.row_eq hd hl hrdy (hid hd ▸ (hrow it hit).1)
  have hafter : ∀ it ∈ batch, p'.rows (row it) = m.rowAfter (s'.frames it.request) := by
    intro it hit
    rw [(hrow it hit).2, hbef it hit, hnext it hit, ZonosModel.rowAfter_snoc]
  -- A live request that is not in the batch has another id.
  have hout : ∀ (i : Nat) (d : ZonosRequest S), s.requests[i]? = some d → d.phase ≠ .ended →
      i ∉ batch.map BatchItem.request → d.requestId ∉ batch.map s.requestId := by
    intro i d hd hl hi hmem
    obtain ⟨it, hit, heq⟩ := mem_map.1 hmem
    obtain ⟨e, he, helive, -⟩ := hb it hit
    have := h.distinct it.request i e d he hd helive hl ((hid he).symm.trans heq)
    exact hi (this ▸ mem_map_of_mem hit)
  have hl : ∀ {i : Nat} {d : ZonosRequest S}, s.requests[i]? = some d →
      (if i ∈ batch.map BatchItem.request then { d with phase := .running } else d).phase ≠ .ended →
      d.phase ≠ .ended := by
    intro i d hd hph
    by_cases hi : i ∈ batch.map BatchItem.request
    · obtain ⟨it, hit, rfl⟩ := mem_map.1 hi
      obtain ⟨e, he, helive, -⟩ := hb it hit
      exact (some.inj (he.symm.trans hd)) ▸ helive
    · rwa [if_neg hi] at hph
  have hrid : ∀ (i : Nat) (d : ZonosRequest S),
      (if i ∈ batch.map BatchItem.request then { d with phase := .running } else d).requestId =
        d.requestId := by
    intro i d
    split <;> rfl
  refine ⟨hok, ?_, ?_, ?_, ?_, ?_⟩
  · intro i j d e hi hj hd he heq
    obtain ⟨d, hi', rfl⟩ := of_setPhase hi
    obtain ⟨e, hj', rfl⟩ := of_setPhase hj
    rw [hrid, hrid] at heq
    exact h.distinct i j d e hi' hj' (hl hi' hd) (hl hj' he) heq
  · intro i d hi hph
    obtain ⟨d, hi', rfl⟩ := of_setPhase hi
    rw [hrid]
    by_cases hmem : i ∈ batch.map BatchItem.request
    · obtain ⟨it, hit, rfl⟩ := mem_map.1 hmem
      refine ⟨by rw [hnext it hit]; simp, row it, ?_, hafter it hit⟩
      exact (hh _).trans (hid hi' ▸ (hrow it hit).1)
    · rw [if_neg hmem] at hph
      obtain ⟨hne, row', hrow', heq⟩ := hq.live i d hi' hph
      refine ⟨(hsame i hmem).symm ▸ hne, row', (hh _).trans hrow', ?_⟩
      have hr : d.phase ≠ .ended := by rw [hph]; simp
      rw [hsame i hmem, hothers _ row' (hout i d hi' hr hmem) hrow']
      exact heq
  · intro rid row' hrow'
    have hqrow := (hh rid).symm.trans hrow'
    by_cases hmem : rid ∈ batch.map s.requestId
    · obtain ⟨it, hit, rfl⟩ := mem_map.1 hmem
      obtain ⟨d, hd, -⟩ := hb it hit
      refine .inr ⟨it.request, { d with phase := .running }, ?_, (hid hd).symm, by simp, ?_⟩
      · show (setPhase _ _ _)[_]? = _
        rw [getElem?_setPhase, hd, map_some, if_pos (mem_map_of_mem hit)]
      · rw [hnext it hit]
        simp
    · rcases hq.stale rid row' hqrow with hreset | ⟨i, d, hi, rfl, hph, hne⟩
      · exact .inl ((hothers _ _ hmem hqrow).trans hreset)
      · have hnot : i ∉ batch.map BatchItem.request := by
          intro hmem'
          obtain ⟨it, hit, rfl⟩ := mem_map.1 hmem'
          exact hmem (hid hi ▸ mem_map_of_mem hit)
        refine .inr ⟨i, d, ?_, rfl, hph, (hsame i hnot).symm ▸ hne⟩
        show (setPhase _ _ _)[_]? = _
        rw [getElem?_setPhase, hi, map_some, if_neg hnot]
  · intro i d hi
    obtain ⟨d, hi', rfl⟩ := of_setPhase hi
    have heos := h.eos i d hi'
    split
    · exact heos
    · exact heos
  · intro front es back hspl
    have hput : ∀ {i : Nat} {d : ZonosRequest S}, s.requests[i]? = some d →
        ∃ d', s'.requests[i]? = some d' ∧ d'.outputCodes = d.outputCodes := by
      intro i d hd
      refine ⟨_, (getElem?_setPhase ..).trans (congrArg _ hd), ?_⟩
      dsimp only
      split <;> rfl
    rcases eq_nil_or_concat back with rfl | ⟨back, last, rfl⟩
    · obtain ⟨rfl, hes⟩ := append_inj' hspl rfl
      obtain rfl := singleton_inj.1 hes
      refine ⟨hrequests ▸ hn, fun entry hent => ?_⟩
      rw [hens] at hent
      obtain ⟨it, hit, rfl⟩ := mem_map.1 hent
      obtain ⟨d, hd, -⟩ := hb it hit
      obtain ⟨d', hd', hc⟩ := hput hd
      refine ⟨d', hd', ?_⟩
      show ZonosModel.recordedEos (p'.rows (row it)) = _
      rw [hafter it hit, ZonosModel.recordedEos_rowAfter, hnext it hit, frames_eq hd, hc]
    · have hspl' : s.pending = front ++ es :: back := by
        have hspl' : s.pending ++ [entries] = (front ++ es :: back) ++ [last] := by
          refine Eq.trans hspl ?_
          rw [concat_eq_append, append_assoc]
          rfl
        exact (append_inj' hspl' rfl).1
      obtain ⟨hes, hrest⟩ := h.launched front es back hspl'
      refine ⟨hes, fun entry hent => ?_⟩
      obtain ⟨d, hd, heos⟩ := hrest entry hent
      obtain ⟨d', hd', hc⟩ := hput hd
      exact ⟨d', hd', hc ▸ heos⟩

/-! ### The scheduler -/

theorem ZonosInv.leave (h : ZonosInv m s) (hi : s.requests[i]? = some d) (hd : d.phase ≠ .ended)
    (phase : ZonosPhase) (hph : phase ≠ .running)
    (hended : phase = .ended → s.pool.rowOf d.requestId = none) :
    ZonosInv m { s with requests := setPhase s.requests [i] phase } := by
  set s' : ZonosState E S := { s with requests := setPhase s.requests [i] phase } with hs'
  have hfms : ∀ j, s'.frames j = s.frames j := fun j => frames_setPhase s [i] phase j s.pool _
  have hl : ∀ {j : Nat} {e : ZonosRequest S}, s.requests[j]? = some e →
      (if j ∈ [i] then { e with phase := phase } else e).phase ≠ .ended → e.phase ≠ .ended := by
    intro j e hj he
    by_cases hji : j ∈ [i]
    · obtain rfl := mem_singleton.1 hji
      exact some.inj (hi.symm.trans hj) ▸ hd
    · rwa [if_neg hji] at he
  have hrid : ∀ (j : Nat) (e : ZonosRequest S),
      (if j ∈ [i] then { e with phase := phase } else e).requestId = e.requestId := by
    intro j e
    split <;> rfl
  refine ⟨h.pool, ?_, ?_, ?_, ?_, ?_⟩
  · intro j k e f hj hk he hf heq
    obtain ⟨e, hj', rfl⟩ := of_setPhase hj
    obtain ⟨f, hk', rfl⟩ := of_setPhase hk
    rw [hrid, hrid] at heq
    exact h.distinct j k e f hj' hk' (hl hj' he) (hl hk' hf) heq
  · intro j e hj he
    obtain ⟨e, hj', rfl⟩ := of_setPhase hj
    rw [hrid, hfms]
    by_cases hji : j ∈ [i]
    · rw [if_pos hji] at he
      exact absurd he hph
    · rw [if_neg hji] at he
      exact h.live j e hj' he
  · intro rid row hrow
    rcases h.stale rid row hrow with hreset | ⟨j, e, hj, rfl, he, hne⟩
    · exact .inl hreset
    · refine .inr ⟨j, _, (getElem?_setPhase ..).trans (congrArg _ hj), hrid j e, ?_,
        (hfms j).symm ▸ hne⟩
      dsimp only
      by_cases hji : j ∈ [i]
      · obtain rfl := mem_singleton.1 hji
        obtain rfl := some.inj (hi.symm.trans hj)
        rw [if_pos hji]
        intro hend
        exact absurd (hrow.symm.trans (hended hend)) (some_ne_none row)
      · rwa [if_neg hji]
  · intro j e hj
    obtain ⟨e, hj', rfl⟩ := of_setPhase hj
    have heos := h.eos j e hj'
    split
    · exact heos
    · exact heos
  · intro front es back hspl
    obtain ⟨hes, hrest⟩ := h.launched front es back hspl
    refine ⟨hes, fun entry hent => ?_⟩
    obtain ⟨e, he, heos⟩ := hrest entry hent
    refine ⟨_, (getElem?_setPhase ..).trans (congrArg _ he), ?_⟩
    split
    · exact heos
    · exact heos

theorem setPhase_setPhase (requests : List (ZonosRequest S)) (chosen : List Nat)
    (phase phase' : ZonosPhase) :
    setPhase (setPhase requests chosen phase) chosen phase' = setPhase requests chosen phase' := by
  refine ext_getElem? fun i => ?_
  rw [getElem?_setPhase, getElem?_setPhase, getElem?_setPhase, Option.map_map]
  congr 1
  funext d
  by_cases hi : i ∈ chosen
  · simp [hi]
  · simp [hi]

theorem setPhase_of_phase {requests : List (ZonosRequest S)} {phase : ZonosPhase}
    (h : ∀ i ∈ chosen, ∃ d, requests[i]? = some d ∧ d.phase = phase) :
    setPhase requests chosen phase = requests := by
  refine ext_getElem? fun i => ?_
  rw [getElem?_setPhase]
  by_cases hi : i ∈ chosen
  · obtain ⟨d, hd, rfl⟩ := h i hi
    rw [hd, map_some, if_pos hi]
  · simp [hi]

theorem ZonosInv.release (h : ZonosInv m s) (hi : s.requests[i]? = some d) (hd : d.phase ≠ .ended) :
    ZonosInv m (s.release m i) := by
  have hwait := h.leave hi hd .waiting (by simp) (by simp)
  have hi' : (setPhase s.requests [i] .waiting)[i]? = some { d with phase := .waiting } := by
    rw [getElem?_setPhase, hi, map_some, if_pos mem_cons_self]
  have hspec := StatePool.releaseRow_spec h.pool d.requestId
  have hgone : (s.pool.releaseRow m.resetRow d.requestId).rowOf d.requestId = none :=
    hspec.gone _ (not_not.2 rfl)
  have hback := hwait.shrank hspec (by
    intro j e hj he heq
    have hj' : j = i := hwait.distinct j i e _ hj hi' (by rw [he]; simp) (by simp) heq
    subst hj'
    obtain rfl := some.inj (hi'.symm.trans hj)
    simp at he)
  have hend := hback.leave hi' (by simp) .ended (by simp) (fun _ => hgone)
  dsimp only at hend
  rw [setPhase_setPhase] at hend
  rw [ZonosState.release, hi]
  exact hend

theorem last_of_append {α : Type} {xs : List α} {x y : α} {i j : Nat}
    (hi : (xs ++ [x])[i]? = some y) (hj : xs[j]? = none) : i ≤ j := by
  obtain ⟨hlt, -⟩ := List.getElem?_eq_some_iff.1 hi
  rw [length_append, length_singleton] at hlt
  exact (Nat.lt_succ_iff.1 hlt).trans (List.getElem?_eq_none_iff.1 hj)

theorem ZonosInv.arrive (h : ZonosInv m s) (hc : d.outputCodes = []) (heos : d.eosFrame = none)
    (hph : d.phase = .waiting)
    (hnew : ∀ e ∈ s.requests, e.requestId = d.requestId → e.phase = .ended) :
    ZonosInv m { s with requests := s.requests ++ [d] } := by
  have hold : ∀ {i : Nat} {e : ZonosRequest S}, s.requests[i]? = some e →
      (s.requests ++ [d])[i]? = some e := by
    intro i e he
    obtain ⟨hlt, -⟩ := List.getElem?_eq_some_iff.1 he
    rwa [getElem?_append_left hlt]
  have hcases : ∀ {i : Nat} {e : ZonosRequest S}, (s.requests ++ [d])[i]? = some e →
      s.requests[i]? = some e ∨ s.requests[i]? = none ∧ e = d := by
    intro i e he
    rcases lt_or_ge i s.requests.length with hlt | hge
    · rw [getElem?_append_left hlt] at he
      exact .inl he
    · rw [getElem?_append_right hge] at he
      exact .inr ⟨getElem?_eq_none hge, mem_singleton.1 (mem_of_getElem? he)⟩
  have hfms : ∀ {i : Nat} {e : ZonosRequest S}, s.requests[i]? = some e →
      ({ s with requests := s.requests ++ [d] } : ZonosState E S).frames i = s.frames i := by
    intro i e he
    rw [frames_eq he, frames_eq (hold he)]
  have hfrs : ∀ {e : ZonosRequest S}, e ∈ s.requests → e.phase ≠ .ended →
      e.requestId ≠ d.requestId := fun he hl heq => hl (hnew _ he heq)
  refine ⟨h.pool, ?_, ?_, ?_, ?_, ?_⟩
  · intro i j e f hi hj he hf heq
    rcases hcases hi with hi' | ⟨hi', rfl⟩
    · rcases hcases hj with hj' | ⟨-, rfl⟩
      · exact h.distinct i j e f hi' hj' he hf heq
      · exact absurd heq (hfrs (mem_of_getElem? hi') he)
    · rcases hcases hj with hj' | ⟨hj', -⟩
      · exact absurd heq.symm (hfrs (mem_of_getElem? hj') hf)
      · exact le_antisymm (last_of_append hi hj') (last_of_append hj hi')
  · intro i e hi he
    rcases hcases hi with hi' | ⟨-, rfl⟩
    · rw [hfms hi']
      exact h.live i e hi' he
    · rw [hph] at he
      cases he
  · intro rid row hrow
    rcases h.stale rid row hrow with hreset | ⟨i, e, hi, rfl, he, hne⟩
    · exact .inl hreset
    · exact .inr ⟨i, e, hold hi, rfl, he, (hfms hi).symm ▸ hne⟩
  · intro i e hi
    rcases hcases hi with hi' | ⟨-, rfl⟩
    · exact h.eos i e hi'
    · rw [heos, hc]
      rfl
  · intro front es back hspl
    obtain ⟨hes, hrest⟩ := h.launched front es back hspl
    refine ⟨hes, fun entry hent => ?_⟩
    obtain ⟨e, he, heos'⟩ := hrest entry hent
    exact ⟨e, hold he, heos'⟩

theorem ZonosInv.stageDecode (h : ZonosInv m s) {batch : List BatchItem}
    (hall : ∀ (i : Nat) (d : ZonosRequest S), s.requests[i]? = some d → d.phase = .running →
      i ∈ batch.map BatchItem.request) :
    ZonosInv m { s with pool := (s.stageDecode m batch).1 } := by
  have hspec := StatePool.releaseInactive_spec h.pool (s.ids batch)
  have hback := h.shrank hspec (by
    intro i d hi hph
    obtain ⟨it, hit, rfl⟩ := mem_map.1 (hall i d hi hph)
    refine mem_map.2 ⟨it, hit, ?_⟩
    rw [ZonosState.requestId, hi])
  exact hback.grew (StatePool.prepareActiveRows_spec hspec.ok (s.ids batch)).1

theorem grew_of_exhausted {p p' : StatePool (PoolRow E)} (h : PoolOk m.resetRow p)
    {ids : List String} {batch : List BatchItem}
    (hlaunch : collectLaunch m ids p batch = (p', none)) : Grew m.resetRow p p' := by
  have hg := (StatePool.prepareActiveRows_spec h ids).1
  unfold collectLaunch at hlaunch
  cases hprepare : p.prepareActiveRows ids with
  | mk q res =>
    rw [hprepare] at hg hlaunch
    cases res with
    | error message =>
      cases hlaunch
      exact hg
    | ok rows => cases hlaunch

theorem ZonosInv.apply (h : ZonosInv m s) {op : ZonosOp S} (hop : s.Enabled op)
    (htidy : s.Tidy op) : ZonosInv m (s.apply m op) := by
  cases op with
  | arrive d =>
    obtain ⟨hc, heos, hph, hnew⟩ := hop
    exact h.arrive hc heos hph hnew
  | retract i =>
    obtain ⟨d, hi, hd⟩ := hop
    exact h.leave hi (by rw [hd]; simp) .waiting (by simp) (by simp)
  | finish i =>
    obtain ⟨d, hi, hd⟩ := hop
    exact h.release hi (by rw [hd]; simp)
  | abort i =>
    obtain ⟨d, hi, hd⟩ := hop
    exact h.release hi hd
  | resolve =>
    unfold ZonosState.apply
    cases hpnd : s.pending with
    | nil => exact h
    | cons entries rest => exact h.resolve entries rest hpnd
  | prefill batch =>
    obtain ⟨hpnd, -, hn, hwaiting⟩ := hop
    obtain ⟨hfst, -⟩ := htidy
    dsimp only [ZonosState.apply]
    cases hlaunch : collectLaunch m (s.ids batch) s.pool batch with
    | mk p res =>
      cases res with
      | none => exact h.grew (grew_of_exhausted h.pool hlaunch)
      | some entries =>
        have hlaunched := h.launch hn (fun it hit => by
          obtain ⟨d, hd, hph, -⟩ := hwaiting it hit
          refine ⟨d, hd, by rw [hph]; simp, .inr ?_⟩
          rw [frames_eq hd, hfst it hit d hd, hpnd]
          rfl) hlaunch
        have hresolved := hlaunched.resolve entries [] (by rw [hpnd]; rfl)
        rw [hpnd]
        exact hresolved
  | decode batch useGraph lookahead =>
    obtain ⟨hpnd, -, hn, hr⟩ := hop
    have hs := h.stageDecode htidy.1
    have hsame : setPhase s.requests (batch.map BatchItem.request) .running = s.requests := by
      refine setPhase_of_phase fun i hi => ?_
      obtain ⟨it, hit, rfl⟩ := mem_map.1 hi
      exact hr it hit
    dsimp only [ZonosState.apply]
    cases hprepare : s.stageDecode m batch with
    | mk p res =>
      rw [hprepare] at hs
      cases res with
      | error message => exact hs
      | ok rows =>
        dsimp only
        cases hlaunch : collectLaunch m (s.ids batch) p batch with
        | mk p' res =>
          cases res with
          | none => exact hs.grew (grew_of_exhausted hs.pool hlaunch)
          | some entries =>
            have hlaunched := hs.launch hn (fun it hit => by
              obtain ⟨d, hd, hph⟩ := hr it hit
              exact ⟨d, hd, by rw [hph]; simp, .inl hph⟩) hlaunch
            dsimp only at hlaunched hs
            rw [hsame] at hlaunched
            cases lookahead with
            | true => exact hlaunched
            | false =>
              have hpnd := hpnd.resolve_left (by simp)
              have hresolved := hlaunched.resolve entries [] (by rw [hpnd]; rfl)
              show ZonosInv m { s with requests := _, pool := p' }
              rw [hpnd]
              exact hresolved

/-! ## What a step is given -/

/-- What a step is given for a request is the function of its prompt and its frames. The
    repetition window is asked for where there is a penalty. -/
structure StepInput.Fits (m : ZonosModel E S) (d : ZonosRequest S) (frames : List ZonosFrame)
    (pos : Nat) (x : StepInput E) : Prop where
  input : x.input = (m.sequenceEmbeds d.prompt frames).drop pos
  repWindow : 1 < d.repetitionPenalty → x.repWindow = some (m.repWindow (m.history frames))
  breakToken : x.breakToken =
    ZonosModel.breakToken (m.history frames) (min frames.length repRing)
  generationStep : x.generationStep = frames.length

/-- A prefill reads the prompt and the frames from the end of the cached prefix on, a decode step
    the last frame. -/
def ZonosState.InputsFit (m : ZonosModel E S) (s : ZonosState E S) : ZonosOp S → Prop
  | .prefill batch => ∀ x ∈ s.prefillInputs m batch, ∃ d, s.requests[x.1.request]? = some d ∧
      x.2.Fits m d (s.frames x.1.request) x.1.prefixLen
  | .decode batch useGraph _ => ∀ x ∈ s.decodeInputs m batch useGraph,
      ∃ d, s.requests[x.1.request]? = some d ∧ x.2.Fits m d (s.frames x.1.request)
        (d.prompt.promptRows.length + (s.frames x.1.request).length - 1)
  | _ => True

/-- Running requests hold rows of their own, with what their frames leave there, and the recorded
    end is that of the frames. -/
structure ZonosState.RowsStand (m : ZonosModel E S) (s : ZonosState E S) : Prop where
  distinct : ∀ (i j : Nat) (d e : ZonosRequest S) (row : Nat), s.requests[i]? = some d →
    s.requests[j]? = some e → d.phase = .running → e.phase = .running →
    s.pool.rowOf d.requestId = some row → s.pool.rowOf e.requestId = some row → i = j
  held : ∀ (i : Nat) (d : ZonosRequest S), s.requests[i]? = some d → d.phase = .running →
    s.frames i ≠ [] ∧ ∃ row < s.pool.paddingRow, s.pool.rowOf d.requestId = some row ∧
      s.pool.rows row = m.rowAfter (s.frames i)
  eos : ∀ (i : Nat) (d : ZonosRequest S), s.requests[i]? = some d →
    d.eosFrame = m.eosFrame d.outputCodes

theorem ZonosInv.rowsStand (h : ZonosInv m s) : s.RowsStand m where
  distinct := by
    intro i j d e row hi hj hd he hrow hrow'
    have hrid := h.pool.exclusive.injective _ _ row hrow hrow'
    exact h.distinct i j d e hi hj (by rw [hd]; simp) (by rw [he]; simp) hrid
  held := by
    intro i d hi hd
    obtain ⟨hne, row, hrow, heq⟩ := h.live i d hi hd
    exact ⟨hne, row, h.pool.lt_padding hrow, hrow, heq⟩
  eos := h.eos

theorem fits_of_rowAfter {frames : List ZonosFrame} {pos : Nat} {windowed : Bool} {input : List E}
    {row : PoolRow E} (hrow : row = m.rowAfter frames)
    (hinput : input = (m.sequenceEmbeds d.prompt frames).drop pos)
    (hwindowed : windowed = false → d.repetitionPenalty ≤ 1) :
    (inputOf m row windowed input).Fits m d frames pos := by
  subst hrow
  refine ⟨hinput, fun hpenalty => ?_, ?_, m.rowAfter_generationStep frames⟩
  · cases windowed with
    | false => exact absurd (hwindowed rfl) (not_le.2 hpenalty)
    | true =>
      show some (m.repWindow (m.rowAfter frames).repHist) = _
      rw [m.rowAfter_repHist]
  · show ZonosModel.breakToken (m.rowAfter frames).repHist (m.rowAfter frames).repLen = _
    rw [m.rowAfter_repHist, m.rowAfter_repLen]

theorem drop_sequenceEmbeds (prompt : ZonosPrompt S) {frames : List ZonosFrame} (h : frames ≠ []) :
    (m.sequenceEmbeds prompt frames).drop (prompt.promptRows.length + frames.length - 1) =
      [(m.rowAfter frames).feedbackEmbed] := by
  rcases eq_nil_or_concat frames with rfl | ⟨front, codes, rfl⟩
  · exact absurd rfl h
  · rw [concat_eq_append, m.rowAfter_snoc, ZonosModel.sequenceEmbeds, map_append, ← append_assoc]
    have hlen : prompt.promptRows.length + (front ++ [codes]).length - 1 =
        (m.promptEmbeds prompt ++ front.map m.feedback).length := by
      simp [m.promptEmbeds_length]
    rw [hlen, drop_left]
    rfl

theorem ZonosInv.inputsFit (h : ZonosInv m s) {op : ZonosOp S} (hop : s.Enabled op)
    (htidy : s.Tidy op) : s.InputsFit m op := by
  cases op with
  | prefill batch =>
    obtain ⟨hpnd, -, -, hwaiting⟩ := hop
    obtain ⟨hfst, hpenalty⟩ := htidy
    intro x hx
    obtain ⟨hg, hrows⟩ := StatePool.prepareActiveRows_spec h.pool (s.ids batch)
    have hl := h.grew hg
    unfold ZonosState.prefillInputs at hx
    cases hprepare : s.pool.prepareActiveRows (s.ids batch) with
    | mk p res =>
      rw [hprepare] at hx hg hrows hl
      cases res with
      | error message => exact absurd hx not_mem_nil
      | ok rows =>
        obtain ⟨row, rfl, hh⟩ := rows_of_ids s.requestId (hrows rows rfl)
        dsimp only at hx
        rw [zip_map_self, List.map_map] at hx
        obtain ⟨it, hit, rfl⟩ := mem_map.1 hx
        obtain ⟨d, hd, hph, -⟩ := hwaiting it hit
        have hemp : s.frames it.request = [] := by
          rw [frames_eq hd, hfst it hit d hd, hpnd]
          rfl
        have hrid : s.requestId it = d.requestId := by rw [ZonosState.requestId, hd]
        refine ⟨d, hd, fits_of_rowAfter ?_ ?_ fun hwindow => hpenalty hwindow it hit d hd⟩
        · exact hl.row_eq hd (by rw [hph]; simp) (.inr hemp) (hrid ▸ hh it hit)
        · dsimp only [comp_apply]
          rw [ZonosState.prefillInput, hd, hemp]
          dsimp only
          rw [hfst it hit d hd, length_nil, add_zero, m.prefillEmbeds_eq,
            ZonosModel.sequenceEmbeds, map_nil, append_nil]
  | decode batch useGraph lookahead =>
    obtain ⟨-, -, -, hr⟩ := hop
    obtain ⟨hall, hpenalty⟩ := htidy
    intro x hx
    have hs := h.stageDecode hall
    have hfst := (StatePool.prepareActiveRows_spec
      (StatePool.releaseInactive_spec h.pool (s.ids batch)).ok (s.ids batch)).2
    change ∀ rows, (s.stageDecode m batch).2 = .ok rows →
      (s.ids batch).map (s.stageDecode m batch).1.rowOf = rows.map some at hfst
    unfold ZonosState.decodeInputs at hx
    cases hprepare : s.stageDecode m batch with
    | mk p res =>
      rw [hprepare] at hx hs hfst
      cases res with
      | error message => exact absurd hx not_mem_nil
      | ok rows =>
        obtain ⟨row, rfl, hh⟩ := rows_of_ids s.requestId (hfst rows rfl)
        obtain ⟨hg, hrows⟩ := StatePool.prepareActiveRows_spec hs.pool (s.ids batch)
        have hl := hs.grew hg
        dsimp only at hx hl hg hrows
        cases hagain : p.prepareActiveRows (s.ids batch) with
        | mk p' res =>
          rw [hagain] at hx hl hg hrows
          cases res with
          | error message => exact absurd hx not_mem_nil
          | ok rows =>
            obtain ⟨row', rfl, hh'⟩ := rows_of_ids s.requestId (hrows rows rfl)
            dsimp only at hx
            have hzip : (batch.map row).zip (batch.map row') = batch.map fun it => (row it, row' it) :=
              zip_map'
            rw [hzip, zip_map_self, List.map_map] at hx
            obtain ⟨it, hit, rfl⟩ := mem_map.1 hx
            obtain ⟨d, hd, hph⟩ := hr it hit
            have hrid : s.requestId it = d.requestId := by rw [ZonosState.requestId, hd]
            have hne : s.frames it.request ≠ [] := (h.live _ d hd hph).1
            refine ⟨d, hd, fits_of_rowAfter ?_ ?_ fun hwindow => ?_⟩
            · exact hl.row_eq hd (by rw [hph]; simp) (.inl hph) (hrid ▸ hh' it hit)
            · refine Eq.trans ?_ (drop_sequenceEmbeds d.prompt hne).symm
              refine congrArg (fun row : PoolRow E => [row.feedbackEmbed]) ?_
              exact hs.row_eq hd (by rw [hph]; simp) (.inl hph) (hrid ▸ hh it hit)
            · rcases hpenalty with rfl | hpenalty
              · simp [ZonosState.windowed] at hwindow
              · refine hpenalty ?_ it hit d hd
                rw [ZonosState.windowed, Bool.or_eq_false_iff] at hwindow ⊢
                exact ⟨rfl, hwindow.2⟩
  | arrive d => trivial
  | resolve => trivial
  | retract i => trivial
  | finish i => trivial
  | abort i => trivial

/-! ## Runs -/

/-- The runner over the runs the scheduler may make. -/
def zonosSystem (m : ZonosModel E S) (numRows : Nat) : System (ZonosState E S) (ZonosOp S) :=
  (System.ofFun (· = { pool := .create m.resetRow numRows })
    fun s op => some (s.apply m op)).restrict ZonosState.Enabled

theorem ZonosInv.initial (numRows : Nat) :
    ZonosInv m ({ pool := .create m.resetRow numRows } : ZonosState E S) where
  pool := StatePool.poolOk_create numRows
  distinct _ _ _ _ h := by cases h
  live _ _ h := by cases h
  stale _ _ h := by cases h
  eos _ _ h := by cases h
  launched front entries back h := by
    cases front with
    | nil => cases h
    | cons _ _ => cases h

/-- In the runs in which no request that has frames is prefilled, every decode step takes all
    running requests and the repetition window is not left out for one that asks for it, the rows
    and the inputs of every step are functions of the requests' own prompts and frames. -/
theorem zonos2_state_survives (m : ZonosModel E S) (numRows : Nat) (s : ZonosState E S)
    (h : ((zonosSystem m numRows).restrict ZonosState.Tidy).Reachable s) :
    s.RowsStand m ∧ ∀ op, s.Enabled op → s.Tidy op → s.InputsFit m op := by
  have hinv : ZonosInv m s := by
    refine h.invariant (P := ZonosInv m) (fun s₁ h₁ => ?_) ?_
    · obtain rfl : s₁ = _ := h₁
      exact .initial numRows
    · rintro u op v hu ⟨⟨hstep, henabled⟩, htidy⟩
      cases hstep
      exact hu.apply henabled htidy
  exact ⟨hinv.rowsStand, fun op hop htidy => hinv.inputsFit hop htidy⟩

end Runner

/-! ## Sample runs -/

section Decide

variable {E S : Type}

instance decidableFound {α : Type} {o : Option α} {P : α → Prop} [DecidablePred P] :
    Decidable (∃ d, o = some d ∧ P d) :=
  match o with
  | none => isFalse fun ⟨_, h, _⟩ => absurd h (by simp)
  | some d => decidable_of_iff (P d)
    ⟨fun h => ⟨d, rfl, h⟩, fun ⟨_, h, hP⟩ => some.inj h ▸ hP⟩

instance (s : ZonosState E S) (op : ZonosOp S) : Decidable (s.Enabled op) :=
  match op with
  | .arrive _ => inferInstanceAs (Decidable (_ ∧ _))
  | .prefill _ => inferInstanceAs (Decidable (_ ∧ _))
  | .decode _ _ _ => inferInstanceAs (Decidable (_ ∧ _))
  | .resolve => inferInstanceAs (Decidable True)
  | .retract _ => decidableFound
  | .finish _ => decidableFound
  | .abort _ => decidableFound

instance (s : ZonosState E S) (batch : List BatchItem) : Decidable (s.PenaltyAgrees batch) :=
  decidable_of_iff (s.windowed batch false = false →
    ∀ it ∈ batch, ∀ d ∈ s.requests[it.request]?, d.repetitionPenalty ≤ 1) Iff.rfl

instance (s : ZonosState E S) (op : ZonosOp S) : Decidable (s.Tidy op) :=
  match op with
  | .prefill batch => decidable_of_iff
      ((∀ it ∈ batch, ∀ d ∈ s.requests[it.request]?, d.outputCodes = []) ∧ s.PenaltyAgrees batch)
      Iff.rfl
  | .decode batch useGraph _ => decidable_of_iff
      ((∀ i < s.requests.length, ∀ d ∈ s.requests[i]?, d.phase = .running →
        i ∈ batch.map BatchItem.request) ∧ (useGraph = true ∨ s.PenaltyAgrees batch))
      (and_congr_left' ⟨fun h i d hi => h i (List.getElem?_eq_some_iff.1 hi).1 d hi,
        fun h i _ => h i⟩)
  | .arrive _ => inferInstanceAs (Decidable True)
  | .resolve => inferInstanceAs (Decidable True)
  | .retract _ => inferInstanceAs (Decidable True)
  | .finish _ => inferInstanceAs (Decidable True)
  | .abort _ => inferInstanceAs (Decidable True)

end Decide

/-- One codebook; embeddings are the tokens themselves. -/
def plainZonos : ZonosModel (List Int) Unit where
  nCodebooks := 1
  eoaId := 9
  textVocab := 100
  codebookSize := 10
  repetitionWindow := 2
  repetitionCodebooks := 1
  zero := []
  embedFrame := id
  projectSpeaker _ := []

def zonosRequest (rid : String) (penalty : ℚ) : ZonosRequest Unit where
  requestId := rid
  prompt := { promptRows := [[1, 100]], speakerEmb := none }
  repetitionPenalty := penalty

/-- Two requests that have a frame each. -/
def twoPrefilled (penalty : ℚ) : List (ZonosOp Unit) :=
  [.arrive (zonosRequest "a" 1), .arrive (zonosRequest "b" penalty),
    .prefill [{ request := 0, codes := [3] }, { request := 1, codes := [4] }]]

def zonosRun (ops : List (ZonosOp Unit)) : ZonosState (List Int) Unit :=
  ops.foldl (ZonosState.apply plainZonos) { pool := .create plainZonos.resetRow 3 }

/-- "b" ends while its next frame is decoded. -/
def survivingRun : List (ZonosOp Unit) :=
  twoPrefilled 1 ++
    [.decode [{ request := 1, codes := [9] }, { request := 0, codes := [5] }] false true, .resolve,
      .finish 1, .decode [{ request := 0, codes := [6] }] false false]

theorem zonos2_state_survives_sample :
    (zonosRun survivingRun).frames 0 = [[3], [5], [6]] ∧
      (zonosRun survivingRun).RowsStand plainZonos := by
  have hrun : System.exec (fun (s : ZonosState (List Int) Unit) op =>
      if s.Enabled op ∧ s.Tidy op then some (s.apply plainZonos op) else none)
      { pool := .create plainZonos.resetRow 3 } survivingRun = some (zonosRun survivingRun) := by
    rfl
  have hreach : ((zonosSystem plainZonos 3).restrict ZonosState.Tidy).Reachable
      (zonosRun survivingRun) :=
    System.Reachable.restrict_restrict (.of_exec_guarded (.init rfl) hrun)
  exact ⟨by decide, (zonos2_state_survives plainZonos 3 _ hreach).1⟩

/-- A retracted request loses its row with the next decode step. -/
def retractedRun : List (ZonosOp Unit) :=
  twoPrefilled 1 ++ [.retract 0, .decode [{ request := 1, codes := [5] }] false false]

/-- It is prefilled again, and its second frame ends the audio. -/
def prefilledAgain : ZonosOp Unit := .prefill [{ request := 0, codes := [9] }]

theorem zonosRun_reachable {ops : List (ZonosOp Unit)}
    (h : System.exec (fun (s : ZonosState (List Int) Unit) op =>
      if s.Enabled op then some (s.apply plainZonos op) else none)
      { pool := .create plainZonos.resetRow 3 } ops = some (zonosRun ops)) :
    (zonosSystem plainZonos 3).Reachable (zonosRun ops) :=
  .of_exec_guarded (.init rfl) h

/-- A step over both requests, and one over "b" alone. -/
def bothDecoded : ZonosOp Unit :=
  .decode [{ request := 0, codes := [5] }, { request := 1, codes := [5] }] false false

def oneDecoded : List (ZonosOp Unit) :=
  twoPrefilled 1 ++ [.decode [{ request := 1, codes := [5] }] false false]

/-- The prefill leaves out the frame the request has and the step restarts, so the end of the audio
    is counted from the prefill on. A window is left out where the first request of a batch has no
    penalty, and a decode step without a running request takes its row. -/
theorem zonos2_state_lost :
    (∃ s op, (zonosSystem plainZonos 3).Reachable s ∧ s.Enabled op ∧ ¬s.InputsFit plainZonos op ∧
      ¬(s.apply plainZonos op).RowsStand plainZonos) ∧
    (∃ s op, (zonosSystem plainZonos 3).Reachable s ∧ s.Enabled op ∧ ¬s.InputsFit plainZonos op) ∧
    ∃ s, (zonosSystem plainZonos 3).Reachable s ∧ ¬s.RowsStand plainZonos := by
  refine ⟨⟨zonosRun retractedRun, prefilledAgain, zonosRun_reachable rfl, by decide, ?_, ?_⟩,
    ⟨zonosRun (twoPrefilled 2), bothDecoded, zonosRun_reachable rfl, by decide, ?_⟩,
    zonosRun oneDecoded, zonosRun_reachable rfl, ?_⟩
  · intro h
    have hmem : ({ request := 0, codes := [9] },
        { input := [[1, 100]], repWindow := none, breakToken := none, generationStep := 0 }) ∈
        (zonosRun retractedRun).prefillInputs plainZonos [{ request := 0, codes := [9] }] := by
      decide
    obtain ⟨d, -, hfits⟩ := h _ hmem
    exact absurd hfits.generationStep (by decide)
  · intro h
    have hd : ((zonosRun retractedRun).apply plainZonos prefilledAgain).requests[0]? =
        some { zonosRequest "a" 1 with
          outputCodes := [[3], [9]], eosFrame := some 0, phase := .running } := by
      rfl
    exact absurd (h.eos 0 _ hd) (by decide)
  · intro h
    have hmem : ({ request := 1, codes := [5] },
        { input := [[4, 100]], repWindow := none, breakToken := none, generationStep := 1 }) ∈
        (zonosRun (twoPrefilled 2)).decodeInputs plainZonos
          [{ request := 0, codes := [5] }, { request := 1, codes := [5] }] false := by
      decide
    obtain ⟨d, hd, hfits⟩ := h _ hmem
    have hpenalty : ((zonosRun (twoPrefilled 2)).requests[1]?).map
        ZonosRequest.repetitionPenalty = some 2 := by
      rfl
    rw [hd] at hpenalty
    have hwindow := hfits.repWindow (by rw [some.inj hpenalty]; decide +kernel)
    exact absurd hwindow (by simp)
  · intro h
    have hd : (zonosRun oneDecoded).requests[0]? =
        some { zonosRequest "a" 1 with outputCodes := [[3]], phase := .running } := by
      rfl
    obtain ⟨-, row, -, hrow, -⟩ := h.held 0 _ hd rfl
    exact absurd hrow (by rw [show (zonosRun oneDecoded).pool.rowOf _ = none from rfl]; simp)

end OmniRealtime
