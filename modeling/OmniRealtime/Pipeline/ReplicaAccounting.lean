import OmniRealtime.Pipeline.RequestBook

/-!
# Replica accounting

`coordinator.py`: the in-flight counter of a stage replica against the requests that are bound
to it.

1. `Book.Owned.step`: a step of the books that neither charges a counter alone nor forgets a
   request that is still bound keeps counters, owners and releases in balance.
2. `replica_accounting_iff`: the runs in which the accounts stay balanced are those without a
   rejecting terminal-stage resolver and without a failure that forgets another request.
-/

namespace OmniRealtime

open List Option Function Coordinator Function

universe u

variable {α : Type u}

theorem countP_modify {α : Type u} (p : α → Bool) (f : α → α) (l : List α) (i : Nat) {a : α}
    (h : l[i]? = some a) : (l.modify i f).countP p + (if p a then 1 else 0) =
      l.countP p + (if p (f a) then 1 else 0) := by
  induction l generalizing i with
  | nil => cases h
  | cons b l ih =>
    cases i with
    | zero =>
      cases h
      rw [modify_zero_cons, countP_cons, countP_cons, add_right_comm]
    | succ i =>
      rw [modify_succ_cons, countP_cons, countP_cons, add_right_comm,
        add_right_comm _ _ (if p (f a) then 1 else 0), ih i h]

theorem countP_modify_of_eq {p : α → Bool} {f : α → α} (hpf : ∀ a, p (f a) = p a) (l : List α)
    (i : Nat) : (l.modify i f).countP p = l.countP p := by
  induction l generalizing i with
  | nil => simp
  | cons b l ih =>
    cases i with
    | zero => rw [modify_zero_cons, countP_cons, countP_cons, hpf]
    | succ i => rw [modify_succ_cons, countP_cons, countP_cons, ih]

/-- A weaker predicate that holds of one more member counts more. -/
theorem countP_lt_countP {p q : α → Bool} {l : List α} {a : α} (ha : a ∈ l)
    (hpq : ∀ x, p x = true → q x = true) (hq : q a = true) (hp : ¬p a = true) :
    l.countP p < l.countP q := by
  induction l with
  | nil => exact absurd ha not_mem_nil
  | cons b l ih =>
    have hle : l.countP p ≤ l.countP q := countP_mono_left fun x _ => hpq x
    rw [countP_cons, countP_cons]
    rcases mem_cons.mp ha with rfl | ha
    · rw [if_neg hp, if_pos hq]
      exact Nat.lt_succ_of_le hle
    · have hlt := ih ha
      by_cases hb : p b = true
      · rw [if_pos hb, if_pos (hpq b hb)]
        exact Nat.succ_lt_succ hlt
      · rw [if_neg hb]
        exact lt_of_lt_of_le hlt (Nat.le_add_right ..)

namespace Book

/-! ## Balance -/

/-- The tracked requests that are bound to a replica. -/
def assigned (b : Book) (stage : String) (dpRank : Nat) : Nat :=
  b.calls.zipIdx.countP fun e =>
    b.requests e.1.requestId = some e.2 ∧ e.1.owner = some (stage, dpRank)

/-- The counters are the bound requests, no counter was clamped, and a request that is no longer
    bound was released once. -/
structure Balanced (b : Book) : Prop where
  counters : ∀ stage, ∀ r ∈ (b.stages stage).list, r.inflight = b.assigned stage r.dpRank
  clamps : b.clamps = 0
  released : ∀ c ∈ b.calls, c.releases = if c.owner.isSome then 0 else 1

/-- The replica a request is bound to. -/
def ownerOf (b : Book) (h : Nat) : Option (String × Nat) := (b.calls[h]?).bind CallBook.owner

/-- All requests that are bound to a replica, tracked or not. -/
def owned (b : Book) (stage : String) (dpRank : Nat) : Nat :=
  b.calls.countP fun c => c.owner = some (stage, dpRank)

def ranks (b : Book) (stage : String) : List Nat :=
  (b.stages stage).list.map ReplicaInfo.dpRank

structure Owned (b : Book) : Prop where
  tracked : ∀ requestId h, b.requests requestId = some h → b.idOf h = some requestId
  settled : ∀ (h : Nat) (c : CallBook), b.calls[h]? = some c → c.owner ≠ none →
    b.requests c.requestId = some h
  ranks : ∀ c ∈ b.calls, ∀ stage dpRank, c.owner = some (stage, dpRank) → dpRank ∈ b.ranks stage
  counters : ∀ stage, ∀ r ∈ (b.stages stage).list, r.inflight = b.owned stage r.dpRank
  clamps : b.clamps = 0
  released : ∀ c ∈ b.calls, c.releases = if c.owner.isSome then 0 else 1

theorem owned_eq_zipIdx (b : Book) (stage : String) (dpRank : Nat) : b.owned stage dpRank =
    b.calls.zipIdx.countP fun e => e.1.owner = some (stage, dpRank) := by
  unfold owned
  conv_lhs => rw [← zipIdx_map_fst 0 b.calls, countP_map]
  rfl

theorem assigned_eq_owned {b : Book} (hstl : ∀ (h : Nat) (c : CallBook),
    b.calls[h]? = some c → c.owner ≠ none → b.requests c.requestId = some h) (stage : String)
    (dpRank : Nat) : b.assigned stage dpRank = b.owned stage dpRank := by
  rw [owned_eq_zipIdx]
  refine countP_congr fun e he => ?_
  obtain ⟨c, h⟩ := e
  have hc : b.calls[h]? = some c := mem_zipIdx_iff_getElem?.mp he
  rw [decide_eq_true_eq, decide_eq_true_eq]
  constructor
  · exact fun hboth => hboth.2
  · intro ho
    refine ⟨hstl h c hc ?_, ho⟩
    intro hn
    rw [ho] at hn
    cases hn

theorem Owned.balanced {b : Book} (hb : b.Owned) : b.Balanced :=
  ⟨fun stage r hr => (hb.counters stage r hr).trans
      (assigned_eq_owned hb.settled stage r.dpRank).symm,
    hb.clamps, hb.released⟩

variable {h dpRank : Nat}

/-- A bound request that is not tracked under its id is missing from the tracked ones. -/
theorem assigned_lt_owned {b : Book} {c : CallBook} (hc : b.calls[h]? = some c) {stage : String}
    (ho : c.owner = some (stage, dpRank)) (hlost : b.requests c.requestId ≠ some h) :
    b.assigned stage dpRank < b.owned stage dpRank := by
  rw [owned_eq_zipIdx]
  refine countP_lt_countP (a := (c, h)) (mem_zipIdx_iff_getElem?.mpr hc) ?_ ?_ ?_
  · intro e he
    exact decide_eq_true (of_decide_eq_true he).2
  · exact decide_eq_true ho
  · intro hboth
    exact hlost (of_decide_eq_true hboth).1

/-! ## The operations -/

section Operations

variable {b : Book} {f : CallBook → CallBook} {c : CallBook}

theorem mem_modify {calls : List CallBook} {c' : CallBook} (hc' : c' ∈ calls.modify h f) :
    ∃ c ∈ calls, c' = c ∨ c' = f c := by
  obtain ⟨j, hj⟩ := mem_iff_getElem?.mp hc'
  rw [getElem?_modify] at hj
  obtain ⟨c, hc, heq⟩ := map_eq_some_iff.mp hj
  refine ⟨c, mem_of_getElem? hc, ?_⟩
  split at heq
  · exact .inr heq.symm
  · exact .inl heq.symm

theorem getElem?_modify_eq_some {calls : List CallBook} {k : Nat} {c' : CallBook}
    (hc' : (calls.modify h f)[k]? = some c') :
    ∃ c, calls[k]? = some c ∧ (h = k ∧ c' = f c ∨ h ≠ k ∧ c' = c) := by
  rw [getElem?_modify] at hc'
  obtain ⟨c, hc, heq⟩ := map_eq_some_iff.mp hc'
  refine ⟨c, hc, ?_⟩
  split at heq
  · next hk => exact .inl ⟨hk, heq.symm⟩
  · next hk => exact .inr ⟨hk, heq.symm⟩

theorem Owned.setState (hb : b.Owned) (h : Nat) (state : RequestState) :
    (b.setState h state).Owned := by
  refine ⟨fun id k hid => ?_, fun k c' hc' ho => ?_, fun c' hc' => ?_, fun stage r hr => ?_,
    hb.clamps, fun c' hc' => ?_⟩
  · rw [idOf_setState]
    exact hb.tracked id k hid
  · obtain ⟨c, hc, ⟨-, rfl⟩ | ⟨-, rfl⟩⟩ := getElem?_modify_eq_some hc'
    · exact hb.settled k c hc ho
    · exact hb.settled k c' hc ho
  · obtain ⟨c, hc, rfl | rfl⟩ := mem_modify hc'
    · exact hb.ranks c' hc
    · exact hb.ranks c hc
  · rw [hb.counters stage r hr]
    unfold owned Book.setState
    rw [countP_modify_of_eq]
    exact fun _ => rfl
  · obtain ⟨c, hc, rfl | rfl⟩ := mem_modify hc'
    · exact hb.released c' hc
    · exact hb.released c hc

theorem mem_list_modify {replicas : StageReplicas} {f : Nat → Nat} {r' : ReplicaInfo} :
    r' ∈ (replicas.modify dpRank f).list ↔ ∃ r ∈ replicas.list,
      r' = if r.dpRank = dpRank then { r with inflight := f r.inflight } else r := by
  unfold StageReplicas.modify
  rw [List.mem_map]
  exact exists_congr fun r => and_congr_right fun _ => eq_comm

theorem ranks_update_modify (b : Book) (stage : String) (dpRank : Nat) (f : Nat → Nat)
    (stage' : String) : ((update b.stages stage ((b.stages stage).modify dpRank f)
      stage').list.map ReplicaInfo.dpRank) = b.ranks stage' := by
  by_cases hs : stage' = stage
  · subst hs
    rw [update_self]
    unfold StageReplicas.modify Book.ranks
    rw [List.map_map]
    refine map_congr_left fun r _ => ?_
    dsimp only [comp]
    split <;> rfl
  · rw [update_of_ne hs]
    rfl

theorem release_of_owner (hb : b.Owned) (hc : b.calls[h]? = some c) {stage : String}
    (ho : c.owner = some (stage, dpRank)) :
    ∃ replica ∈ (b.stages stage).list, replica.dpRank = dpRank ∧ b.release h = { b with
        calls := b.calls.modify h fun c => { c with owner := none, releases := c.releases + 1 }
        stages := update b.stages stage ((b.stages stage).modify dpRank (· - 1))
        clamps := if replica.inflight = 0 then b.clamps + 1 else b.clamps } := by
  obtain ⟨r, hr, hrank⟩ := mem_map.mp (hb.ranks c (mem_of_getElem? hc) stage dpRank ho)
  have hsome : ((b.stages stage).list.find? fun r => r.dpRank = dpRank).isSome = true := by
    rw [find?_isSome]
    exact ⟨r, hr, decide_eq_true hrank⟩
  obtain ⟨replica, hfind⟩ := isSome_iff_exists.mp hsome
  refine ⟨replica, mem_of_find?_eq_some hfind, by simpa using find?_some hfind, ?_⟩
  unfold release
  rw [hc, bind_some, ho]
  dsimp only
  rw [hfind]

theorem release_of_unowned (hn : b.ownerOf h = none) : b.release h = b := by
  unfold ownerOf at hn
  unfold release
  rw [hn]

/-- The bound requests of a replica after one of them is released. -/
theorem owned_release (hc : b.calls[h]? = some c) {stage : String}
    (ho : c.owner = some (stage, dpRank)) (stage' : String) (dpRank' : Nat) :
    (b.calls.modify h fun c => { c with owner := none, releases := c.releases + 1 }).countP
        (fun c => c.owner = some (stage', dpRank')) +
      (if stage = stage' ∧ dpRank = dpRank' then 1 else 0) = b.owned stage' dpRank' := by
  have hcnt := countP_modify (fun c => decide (c.owner = some (stage', dpRank')))
    (fun c => { c with owner := none, releases := c.releases + 1 }) b.calls h hc
  simp only [ho, some.injEq, Prod.mk.injEq, decide_eq_true_eq, reduceCtorEq,
    if_false, add_zero] at hcnt
  exact hcnt

theorem Owned.release (hb : b.Owned) (h : Nat) :
    (b.release h).Owned ∧ (b.release h).ownerOf h = none := by
  cases ho : b.ownerOf h with
  | none =>
    rw [release_of_unowned ho]
    exact ⟨hb, ho⟩
  | some owner =>
    obtain ⟨stage, dpRank⟩ := owner
    obtain ⟨c, hc, ho⟩ := bind_eq_some_iff.mp ho
    obtain ⟨replica, hreplica, hrank, heq⟩ := release_of_owner hb hc ho
    have hbound : 0 < replica.inflight := by
      have hcnt := owned_release hc ho stage dpRank
      rw [if_pos ⟨rfl, rfl⟩] at hcnt
      rw [hb.counters stage replica hreplica, hrank, ← hcnt]
      exact Nat.succ_pos _
    constructor
    · rw [heq]
      refine ⟨fun id k hid => ?_, fun k c' hc' hne => ?_, fun c' hc' stage' dpRank' hown => ?_,
        fun stage' r' hr' => ?_, ?_, fun c' hc' => ?_⟩
      · exact (idOf_modify (f := fun c => { c with owner := none, releases := c.releases + 1 })
          (fun _ => rfl) h k).trans (hb.tracked id k hid)
      · obtain ⟨c₀, hc₀, ⟨-, rfl⟩ | ⟨-, rfl⟩⟩ := getElem?_modify_eq_some hc'
        · exact absurd rfl hne
        · exact hb.settled k c' hc₀ hne
      · obtain ⟨c₀, hc₀, rfl | rfl⟩ := mem_modify hc'
        · show dpRank' ∈ (update b.stages stage ((b.stages stage).modify dpRank (· - 1))
            stage').list.map ReplicaInfo.dpRank
          rw [ranks_update_modify]
          exact hb.ranks c' hc₀ stage' dpRank' hown
        · cases hown
      · dsimp only at hr'
        have hcnt := owned_release hc ho stage' r'.dpRank
        by_cases hs : stage' = stage
        · subst hs
          rw [update_self] at hr'
          obtain ⟨r, hr, rfl⟩ := mem_list_modify.mp hr'
          have hold := hb.counters stage' r hr
          by_cases hsame : r.dpRank = dpRank
          · rw [if_pos hsame] at hcnt ⊢
            dsimp only at hcnt ⊢
            rw [if_pos ⟨rfl, hsame.symm⟩] at hcnt
            rw [hold, ← hcnt]
            exact Nat.add_sub_cancel ..
          · rw [if_neg hsame] at hcnt ⊢
            rw [if_neg fun heq => hsame heq.2.symm] at hcnt
            exact hold.trans hcnt.symm
        · rw [update_of_ne hs] at hr'
          rw [if_neg fun heq => hs heq.1.symm] at hcnt
          exact (hb.counters stage' r' hr').trans hcnt.symm
      · dsimp only
        rw [if_neg hbound.ne']
        exact hb.clamps
      · obtain ⟨j, hj⟩ := mem_iff_getElem?.mp hc'
        obtain ⟨c₀, hc₀, ⟨rfl, rfl⟩ | ⟨-, rfl⟩⟩ := getElem?_modify_eq_some hj
        · obtain rfl := some.inj (hc.symm.trans hc₀)
          have hold := hb.released c (mem_of_getElem? hc)
          rw [ho] at hold
          show c.releases + 1 = 1
          rw [hold]
          rfl
        · exact hb.released c' (mem_of_getElem? hc₀)
    · rw [heq, ownerOf]
      rw [getElem?_modify_eq, hc]
      rfl

theorem Owned.forget (hb : b.Owned) {requestId : String}
    (hfree : ∀ h, b.requests requestId = some h → b.ownerOf h = none) :
    (b.forget requestId).Owned := by
  refine ⟨fun id k hid => ?_, fun k c hc ho => ?_, hb.ranks, hb.counters, hb.clamps,
    hb.released⟩
  · rcases update_eq_some hid with ⟨-, hn⟩ | ⟨-, hold⟩
    · cases hn
    · exact hb.tracked id k hold
  · have hold := hb.settled k c hc ho
    have hne : c.requestId ≠ requestId := by
      rintro rfl
      have hc' : b.calls[k]? = some c := hc
      have hn := hfree k hold
      rw [ownerOf, hc', bind_some] at hn
      exact ho hn
    show update b.requests requestId none c.requestId = some k
    rw [update_of_ne hne]
    exact hold

theorem Owned.addReplica (hb : b.Owned) {stage : String} {replica : ReplicaInfo}
    {replicas : StageReplicas} (hlist : replicas.list = (b.stages stage).list ++ [replica])
    (hnew : replica.dpRank ∉ b.ranks stage) (hzero : replica.inflight = 0) :
    Owned { b with stages := update b.stages stage replicas } := by
  refine ⟨hb.tracked, hb.settled, fun c hc stage' dpRank ho => ?_, fun stage' r hr => ?_,
    hb.clamps, hb.released⟩
  · have hold := hb.ranks c hc stage' dpRank ho
    unfold Book.ranks at hold ⊢
    dsimp only
    by_cases hs : stage' = stage
    · subst hs
      rw [update_self, hlist, map_append]
      exact mem_append_left _ hold
    · rw [update_of_ne hs]
      exact hold
  · dsimp only at hr
    by_cases hs : stage' = stage
    · subst hs
      rw [update_self, hlist] at hr
      rcases mem_append.mp hr with hr | hr
      · exact hb.counters stage' r hr
      · obtain rfl := mem_singleton.mp hr
        refine hzero.trans (countP_eq_zero.mpr fun c hc ho => hnew ?_).symm
        exact hb.ranks c hc stage' r.dpRank (of_decide_eq_true ho)
    · rw [update_of_ne hs] at hr
      exact hb.counters stage' r hr

theorem Owned.register (hb : b.Owned) {requestId stage : String} (hid : b.requests requestId = none)
    (hrank : dpRank ∈ b.ranks stage) :
    ((b.charge stage dpRank).register requestId stage dpRank).Owned := by
  have hnew : ∀ (k : Nat) (c : CallBook), (b.calls ++ [⟨requestId, .pending, some (stage, dpRank),
      0⟩])[k]? = some c → b.calls[k]? = some c ∨
      k = b.calls.length ∧ c = ⟨requestId, .pending, some (stage, dpRank), 0⟩ := by
    intro k c hc
    by_cases hk : k < b.calls.length
    · rw [getElem?_append_left hk] at hc
      exact .inl hc
    · have hlast : k = b.calls.length := by
        have hlt := (List.getElem?_eq_some_iff.mp hc).1
        rw [length_append, length_singleton] at hlt
        exact le_antisymm (Nat.le_of_lt_succ hlt) (not_lt.mp hk)
      subst hlast
      rw [getElem?_concat_length] at hc
      exact .inr ⟨rfl, (some.inj hc).symm⟩
  have hcharged : ∀ stage', ((update b.stages stage ((b.stages stage).modify dpRank (· + 1))
      stage').list.map ReplicaInfo.dpRank) = b.ranks stage' := ranks_update_modify b stage dpRank _
  refine ⟨fun id k hidk => ?_, fun k c hc ho => ?_, fun c hc stage' dpRank' ho => ?_,
    fun stage' r' hr' => ?_, hb.clamps, fun c hc => ?_⟩
  · rcases update_eq_some hidk with ⟨rfl, hk⟩ | ⟨-, hold⟩
    · cases hk
      unfold idOf Book.register
      rw [getElem?_concat_length]
      rfl
    · obtain ⟨c, hc, hcid⟩ := map_eq_some_iff.mp (hb.tracked id k hold)
      have hcls : ((b.charge stage dpRank).register requestId stage dpRank).calls[k]? = some c :=
        (getElem?_append_left (List.getElem?_eq_some_iff.mp hc).1).trans hc
      rw [idOf, hcls]
      exact congrArg some hcid
  · rcases hnew k c hc with hold | ⟨rfl, rfl⟩
    · have hent := hb.settled k c hold ho
      have hne : c.requestId ≠ requestId := by
        intro heq
        rw [heq, hid] at hent
        cases hent
      exact (update_of_ne hne ..).trans hent
    · exact update_self ..
  · show dpRank' ∈ (update b.stages stage ((b.stages stage).modify dpRank (· + 1))
      stage').list.map ReplicaInfo.dpRank
    rw [hcharged]
    rcases mem_append.mp hc with hc | hc
    · exact hb.ranks c hc stage' dpRank' ho
    · obtain rfl := mem_singleton.mp hc
      obtain ⟨rfl, rfl⟩ := Prod.mk.inj (some.inj ho)
      exact hrank
  · have howned : ∀ dpRank', ((b.charge stage dpRank).register requestId stage dpRank).owned stage'
        dpRank' = b.owned stage' dpRank' + if stage = stage' ∧ dpRank = dpRank' then 1 else 0 := by
      intro dpRank'
      unfold owned Book.register
      rw [countP_append, countP_singleton]
      simp only [some.injEq, Prod.mk.injEq, decide_eq_true_eq]
      rfl
    rw [howned]
    have hr : r' ∈ (update b.stages stage ((b.stages stage).modify dpRank (· + 1))
        stage').list := hr'
    by_cases hs : stage' = stage
    · subst hs
      rw [update_self] at hr
      obtain ⟨r, hr₀, rfl⟩ := mem_list_modify.mp hr
      by_cases hsame : r.dpRank = dpRank
      · rw [if_pos hsame, if_pos ⟨rfl, hsame.symm⟩]
        exact congrArg (· + 1) (hb.counters stage' r hr₀)
      · rw [if_neg hsame, if_neg fun heq => hsame heq.2.symm]
        exact hb.counters stage' r hr₀
    · rw [update_of_ne hs] at hr
      rw [if_neg fun heq => hs heq.1.symm]
      exact hb.counters stage' r' hr
  · rcases mem_append.mp hc with hc | hc
    · exact hb.released c hc
    · obtain rfl := mem_singleton.mp hc
      rfl

@[simp] theorem ownerOf_setState (b : Book) (h k : Nat) (state : RequestState) :
    (b.setState h state).ownerOf k = b.ownerOf k := by
  unfold ownerOf Book.setState
  rw [getElem?_modify]
  cases b.calls[k]? with
  | none => rfl
  | some c =>
    by_cases heq : h = k
    · simp [heq]
    · simp [heq]

theorem ownerOf_release_of_none {k : Nat} (hn : b.ownerOf k = none) :
    (b.release h).ownerOf k = none := by
  rcases b.release_cases h with heq | ⟨stages, clamps, heq⟩
  · rw [heq]
    exact hn
  · cases ho : (b.release h).ownerOf k with
    | none => rfl
    | some owner =>
      rw [heq] at ho
      obtain ⟨c', hc', hown⟩ := bind_eq_some_iff.mp ho
      obtain ⟨c, hc, ⟨-, rfl⟩ | ⟨-, rfl⟩⟩ := getElem?_modify_eq_some hc'
      · cases hown
      · rw [ownerOf, hc, bind_some, hown] at hn
        cases hn

/-- A released request can be forgotten when no other one under its id is bound. -/
theorem Owned.release_forget (hb : b.Owned) {requestId : String}
    (hid : ∀ h', b.requests requestId = some h' → b.ownerOf h' ≠ none → h' = h) :
    ((b.release h).forget requestId).Owned := by
  obtain ⟨hreleased, hfree⟩ := hb.release h
  refine hreleased.forget fun h' hid' => ?_
  rw [release_requests] at hid'
  by_cases hbound : b.ownerOf h' = none
  · exact ownerOf_release_of_none hbound
  · rw [hid h' hid' hbound]
    exact hfree

theorem Owned.foldl_failOne (handles : List Nat) : ∀ {b : Book}, b.Owned →
    (handles.foldl failOne b).Owned ∧ (handles.foldl failOne b).requests = b.requests ∧
      ∀ h, h ∈ handles ∨ b.ownerOf h = none → (handles.foldl failOne b).ownerOf h = none := by
  induction handles with
  | nil => exact fun hb => ⟨hb, rfl, fun h hfree => hfree.resolve_left not_mem_nil⟩
  | cons h handles ih =>
    intro b hb
    obtain ⟨howned, hfreed⟩ := (hb.setState h .failed).release h
    obtain ⟨hrest, hrequests, hfree⟩ := ih howned
    refine ⟨hrest, hrequests.trans (release_requests _ h), fun k hk => hfree k ?_⟩
    rcases hk with hmem | hn
    · rcases mem_cons.mp hmem with rfl | hmem
      · exact .inr hfreed
      · exact .inl hmem
    · exact .inr (ownerOf_release_of_none ((ownerOf_setState b h k .failed).trans hn))

theorem mem_tracked (hc : b.calls[h]? = some c) (hid : b.requests c.requestId = some h) :
    h ∈ b.tracked := by
  refine mem_filter.mpr ⟨mem_range.mpr (List.getElem?_eq_some_iff.mp hc).1, ?_⟩
  rw [hc]
  exact decide_eq_true hid

theorem Owned.failAll (hb : b.Owned) : b.failAll.Owned := by
  obtain ⟨howned, hrequests, hfree⟩ := Owned.foldl_failOne b.tracked hb
  have hfreed : ∀ h, (b.tracked.foldl failOne b).ownerOf h = none := by
    intro h
    by_cases hbound : b.ownerOf h = none
    · exact hfree h (.inr hbound)
    · obtain ⟨owner, ho⟩ := ne_none_iff_exists'.mp hbound
      obtain ⟨c, hc, hown⟩ := bind_eq_some_iff.mp ho
      have hid := hb.settled h c hc (hown ▸ some_ne_none owner)
      exact hfree h (.inl (mem_tracked hc hid))
  refine ⟨fun id h hid => (by cases hid), fun h c hc ho => ?_, howned.ranks, howned.counters,
    howned.clamps, howned.released⟩
  have hn := hfreed h
  have hc' : (b.tracked.foldl failOne b).calls[h]? = some c := hc
  rw [ownerOf, hc', bind_some] at hn
  exact absurd hn ho

end Operations

/-! ## Steps -/

/-- A counter goes up with no request bound to it, or the request that is forgotten at the end of
    a failure is another one, and still bound. -/
def Unbalances (b : Book) : BookEvent → Prop
  | .charge _ _ => True
  | .finishFailure h requestId =>
    ∃ h', b.requests requestId = some h' ∧ h' ≠ h ∧ b.ownerOf h' ≠ none
  | _ => False

theorem Owned.step {b b' : Book} {e : BookEvent} (hb : b.Owned) (hstep : BookStep b e b')
    (hclean : ¬b.Unbalances e) : b'.Owned := by
  cases hstep with
  | quiet => exact hb
  | addReplica stage replica replicas hlist hnew hzero => exact hb.addReplica hlist hnew hzero
  | charge stage dpRank => exact absurd trivial hclean
  | register requestId stage dpRank hid hrank => exact hb.register hid hrank
  | run requestId h => exact hb.setState h .running
  | release requestId h => exact (hb.release h).1
  | complete h requestId hid =>
    refine (hb.setState h .completed).release_forget fun h' hid' _ => ?_
    exact some.inj (hid'.symm.trans hid)
  | abort h requestId hid =>
    refine (hb.setState h .aborted).release_forget fun h' hid' _ => ?_
    exact some.inj (hid'.symm.trans hid)
  | fail h requestId =>
    have hfld := hb.setState h .failed
    exact ⟨hfld.tracked, hfld.settled, hfld.ranks, hfld.counters, hfld.clamps,
      hfld.released⟩
  | finishFailure h requestId =>
    have hfin : ((b.release h).forget requestId).Owned := by
      refine hb.release_forget fun h' hid' hbound => ?_
      by_contra hne
      exact hclean ⟨h', hid', hne, hbound⟩
    exact ⟨hfin.tracked, hfin.settled, hfin.ranks, hfin.counters,
      hfin.clamps, hfin.released⟩
  | dropFailure =>
    exact ⟨hb.tracked, hb.settled, hb.ranks, hb.counters, hb.clamps, hb.released⟩
  | failAll => exact hb.failAll

/-- A step that unbalances the accounts leaves them out of balance. -/
theorem Owned.not_balanced {b b' : Book} {e : BookEvent} (hb : b.Owned) (hstep : BookStep b e b')
    (hbad : b.Unbalances e) : ¬b'.Balanced := by
  intro hbalanced
  cases hstep with
  | charge stage dpRank hrank =>
    obtain ⟨r, hr, hrank⟩ := mem_map.mp hrank
    have hcharged : { r with inflight := r.inflight + 1 } ∈
        ((b.charge stage dpRank).stages stage).list := by
      show _ ∈ (update b.stages stage ((b.stages stage).modify dpRank (· + 1)) stage).list
      rw [update_self]
      exact mem_list_modify.mpr ⟨r, hr, (if_pos hrank).symm⟩
    have hnew : r.inflight + 1 = b.assigned stage r.dpRank := hbalanced.counters stage _ hcharged
    rw [assigned_eq_owned hb.settled, ← hb.counters stage r hr] at hnew
    exact Nat.succ_ne_self _ hnew
  | finishFailure h requestId =>
    obtain ⟨h', hid', hne, hbound⟩ := hbad
    obtain ⟨owner, ho⟩ := ne_none_iff_exists'.mp hbound
    obtain ⟨c, hc, hown⟩ := bind_eq_some_iff.mp ho
    have hcid : c.requestId = requestId := by
      have hidOf := hb.tracked requestId h' hid'
      rw [idOf, hc] at hidOf
      exact some.inj hidOf
    have hc' : (b.release h).calls[h']? = some c := by
      rcases b.release_cases h with heq | ⟨stages, clamps, heq⟩
      · rw [heq]
        exact hc
      · rw [heq]
        rw [getElem?_modify_ne _ _ hne.symm]
        exact hc
    obtain ⟨stage, dpRank⟩ := owner
    have howned := (hb.release h).1
    have hlt : ((b.release h).forget requestId).assigned stage dpRank <
        ((b.release h).forget requestId).owned stage dpRank := by
      refine assigned_lt_owned (b := (b.release h).forget requestId) hc' hown ?_
      show update (b.release h).requests requestId none c.requestId ≠ some h'
      rw [hcid, update_self]
      exact (some_ne_none h').symm
    obtain ⟨r, hr, rfl⟩ :=
      mem_map.mp (howned.ranks c (mem_of_getElem? hc') stage dpRank hown)
    exact absurd (hbalanced.counters stage r hr).symm
      (ne_of_lt (hlt.trans_eq (howned.counters stage r hr).symm))
  | _ => exact hbad

end Book

/-! ## Runs -/

section Runs

variable {ρ : Type u} (s : Coordinator ρ)

/-- The terminal-stage resolver rejects a request that was admitted, or a failure whose own
    request is gone forgets a later request of the same id that is bound to a replica. -/
def SkewsCounters (s : Coordinator ρ) : CoordEvent ρ → Prop
  | .submit requestId _ dpRank answer =>
    (s.admission requestId dpRank).isSome = true ∧ s.resolveTerminalStages answer = none
  | .failureBroadcast => ∃ f h', s.failing = some f ∧ s.requests f.msg.requestId = some h' ∧
    h' ≠ f.handle ∧ ((s.calls[h']?).bind fun c => c.info.ownerDpRank) ≠ none
  | _ => False

theorem ownerOf_book (h : Nat) : s.book.ownerOf h ≠ none ↔
    ((s.calls[h]?).bind fun c => c.info.ownerDpRank) ≠ none := by
  unfold Book.ownerOf
  rw [getElem?_book]
  cases s.calls[h]? with
  | none => simp
  | some c => simp [Call.book]

theorem skewsCounters_iff (e : CoordEvent ρ) :
    SkewsCounters s e ↔ s.book.Unbalances (s.bookEvent e) := by
  unfold bookEvent
  cases e with
  | submit requestId streaming dpRank answer =>
    dsimp only [SkewsCounters]
    cases s.admission requestId dpRank with
    | none => simp [Book.Unbalances]
    | some chosen =>
      cases s.resolveTerminalStages answer with
      | none | some stages => simp [Book.Unbalances]
  | failureBroadcast =>
    unfold SkewsCounters
    cases s.failing with
    | none => simp [Book.Unbalances]
    | some f =>
      constructor
      · intro ⟨f', h', hf, hid, hne, ho⟩
        cases hf
        exact ⟨h', hid, hne, (ownerOf_book s h').mpr ho⟩
      · intro ⟨h', hid, hne, ho⟩
        exact ⟨f, h', rfl, hid, hne, (ownerOf_book s h').mp ho⟩
  | submitted h | submitFailed h =>
    dsimp only
    cases s.entryOf h <;> exact Iff.rfl
  | abortBroadcast requestId =>
    dsimp only
    cases s.requests requestId <;> exact Iff.rfl
  | complete msg =>
    dsimp only
    cases s.requests msg.requestId with
    | none => exact Iff.rfl
    | some h =>
      dsimp only
      cases msg.success with
      | false => exact Iff.rfl
      | true => cases s.verdict h msg <;> exact Iff.rfl
  | _ => exact Iff.rfl

/-- A step after which the accounts balance. -/
def KeepsBalance (s : Coordinator ρ) (e : CoordEvent ρ) : Prop :=
  ∀ t, coordStep s e = some t → t.book.Balanced

theorem owned_init {s : Coordinator ρ} (h : CoordInit s) : s.book.Owned := by
  obtain ⟨entryStage, terminalStages, rfl⟩ := h
  exact ⟨fun _ _ hid => (by cases hid), fun _ _ hc => (by cases hc),
    nofun, nofun, rfl,
    nofun⟩

/-- The runs in which the accounts balance after every step are those in which no resolver
    rejects an admitted request and no failure forgets a request it did not fail. -/
theorem replica_accounting_iff {s t : Coordinator ρ} {events : List (CoordEvent ρ)}
    (hinit : CoordInit s) :
    ((coordSystem ρ).restrict KeepsBalance).Run s events t ↔
      ((coordSystem ρ).restrict fun s e => ¬SkewsCounters s e).Run s events t := by
  refine (System.Run.restrict_iff (P := fun s : Coordinator ρ => s.book.Owned)
    ?_ ?_ (owned_init hinit)).symm
  · intro a e b ha hstep hclean
    exact ha.step (book_step hstep) (mt (skewsCounters_iff a e).mpr hclean)
  · intro a e b ha hstep
    have hbook := book_step hstep
    constructor
    · intro hclean t' hstep'
      obtain rfl := some.inj (hstep.symm.trans hstep')
      exact (ha.step hbook (mt (skewsCounters_iff a e).mpr hclean)).balanced
    · intro hkeeps hskews
      exact ha.not_balanced hbook ((skewsCounters_iff a e).mp hskews) (hkeeps b hstep)

end Runs

/-! ## A counter with no request -/

def exEntry : Coordinator Nat := { entryStage := "preprocess", terminalStages := {"decode"} }

/-- The resolver rejects a request after its replica's counter went up. -/
theorem rejected_request_counted : ∃ t : Coordinator Nat, (coordSystem Nat).Run exEntry
      ([] ++ [.registerStage "preprocess" "inproc://preprocess" none none] ++
        [.submit "r" false none .raises]) t ∧
    t.calls = [] ∧ (t.stages "preprocess").list.map ReplicaInfo.inflight = [1] :=
  ⟨_, .snoc (.snoc (.nil _) rfl) rfl, rfl, rfl⟩

/-- A run in which a request is submitted, fails and is released. -/
theorem replica_accounting_iff_failed : ∃ t : Coordinator Nat,
    ((coordSystem Nat).restrict KeepsBalance).Run exEntry
      ([] ++ [.registerStage "preprocess" "inproc://preprocess" none none] ++
        [.submit "r" false none .unset] ++ [.submitted 0] ++
        [.complete ⟨"r", "decode", false, 0, some "boom"⟩] ++ [.failureBroadcast]) t ∧
    t.calls.map (fun c => c.releases) = [1] := by
  have hinit : CoordInit exEntry := ⟨_, _, rfl⟩
  refine ⟨_, (replica_accounting_iff hinit).mpr (.snoc (.snoc (.snoc (.snoc (.snoc (.nil _)
    ⟨rfl, ?_⟩) ⟨rfl, ?_⟩) ⟨rfl, id⟩) ⟨rfl, id⟩) ⟨rfl, ?_⟩), rfl⟩
  · exact id
  · intro hskews
    cases hskews.2
  · rintro ⟨f, h', hf, hid, hne, -⟩
    cases hf
    cases hid
    exact hne rfl

end OmniRealtime
