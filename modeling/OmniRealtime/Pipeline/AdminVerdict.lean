import OmniRealtime.Pipeline.AdminBroadcast

/-!
# What an admin verdict says

When a successful admin operation means that every replica has run it.

1. `Collected`: what the coordinator has of the replies.
2. `mergeStageReplicaResults_eq`: a stage's result counts as skipped when its first replica skips.
3. `admin_success_iff`: the verdict from the replies.
4. `admin_sound_iff`: where the verdict can be trusted; `skipped_replica_hides_failure`: where not.
-/

namespace OmniRealtime

open List Option AdminResult Dict

/-- A reply, with the replica that it comes from. -/
structure AdminReply where
  replica : ℕ
  result : AdminResult

open AdminReply

def AdminReply.sender (r : AdminReply) : String × ℕ := (r.result.stage, r.replica)

def ofStage (stage : String) (results : List AdminResult) : List AdminResult :=
  results.filter fun r => r.stage = stage

/-- As many replies have come from each stage as it has replicas. -/
def Enough (registry : StageRegistry) (targetStages : List String)
    (results : List AdminResult) : Prop :=
  ∀ s ∈ targetStages, ofStage s results ≠ [] ∧
    registry.replicas s ≤ (ofStage s results).length

/-! ## Collecting -/

section Collecting

variable {registry : StageRegistry} {action opId : String} {targetStages : List String}
variable {results : List AdminResult} {p : AdminPendingOperation} {r : AdminResult}

theorem ofStage_snoc (stage : String) (results : List AdminResult) (r : AdminResult) :
    ofStage stage (results ++ [r]) =
      if stage = r.stage then ofStage stage results ++ [r] else ofStage stage results := by
  unfold ofStage
  rw [filter_append]
  split
  · next heq => rw [filter_cons_of_pos (by simpa using heq.symm), filter_nil]
  · next hne =>
    rw [filter_cons_of_neg (by simpa using fun h => hne h.symm), filter_nil, append_nil]

theorem mem_ofStage {stage : String} : r ∈ ofStage stage results ↔ r ∈ results ∧ r.stage =
    stage := by
  unfold ofStage
  rw [mem_filter, decide_eq_true_eq]

/-- The lists and the counts after some replies. -/
structure Tallied (registry : StageRegistry) (targetStages : List String)
    (results : List AdminResult) (p : AdminPendingOperation) : Prop where
  expected : p.expectedStages = targetStages
  distinct : p.results.keys.Nodup
  lists : ∀ s, p.results.get s = if ofStage s results = [] then none else some (ofStage s results)
  countKeys : p.pendingReplicaCounts.keys.Nodup
  counts : ∀ s, p.pendingReplicaCounts.get s =
    if s ∈ targetStages then some (registry.replicas s - (ofStage s results).length) else none

/-- What the coordinator has of the operation after some replies. -/
structure Collected (registry : StageRegistry) (targetStages : List String)
    (results : List AdminResult) (p : AdminPendingOperation) : Prop
    extends Tallied registry targetStages results p where
  pending : p.future = none → ¬Enough registry targetStages results
  resolved : ∀ stages, p.future = some stages → Enough registry targetStages results ∧
    stages.Nodup ∧ ∀ s, s ∈ stages ↔ s ∈ targetStages

theorem Enough.snoc (h : Enough registry targetStages results) (r : AdminResult) :
    Enough registry targetStages (results ++ [r]) := by
  intro s hs
  obtain ⟨hne, hle⟩ := h s hs
  rw [ofStage_snoc]
  split
  · refine ⟨append_ne_nil_of_left_ne_nil hne _, ?_⟩
    rw [length_append]
    exact hle.trans (Nat.le_add_right ..)
  · exact ⟨hne, hle⟩

theorem collected_start (registry : StageRegistry) (action : String)
    (htargets : targetStages ≠ []) :
    Collected registry targetStages [] (registry.adminPending action targetStages) := by
  have hcounts : ∀ (l : List String) (d : Dict String ℕ), d.keys.Nodup →
      (l.foldl (fun d stage => d.set stage (registry.replicas stage)) d).keys.Nodup ∧
      ∀ s, Dict.get (l.foldl (fun d stage => d.set stage (registry.replicas stage)) d) s =
        if s ∈ l then some (registry.replicas s) else d.get s := by
    intro l
    induction l with
    | nil => exact fun d hd => ⟨hd, fun s => by simp⟩
    | cons stage l ih =>
      intro d hd
      obtain ⟨hnd, hget⟩ := ih (d.set stage (registry.replicas stage)) (nodup_set hd _ _)
      refine ⟨hnd, fun s => ?_⟩
      rw [foldl_cons, hget, get_set hd]
      by_cases hl : s ∈ l
      · rw [if_pos hl, if_pos (mem_cons_of_mem _ hl)]
      · rw [if_neg hl]
        by_cases hs : s = stage
        · rw [if_pos hs, if_pos (hs ▸ mem_cons_self), hs]
        · rw [if_neg hs, if_neg fun hmem => (mem_cons.mp hmem).elim hs hl]
  obtain ⟨hnd, hget⟩ := hcounts targetStages [] nodup_nil
  refine ⟨⟨rfl, nodup_nil, fun s => rfl, hnd, hget⟩, fun _ h => ?_, by rintro _ ⟨⟩⟩
  obtain ⟨s, hs⟩ := exists_mem_of_ne_nil _ htargets
  exact (h s hs).1 rfl

theorem Tallied.mem_keys (h : Tallied registry targetStages results p) (s : String) :
    s ∈ p.results.keys ↔ ofStage s results ≠ [] := by
  rw [← not_iff_not, ← get_eq_none, h.lists]
  split
  · next heq => exact iff_of_true rfl (not_not_intro heq)
  · next hne => exact iff_of_false (some_ne_none _) (not_not_intro hne)

theorem Tallied.isComplete (h : Tallied registry targetStages results p) :
    p.isComplete = true ↔ Enough registry targetStages results := by
  unfold AdminPendingOperation.isComplete
  rw [Bool.and_eq_true, List.all_eq_true, List.all_eq_true, h.expected]
  constructor
  · intro ⟨hkeys, hzero⟩ s hs
    refine ⟨(h.mem_keys s).mp (of_decide_eq_true (hkeys s hs)), ?_⟩
    have hcnt := h.counts s
    rw [if_pos hs, get_eq_some h.countKeys] at hcnt
    exact Nat.sub_eq_zero_iff_le.mp (of_decide_eq_true (hzero _ hcnt))
  · intro henough
    refine ⟨fun s hs => decide_eq_true ((h.mem_keys s).mpr (henough s hs).1), fun e he => ?_⟩
    have hcnt := (get_eq_some h.countKeys).mpr he
    rw [h.counts] at hcnt
    split at hcnt
    · next hs =>
      rw [some.injEq, Nat.sub_eq_zero_of_le (henough _ hs).2] at hcnt
      exact decide_eq_true hcnt.symm
    · cases hcnt

theorem Collected.reply (h : Collected registry targetStages results p) (hop : r.opId = opId)
    (hstages : ∀ r' ∈ results ++ [r], r'.stage ∈ targetStages) :
    Collected registry targetStages (results ++ [r]) (p.handleAdminResult opId r) := by
  have hr : r.stage ∈ targetStages :=
    hstages r (mem_append_right _ (mem_singleton_self r))
  have hcnt := h.counts r.stage
  rw [if_pos hr] at hcnt
  generalize hq : ({ p with
    results := p.results.set r.stage ((p.results.get r.stage).getD [] ++ [r])
    pendingReplicaCounts := p.pendingReplicaCounts.set r.stage
      (registry.replicas r.stage - (ofStage r.stage results).length - 1) } :
    AdminPendingOperation) = q
  have hlist : (p.results.get r.stage).getD [] = ofStage r.stage results := by
    rw [h.lists]
    split
    · next heq => exact heq.symm
    · rfl
  have hst : p.handleAdminResult opId r =
      { q with future := p.future.or (if q.isComplete then some q.results.keys else none) } := by
    unfold AdminPendingOperation.handleAdminResult
    rw [if_neg (not_not_intro hop), hcnt, ← hq]
  have hlists : ∀ s, q.results.get s =
      if ofStage s (results ++ [r]) = [] then none else some (ofStage s (results ++ [r])) := by
    intro s
    rw [← hq, ofStage_snoc]
    rw [get_set h.distinct, hlist]
    by_cases hs : s = r.stage
    · rw [if_pos hs, if_pos hs, hs, if_neg (append_ne_nil_of_right_ne_nil _ (cons_ne_nil r []))]
    · rw [if_neg hs, if_neg hs, h.lists]
  have hcounts : ∀ s, q.pendingReplicaCounts.get s = if s ∈ targetStages then
      some (registry.replicas s - (ofStage s (results ++ [r])).length) else none := by
    intro s
    rw [← hq, ofStage_snoc]
    rw [get_set h.countKeys]
    by_cases hs : s = r.stage
    · rw [if_pos hs, if_pos hs, hs, if_pos hr, length_append, ← Nat.sub_sub]
      rfl
    · rw [if_neg hs, if_neg hs, h.counts]
  have ht : Tallied registry targetStages (results ++ [r]) q := by
    refine ⟨?_, ?_, hlists, ?_, hcounts⟩
    · rw [← hq]
      exact h.expected
    · rw [← hq]
      exact nodup_set h.distinct _ _
    · rw [← hq]
      exact nodup_set h.countKeys _ _
  rw [hst]
  refine ⟨⟨ht.expected, ht.distinct, hlists, ht.countKeys, hcounts⟩, ?_, ?_⟩
  · intro hnone henough
    rw [if_pos (ht.isComplete.mpr henough)] at hnone
    exact absurd (or_eq_none_iff.mp hnone).2 nofun
  · intro stages hsome
    cases hfuture : p.future with
    | some stages' =>
      rw [hfuture] at hsome
      cases hsome
      obtain ⟨henough, hrest⟩ := h.resolved stages hfuture
      exact ⟨henough.snoc r, hrest⟩
    | none =>
      rw [hfuture, none_or] at hsome
      split at hsome
      · next hcomplete =>
        cases hsome
        have henough := ht.isComplete.mp hcomplete
        refine ⟨henough, ht.distinct, fun s => ?_⟩
        rw [ht.mem_keys]
        constructor
        · intro hne
          obtain ⟨r', hr'⟩ := exists_mem_of_ne_nil _ hne
          obtain ⟨hmem, rfl⟩ := mem_ofStage.mp hr'
          exact hstages r' hmem
        · exact fun hs => (henough s hs).1
      · cases hsome

theorem collected (registry : StageRegistry) (action : String)
    (hop : ∀ r ∈ results, r.opId = opId) (hstages : ∀ r ∈ results, r.stage ∈ targetStages)
    (htargets : targetStages ≠ []) : Collected registry targetStages results
      (results.foldl (fun p reply => p.handleAdminResult opId reply)
        (registry.adminPending action targetStages)) := by
  induction results using List.reverseRecOn with
  | nil => exact collected_start registry action htargets
  | append_singleton results r ih =>
    rw [foldl_append]
    refine (ih ?_ ?_).reply (hop r (mem_append_right _ (mem_singleton_self r))) hstages
    · exact fun r' hr' => hop r' (mem_append_left _ hr')
    · exact fun r' hr' => hstages r' (mem_append_left _ hr')

end Collecting

/-! ## Merging -/

/-- The reply that gives a stage's result its data. -/
def leadReply (items : List AdminResult) : Option AdminResult :=
  (items.insertionSort AdminResult.Before).head?

section Merging

variable {opId action stage : String} {items : List AdminResult}

theorem leadReply_isSome (h : items ≠ []) : ∃ first, leadReply items = some first := by
  unfold leadReply
  cases hsort : items.insertionSort Before with
  | nil =>
    have hperm := perm_insertionSort Before items
    rw [hsort] at hperm
    exact absurd (nil_perm.mp hperm) h
  | cons first rest => exact ⟨first, rfl⟩

theorem skipped_of_data {r r' : AdminResult} {value : AdminValue}
    (hd : r.data = r'.data.set "replica_results" value) : r.skipped = r'.skipped := by
  unfold skipped flag
  rw [hd, get_set_of_ne (by decide), get_set_of_ne (by decide)]

theorem all_insertionSort (items : List AdminResult) :
    (items.insertionSort AdminResult.Before).all AdminResult.success =
      items.all AdminResult.success := by
  rw [Bool.eq_iff_iff, List.all_eq_true, List.all_eq_true]
  have hperm := perm_insertionSort Before items
  exact ⟨fun h r hr => h r (hperm.mem_iff.mpr hr), fun h r hr => h r (hperm.mem_iff.mp hr)⟩

/-- A stage's result is a success when all of its replies are, and it counts as skipped when its
    first replica has skipped. -/
theorem mergeStageReplicaResults_eq (opId action : String) (hne : items ≠ [])
    (hstage : ∀ r ∈ items, r.stage = stage) :
    ∃ m first, mergeStageReplicaResults opId action stage items = some m ∧
      leadReply items = some first ∧ m.stage = stage ∧
      m.success = items.all success ∧ m.skipped = first.skipped := by
  unfold mergeStageReplicaResults
  split
  · next item =>
    refine ⟨item, item, rfl, rfl, hstage item (mem_singleton_self item), ?_, rfl⟩
    rw [all_cons, all_nil, Bool.and_true]
  · obtain ⟨first, hfirst⟩ := leadReply_isSome hne
    have hhead : (items.insertionSort Before).head? = some first := hfirst
    dsimp only
    rw [hhead]
    refine ⟨_, first, rfl, hfirst, rfl, ?_, ?_⟩
    · exact all_insertionSort items
    · exact skipped_of_data rfl

end Merging

/-! ## The verdict -/

/-- A replica failed, and the first replica of the stage skipped. -/
def Masked (items : List AdminResult) : Prop :=
  (∃ first, leadReply items = some first ∧ first.skipped = true) ∧
    ∃ r ∈ items, r.skipped = false ∧ r.success = false

/-- A weight update only counts the stages whose first replica did not skip it. -/
def Counts (action : String) (items : List AdminResult) : Prop :=
  isUpdateAction action = true → ∃ first, leadReply items = some first ∧ first.skipped = false

/-- No stage counts, or one that counts has a reply that is no success. -/
def FailsAnyway (action : String) (targetStages : List String)
    (results : List AdminResult) : Prop :=
  (∀ s ∈ targetStages, ¬Counts action (ofStage s results)) ∨
    ∃ s ∈ targetStages, Counts action (ofStage s results) ∧
      ∃ r ∈ ofStage s results, r.success = false

section Verdict

variable {registry : StageRegistry} {action opId : String} {stages : Option (List String)}
variable {targetStages : List String} {results : List AdminResult} {report : AdminReport}

theorem mapM_some {α β : Type*} {f : α → Option β} {l : List α} (h : ∀ a ∈ l, ∃ b, f a = some b) :
    ∃ bs, l.mapM f = some bs ∧ List.Forall₂ (fun a b => f a = some b) l bs := by
  induction l with
  | nil => exact ⟨[], rfl, .nil⟩
  | cons a l ih =>
    obtain ⟨b, hb⟩ := h a mem_cons_self
    obtain ⟨bs, hbs, hall⟩ := ih fun a' ha' => h a' (mem_cons_of_mem _ ha')
    refine ⟨b :: bs, ?_, .cons hb hall⟩
    rw [mapM_cons, hb, hbs]
    rfl

/-- The report of an operation: a result for each stage, from its replies. -/
structure IsReport (action : String) (targetStages : List String) (results : List AdminResult)
    (report : AdminReport) : Prop where
  merged : ∀ m ∈ report.results, ∃ first, m.stage ∈ targetStages ∧
    leadReply (ofStage m.stage results) = some first ∧ m.skipped = first.skipped ∧
    m.success = (ofStage m.stage results).all AdminResult.success
  stages : ∀ s ∈ targetStages, ∃ m ∈ report.results, m.stage = s
  success : report.success = if isUpdateAction action then
      !(report.results.filter fun m => !m.skipped).isEmpty &&
        (report.results.filter fun m => !m.skipped).all AdminResult.success
    else report.results.all AdminResult.success

theorem aggregate_reports (opId action : String) {stages : List String}
    (hstages : ∀ s, s ∈ stages ↔ s ∈ targetStages) (hne : ∀ s ∈ stages, ofStage s results ≠ []) :
    ∃ report, aggregateAdminResults opId action (stages.map fun s => (s, ofStage s results)) =
      some report ∧ IsReport action targetStages results report := by
  have hmerge : ∀ e ∈ stages.map fun s => (s, ofStage s results),
      ∃ m, mergeStageReplicaResults opId action e.1 e.2 = some m := by
    intro e he
    obtain ⟨s, hs, rfl⟩ := mem_map.mp he
    obtain ⟨m, -, hm, -⟩ := mergeStageReplicaResults_eq opId action (hne s hs)
      fun r hr => (mem_ofStage.mp hr).2
    exact ⟨m, hm⟩
  obtain ⟨ms, hms, hall⟩ := mapM_some hmerge
  refine ⟨_, by unfold aggregateAdminResults; rw [hms]; rfl, ?_, ?_, rfl⟩
  · intro m hm
    obtain ⟨k, hk, rfl⟩ := mem_iff_getElem.mp hm
    have hk' : k < stages.length := by
      have hlen := hall.length_eq
      rw [length_map] at hlen
      exact hlen ▸ hk
    have hmerged := hall.get (by rwa [length_map]) hk
    rw [get_eq_getElem, getElem_map] at hmerged
    have hs : stages[k] ∈ stages := getElem_mem hk'
    obtain ⟨m, first, hm', hfirst, hstage, hsuccess, hskipped⟩ :=
      mergeStageReplicaResults_eq opId action (hne _ hs) fun r hr => (mem_ofStage.mp hr).2
    obtain rfl : m = ms[k] := some.inj (hm'.symm.trans hmerged)
    rw [hstage]
    exact ⟨first, (hstages _).mp hs, hfirst, hskipped, hsuccess⟩
  · intro s hs
    obtain ⟨k, hk, hsk⟩ := mem_iff_getElem.mp ((hstages s).mpr hs)
    have hk' : k < ms.length := by
      rw [← hall.length_eq, length_map]
      exact hk
    have hmerged := hall.get (by rwa [length_map]) hk'
    rw [get_eq_getElem, getElem_map] at hmerged
    obtain ⟨m, first, hm', -, hstage, -⟩ :=
      mergeStageReplicaResults_eq opId action (hne _ ((hstages s).mpr hs))
        fun r hr => (mem_ofStage.mp hr).2
    subst hsk
    obtain rfl : m = ms[k] := some.inj (hm'.symm.trans hmerged)
    exact ⟨ms[k], getElem_mem hk', hstage⟩

theorem admin_report (action : String)
    (htargets : registry.resolveAdminStages stages = some targetStages)
    (hne : targetStages ≠ []) (hop : ∀ r ∈ results, r.opId = opId)
    (hstages : ∀ r ∈ results, r.stage ∈ targetStages) :
    (Enough registry targetStages results ∧
      ∃ report, registry.admin opId action stages results = some report ∧
        IsReport action targetStages results report) ∨
    (¬Enough registry targetStages results ∧ registry.admin opId action stages results = none) := by
  have hcollected := collected registry action hop hstages hne
  unfold StageRegistry.admin
  rw [htargets]
  dsimp only [bind, Option.bind]
  rw [if_neg hne]
  cases hfuture : (results.foldl (fun p reply => p.handleAdminResult opId reply)
      (registry.adminPending action targetStages)).future with
  | none => exact .inr ⟨hcollected.pending hfuture, rfl⟩
  | some resolved =>
    obtain ⟨henough, -, hmem⟩ := hcollected.resolved resolved hfuture
    have hnonempty : ∀ s ∈ resolved, ofStage s results ≠ [] :=
      fun s hs => (henough s ((hmem s).mp hs)).1
    have hlists : (resolved.map fun s => (s, ((results.foldl (fun p reply =>
        p.handleAdminResult opId reply) (registry.adminPending action targetStages)).results.get
          s).getD [])) = resolved.map fun s => (s, ofStage s results) := by
      refine map_congr_left fun s hs => ?_
      rw [hcollected.lists, if_neg (hnonempty s hs)]
      rfl
    refine .inl ⟨henough, ?_⟩
    dsimp only
    rw [hlists]
    exact aggregate_reports opId action hmem hnonempty

theorem counts_of_not_update (h : ¬isUpdateAction action = true) (items : List AdminResult) :
    Counts action items := fun hupd => absurd hupd h

/-- Without a masked failure, a verdict is a success unless the operation fails anyway. -/
theorem IsReport.success_iff (h : IsReport action targetStages results report)
    (hne : targetStages ≠ []) :
    report.success = true ↔ ¬FailsAnyway action targetStages results := by
  rw [h.success]
  split
  · next hupd =>
    have hcounts : ∀ m ∈ report.results,
        (Counts action (ofStage m.stage results) ↔ m.skipped = false) := by
      intro m hm
      obtain ⟨first, -, hfirst, hskipped, -⟩ := h.merged m hm
      rw [hskipped]
      constructor
      · intro hc
        obtain ⟨first', hfirst', hgo⟩ := hc hupd
        obtain rfl := some.inj (hfirst.symm.trans hfirst')
        exact hgo
      · exact fun hgo _ => ⟨first, hfirst, hgo⟩
    rw [Bool.and_eq_true, List.all_eq_true]
    constructor
    · intro ⟨hsome, hall⟩ hfails
      rcases hfails with hnone | ⟨s, hs, hc, r, hr, hfailed⟩
      · cases hfilter : report.results.filter fun m => !m.skipped with
        | nil =>
          rw [hfilter] at hsome
          cases hsome
        | cons m _ =>
          obtain ⟨hm, hgo⟩ := mem_filter.mp (hfilter.symm ▸ mem_cons_self :
            m ∈ report.results.filter fun m => !m.skipped)
          obtain ⟨first, hstage, -⟩ := h.merged m hm
          exact hnone _ hstage ((hcounts m hm).mpr (Bool.not_eq_true' _ ▸ hgo))
      · obtain ⟨m, hm, rfl⟩ := h.stages s hs
        have hgo := (hcounts m hm).mp hc
        have hmem : m ∈ report.results.filter fun m => !m.skipped :=
          mem_filter.mpr ⟨hm, by rw [hgo]; rfl⟩
        obtain ⟨first, -, -, -, hsuccess⟩ := h.merged m hm
        have hall := (hsuccess.symm.trans (hall m hmem))
        exact absurd (hfailed.symm.trans (all_eq_true.mp hall r hr)) nofun
    · intro hfails
      obtain ⟨hsome, hgood⟩ := not_or.mp hfails
      obtain ⟨s, hs⟩ := not_forall.mp hsome
      obtain ⟨hs, hc⟩ := Classical.not_imp.mp hs
      obtain ⟨m, hm, rfl⟩ := h.stages s hs
      have hgo := (hcounts m hm).mp (not_not.mp hc)
      refine ⟨?_, fun m' hm' => ?_⟩
      · have hmem : m ∈ report.results.filter fun m => !m.skipped :=
          mem_filter.mpr ⟨hm, by rw [hgo]; rfl⟩
        cases hfilter : report.results.filter fun m => !m.skipped with
        | nil =>
          rw [hfilter] at hmem
          cases hmem
        | cons _ _ => rfl
      · obtain ⟨hm', hgo'⟩ := mem_filter.mp hm'
        obtain ⟨first, hstage, -, -, hsuccess⟩ := h.merged m' hm'
        rw [hsuccess, List.all_eq_true]
        intro r hr
        refine Bool.of_not_eq_false fun hfailed => hgood ⟨m'.stage, hstage, ?_, r, hr, hfailed⟩
        exact (hcounts m' hm').mpr (Bool.not_eq_true' _ ▸ hgo')
  · next hother =>
    rw [List.all_eq_true]
    constructor
    · intro hall hfails
      rcases hfails with hnone | ⟨s, hs, -, r, hr, hfailed⟩
      · obtain ⟨s, hs⟩ := exists_mem_of_ne_nil _ hne
        exact hnone s hs (counts_of_not_update hother _)
      · obtain ⟨m, hm, rfl⟩ := h.stages s hs
        obtain ⟨first, -, -, -, hsuccess⟩ := h.merged m hm
        have hall := (hsuccess.symm.trans (hall m hm))
        exact absurd (hfailed.symm.trans (all_eq_true.mp hall r hr)) nofun
    · intro hfails m hm
      obtain ⟨first, hstage, -, -, hsuccess⟩ := h.merged m hm
      rw [hsuccess, List.all_eq_true]
      intro r hr
      refine Bool.of_not_eq_false fun hfailed => hfails (.inr ⟨m.stage, hstage, ?_, r, hr, hfailed⟩)
      exact counts_of_not_update hother _

end Verdict

/-! ## Replicas -/

/-- The replies of a stage come from as many replicas as it has. -/
def AllAnswered (registry : StageRegistry) (targetStages : List String)
    (replies : List AdminReply) : Prop :=
  ∀ s ∈ targetStages, registry.replicas s ≤
    ((replies.filter fun r => r.result.stage = s).map AdminReply.replica).dedup.length

section Replicas

variable {registry : StageRegistry} {targetStages : List String} {replies : List AdminReply}

section

variable (hsent : (replies.map AdminReply.sender).Subperm (registry.adminSends targetStages))
include hsent

theorem sender_of_sent {r : AdminReply} (hr : r ∈ replies) :
    r.result.stage ∈ targetStages ∧ r.replica < registry.replicas r.result.stage := by
  obtain ⟨s, hs, hmem⟩ := mem_flatMap.mp (hsent.subset (mem_map_of_mem hr))
  obtain ⟨k, hk, heq⟩ := mem_map.mp hmem
  obtain ⟨rfl, rfl⟩ := Prod.mk.inj heq
  exact ⟨hs, mem_range.mp hk⟩

theorem allAnswered_iff :
    AllAnswered registry targetStages replies ↔
      ∀ s ∈ targetStages, ∀ k < registry.replicas s, ∃ r ∈ replies, r.sender = (s, k) := by
  refine forall₂_congr fun s hs => ?_
  set heard := (replies.filter fun r => r.result.stage = s).map AdminReply.replica with hheard
  have hmem : ∀ k, k ∈ heard.toFinset ↔ ∃ r ∈ replies, r.sender = (s, k) := by
    intro k
    rw [List.mem_toFinset, hheard, List.mem_map]
    constructor
    · intro ⟨r, hr, hk⟩
      obtain ⟨hr, hstage⟩ := mem_filter.mp hr
      exact ⟨r, hr, Prod.ext (of_decide_eq_true hstage) hk⟩
    · intro ⟨r, hr, hsender⟩
      obtain ⟨hstage, hk⟩ := Prod.mk.inj hsender
      exact ⟨r, mem_filter.mpr ⟨hr, decide_eq_true hstage⟩, hk⟩
  have hsub : heard.toFinset ⊆ Finset.range (registry.replicas s) := by
    intro k hk
    obtain ⟨r, hr, hsender⟩ := (hmem k).mp hk
    obtain ⟨rfl, rfl⟩ := Prod.mk.inj hsender
    exact Finset.mem_range.mpr (sender_of_sent hsent hr).2
  rw [← List.card_toFinset]
  constructor
  · intro hcard k hk
    have heq := Finset.eq_of_subset_of_card_le hsub (by rwa [Finset.card_range])
    exact (hmem k).mp (heq ▸ Finset.mem_range.mpr hk)
  · intro hall
    have hle := Finset.card_le_card fun k hk => (hmem k).mpr (hall k (Finset.mem_range.mp hk))
    rwa [Finset.card_range] at hle

end

end Replicas

/-! ## What a verdict means -/

/-- A success means that every replica has replied and that no replica that ran the operation has
    failed; the result of a stage with such a failure is a failure, and it counts. -/
structure Sound (registry : StageRegistry) (targetStages : List String)
    (replies : List AdminReply) (report : AdminReport) : Prop where
  replied : report.success = true →
    ∀ s ∈ targetStages, ∀ k < registry.replicas s, ∃ r ∈ replies, r.sender = (s, k)
  succeeded : report.success = true →
    ∀ r ∈ replies, r.result.skipped = false → r.result.success = true
  shown : ∀ m ∈ report.results, (∃ r ∈ replies, r.result.stage = m.stage ∧
    r.result.skipped = false ∧ r.result.success = false) → m.success = false ∧ m.skipped = false

/-- When the last reply that is waited for is in, no stage has the skip of its first replica over
    the failure of another; and each stage has been answered by all of its replicas, unless the
    operation fails anyway. -/
def Unharmed (registry : StageRegistry) (action : String) (targetStages : List String)
    (replies : List AdminReply) : Prop :=
  Enough registry targetStages (replies.map AdminReply.result) →
    (∀ s ∈ targetStages, ¬Masked (ofStage s (replies.map AdminReply.result))) ∧
      (AllAnswered registry targetStages replies ∨
        FailsAnyway action targetStages (replies.map AdminReply.result))

/-- For every operation on any list of stages, and all replies that can have come when it ends: its
    verdict is sound exactly when the replies leave it unharmed. -/
theorem admin_sound_iff {registry : StageRegistry} {opId action : String}
    {stages : Option (List String)} {targetStages : List String} {replies : List AdminReply}
    (htargets : registry.resolveAdminStages stages = some targetStages)
    (hop : ∀ r ∈ replies, r.result.opId = opId)
    (hsent : (replies.map AdminReply.sender).Subperm (registry.adminSends targetStages)) :
    (∀ report, registry.admin opId action stages (replies.map AdminReply.result) = some report →
      Sound registry targetStages replies report) ↔
    Unharmed registry action targetStages replies := by
  by_cases hne : targetStages = []
  · subst hne
    constructor
    · exact fun _ _ => ⟨nofun, .inl nofun⟩
    · intro _ report hreport
      unfold StageRegistry.admin at hreport
      rw [htargets] at hreport
      cases hreport
  have hop' : ∀ r ∈ replies.map result, r.opId = opId := by
    intro r hr
    obtain ⟨reply, hreply, rfl⟩ := mem_map.mp hr
    exact hop reply hreply
  have hstages : ∀ r ∈ replies.map result, r.stage ∈ targetStages := by
    intro r hr
    obtain ⟨reply, hreply, rfl⟩ := mem_map.mp hr
    exact (sender_of_sent hsent hreply).1
  rcases admin_report action htargets hne hop' hstages with
    ⟨henough, report, hadmin, hreport⟩ | ⟨hfew, hadmin⟩
  · rw [hadmin]
    constructor
    · intro hsound _
      have hsound := hsound report rfl
      refine ⟨fun s hs hmasked => ?_, ?_⟩
      · obtain ⟨⟨first, hfirst, hskip⟩, r, hr, hran, hfailed⟩ := hmasked
        obtain ⟨m, hm, rfl⟩ := hreport.stages s hs
        obtain ⟨hr, hstage⟩ := mem_ofStage.mp hr
        obtain ⟨reply, hreply, rfl⟩ := mem_map.mp hr
        obtain ⟨first', -, hfirst', hskipped, -⟩ := hreport.merged m hm
        obtain rfl := some.inj (hfirst.symm.trans hfirst')
        have hcounts := (hsound.shown m hm ⟨reply, hreply, hstage, hran, hfailed⟩).2
        exact absurd (hskip.symm.trans (hskipped.symm.trans hcounts)) nofun
      · by_cases hfails : FailsAnyway action targetStages (replies.map result)
        · exact .inr hfails
        · have hsuccess := (hreport.success_iff hne).mpr hfails
          exact .inl ((allAnswered_iff hsent).mpr (hsound.replied hsuccess))
    · intro hunharmed report' heq
      cases heq
      obtain ⟨hmasked, hanswered⟩ := hunharmed henough
      have hresult : ∀ r ∈ replies,
          r.result ∈ ofStage r.result.stage (replies.map result) :=
        fun r hr => mem_ofStage.mpr ⟨mem_map_of_mem hr, rfl⟩
      refine ⟨fun hsuccess => ?_, fun hsuccess r hr hran => ?_, ?_⟩
      · have hgood := (hreport.success_iff hne).mp hsuccess
        exact (allAnswered_iff hsent).mp (hanswered.resolve_right hgood)
      · refine Bool.of_not_eq_false fun hfailed => (hreport.success_iff hne).mp hsuccess ?_
        have hstage := (sender_of_sent hsent hr).1
        refine .inr ⟨_, hstage, fun _ => ?_, r.result, hresult r hr, hfailed⟩
        obtain ⟨first, hfirst⟩ := leadReply_isSome (henough _ hstage).1
        refine ⟨first, hfirst, Bool.of_not_eq_true fun hskip => hmasked _ hstage ?_⟩
        exact ⟨⟨first, hfirst, hskip⟩, r.result, hresult r hr, hran, hfailed⟩
      · intro m hm ⟨r, hr, hstage, hran, hfailed⟩
        obtain ⟨first, hmstage, hfirst, hskipped, hsuccess⟩ := hreport.merged m hm
        have hmem := hresult r hr
        rw [hstage] at hmem
        constructor
        · rw [hsuccess, List.all_eq_false]
          exact ⟨r.result, hmem, by rw [hfailed]; exact Bool.false_ne_true⟩
        · rw [hskipped]
          refine Bool.of_not_eq_true fun hskip => hmasked _ hmstage ?_
          exact ⟨⟨first, hfirst, hskip⟩, r.result, hmem, hran, hfailed⟩
  · constructor
    · exact fun _ henough => absurd henough hfew
    · intro _ report hreport
      rw [hadmin] at hreport
      cases hreport

/-! ## Two replicas of a stage -/

def exRegistry : StageRegistry := [("talker", 1), ("thinker", 2)]

def exTalker : AdminReply :=
  ⟨0, { opId := "op", stage := "talker", action := "update_weights_from_disk", success := true }⟩

def exThinker (replica : ℕ) (success : Bool) (data : Dict String AdminValue) : AdminReply :=
  ⟨replica, {
    opId := "op", stage := "thinker", action := "update_weights_from_disk", success := success
    data := data, dpRank := some replica }⟩

/-- The replies of an update that the first replica of the thinker does not support, and that the
    second one has failed. -/
def exSkipped : List AdminReply :=
  [exTalker, exThinker 0 true [("skipped", .bool true), ("unsupported", .bool true)],
    exThinker 1 false []]

theorem skipped_replica_hides_failure :
    (exSkipped.map AdminReply.sender).Subperm
        (exRegistry.adminSends ["talker", "thinker"]) ∧
      ∃ report, exRegistry.admin "op" "update_weights_from_disk" none
          (exSkipped.map AdminReply.result) = some report ∧ report.success = true ∧
        ¬Sound exRegistry ["talker", "thinker"] exSkipped report := by
  refine ⟨(List.Perm.refl _).subperm, ?_⟩
  have hrun : (exRegistry.admin "op" "update_weights_from_disk" none
      (exSkipped.map result)).map AdminReport.success = some true := by
    decide +kernel
  obtain ⟨report, hreport, hsuccess⟩ := map_eq_some_iff.mp hrun
  refine ⟨report, hreport, hsuccess, fun hsound => ?_⟩
  have hmem : exThinker 1 false [] ∈ exSkipped :=
    mem_cons_of_mem _ (mem_cons_of_mem _ mem_cons_self)
  exact absurd (hsound.succeeded hsuccess _ hmem rfl) nofun

/-- A stage that is named twice, and that its first replica has answered twice. -/
def exTwice : List AdminReply := [exThinker 0 true [], exThinker 0 true []]

theorem admin_sound_iff_thinker :
    ¬∀ report, exRegistry.admin "op" "pause_generation" (some ["thinker", "thinker"])
        (exTwice.map AdminReply.result) = some report →
      Sound exRegistry ["thinker", "thinker"] exTwice report := by
  have htargets : exRegistry.resolveAdminStages (some ["thinker", "thinker"]) =
      some ["thinker", "thinker"] := by
    decide
  have hop : ∀ r ∈ exTwice, r.result.opId = "op" := by
    simp [exTwice, exThinker]
  have hsent : (exTwice.map sender).Subperm
      (exRegistry.adminSends ["thinker", "thinker"]) := by
    refine List.Sublist.subperm ?_
    decide
  have henough : Enough exRegistry ["thinker", "thinker"] (exTwice.map result) := by
    intro s hs
    obtain rfl : s = "thinker" := by simpa using hs
    exact ⟨cons_ne_nil _ _, by decide⟩
  intro hsound
  obtain ⟨-, hanswered⟩ := (admin_sound_iff htargets hop hsent).mp hsound henough
  rcases hanswered with hall | hnone | ⟨s, hs, -, r, hr, hfailed⟩
  · exact absurd (hall "thinker" mem_cons_self) (by decide)
  · exact hnone "thinker" mem_cons_self (counts_of_not_update (by decide) _)
  · obtain ⟨hr, -⟩ := mem_ofStage.mp hr
    have hsuccess : ∀ r ∈ exTwice.map result, r.success = true := by
      simp [exTwice, exThinker]
    exact absurd (hfailed.symm.trans (hsuccess r hr)) nofun

end OmniRealtime
