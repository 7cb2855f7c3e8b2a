import OmniRealtime.Pipeline.TpFanout

/-!
# Whose results an admin operation reports

`pipeline/tp_control.py` and `_on_admin` of `pipeline/stage/runtime.py`.

1. `leaderResult_success`, `forall_opId_of_collect`: the result on the messages that were read.
2. `Inv.step`: kept as long as every thread reads the reply to its own operation.
3. `tp_admin_attributed`: the runs in which they do.
-/

namespace OmniRealtime

open List Option Function ReplyLane

/-! ## The leader's result -/

theorem forall_opId_of_collect {opId : String} {messages replies : List AdminResult}
    (h : collectAdminResults opId messages = .ok replies) :
    replies = messages ∧ ∀ reply ∈ replies, reply.opId = opId := by
  unfold collectAdminResults at h
  split at h
  · cases h
  · rename_i hfind
    cases h
    refine ⟨rfl, fun reply hreply => ?_⟩
    simpa using find?_eq_none.mp hfind reply hreply

theorem collect_eq_ok (opId : String) {messages : List AdminResult}
    (h : ∀ message ∈ messages, message.opId = opId) :
    collectAdminResults opId messages = .ok messages := by
  have hfind : messages.find? (fun message => message.opId ≠ opId) = none := by
    rw [find?_eq_none]
    intro message hmessage
    simpa using h message hmessage
  unfold collectAdminResults
  rw [hfind]

variable {operation : AdminOperation}

/-- The verdict: the leader and all followers whose messages were read, if they were. -/
theorem leaderResult_success {leader : TpRank} {own : AdminResult}
    {followers : Except String (List AdminResult)} :
    (leaderResult leader operation own followers).success = true ↔
      ∃ replies, followers = .ok replies ∧ own.success = true ∧
        ∀ reply ∈ replies, reply.success = true := by
  cases followers with
  | error e => simp [leaderResult, failedCollection]
  | ok replies => simp [leaderResult, Except.toOption]

namespace TpAdmin

variable {n : ℕ} {s t : TpAdmin n} {act : TpEvent n}

/-! ## The claim -/

/-- The follower has run the operation, and its successful reply has arrived in time. -/
def RepliedInTime (s : TpAdmin n) (k : Fin n) (opId : String) : Prop :=
  ∃ reply ∈ (s.lanes k).timely, reply.opId = opId ∧ reply.success = true

structure Attributed (s : TpAdmin n) : Prop where
  verdict : ∀ report ∈ s.reports, report.result.success = true ↔
    report.own.success = true ∧ ∀ k, s.RepliedInTime k report.operation.opId
  merged : ∀ report ∈ s.reports, ∀ reply ∈ report.replies,
    reply.opId = report.operation.opId

/-- A thread that reads the queue of a follower finds the reply to its own operation. -/
def readsOwn (s : TpAdmin n) : TpEvent n → Bool
  | .take k opId => (s.lanes k).queue.head?.all fun reply => decide (reply.opId = opId)
  | _ => true

/-! ## The invariant -/

abbrev LaneInv (asked : List String) (lane : FollowerLane) : Prop :=
  ReplyLane.Inv AdminOperation.opId AdminResult.opId asked lane

/-- What the leader waits for: a message that it has read is the timely reply to its operation,
    and each other one has a thread that waits for it. -/
structure Collecting (s : TpAdmin n) (opId : String) (got : Fin n → Option AdminResult) : Prop where
  issued : opId ∈ s.issued
  unreported : opId ∉ s.reported
  read : ∀ k reply, got k = some reply → reply.opId = opId ∧ reply ∈ (s.lanes k).timely
  unread : ∀ k, got k = none → opId ∈ (s.lanes k).readers

/-- The operation is handed to the followers, and no thread has been started for it. -/
structure Running (s : TpAdmin n) (opId : String) : Prop where
  issued : opId ∈ s.issued
  unreported : opId ∉ s.reported
  untaken : ∀ k, opId ∈ (s.lanes k).untaken AdminOperation.opId AdminResult.opId
  unread : ∀ k, opId ∉ (s.lanes k).readers

structure Inv (s : TpAdmin n) : Prop extends s.Attributed where
  nodup : s.issued.Nodup
  lanes : ∀ k, LaneInv s.issued (s.lanes k)
  issued : ∀ opId ∈ s.reported, opId ∈ s.issued
  inTime : ∀ k, ∀ reply ∈ (s.lanes k).queue,
    reply.opId ∈ s.reported ∨ reply ∈ (s.lanes k).timely
  running : ∀ operation, s.phase = .running operation → s.Running operation.opId
  collecting : ∀ operation own got, s.phase = .collecting operation own got →
    s.Collecting operation.opId got

theorem Inv.initial (leader : TpRank) (followers : Fin n → TpRank) :
    ({ leader := leader, followers := followers } : TpAdmin n).Inv where
  verdict _ hmem := absurd hmem not_mem_nil
  merged _ hmem := absurd hmem not_mem_nil
  nodup := nodup_nil
  lanes _ := ReplyLane.Inv.empty
  issued _ hmem := absurd hmem not_mem_nil
  inTime _ _ hmem := absurd hmem not_mem_nil
  running operation h := by cases h
  collecting operation own got h := by cases h

@[simp] theorem setLane_phase (k : Fin n) (lane : FollowerLane) :
    (s.setLane k lane).phase = s.phase := rfl

namespace Inv

/-! ### Lanes -/

/-- A change of one lane. The replies of answered operations stay as they are, and the operation
    under way keeps the threads and the replies that it waits for. -/
theorem setLane (h : s.Inv) {k : Fin n} {lane : FollowerLane} (hl : LaneInv s.issued lane)
    (hreaders : lane.readers ⊆ (s.lanes k).readers)
    (hrunning : ∀ operation, s.phase = .running operation →
      operation.opId ∈ lane.untaken AdminOperation.opId AdminResult.opId)
    (hwts : ∀ operation own got, s.phase = .collecting operation own got → got k = none →
      operation.opId ∈ lane.readers)
    (hgrows : (s.lanes k).timely ⊆ lane.timely)
    (hold : ∀ reply ∈ lane.timely, reply.opId ∈ s.reported → reply ∈ (s.lanes k).timely)
    (hq : ∀ reply ∈ lane.queue, reply.opId ∈ s.reported ∨ reply ∈ lane.timely) :
    (s.setLane k lane).Inv := by
  have hsame {j : Fin n} (hj : j ≠ k) : (s.setLane k lane).lanes j = s.lanes j :=
    update_of_ne hj _ _
  have hself : (s.setLane k lane).lanes k = lane := update_self _ _ _
  have hreplied (j : Fin n) (opId : String) (hop : opId ∈ s.reported) :
      (s.setLane k lane).RepliedInTime j opId ↔ s.RepliedInTime j opId := by
    unfold RepliedInTime
    by_cases hj : j = k
    · subst hj
      rw [hself]
      constructor
      · rintro ⟨reply, hmem, rfl, hsuc⟩
        exact ⟨reply, hold reply hmem hop, rfl, hsuc⟩
      · rintro ⟨reply, hmem, rfl, hsuc⟩
        exact ⟨reply, hgrows hmem, rfl, hsuc⟩
    · rw [hsame hj]
  exact { h with
    verdict := fun report hreport => by
      rw [h.verdict report hreport]
      have hop : report.operation.opId ∈ s.reported := mem_map_of_mem hreport
      exact and_congr_right fun _ => forall_congr' fun j => (hreplied j _ hop).symm
    lanes := fun j => by
      by_cases hj : j = k
      · subst hj
        rw [hself]
        exact hl
      · rw [hsame hj]
        exact h.lanes j
    inTime := fun j => by
      by_cases hj : j = k
      · subst hj
        rw [hself]
        exact hq
      · rw [hsame hj]
        exact h.inTime j
    running := fun operation hp => by
      have hr := h.running operation hp
      exact {
        issued := hr.issued
        unreported := hr.unreported
        untaken := fun j => by
          by_cases hj : j = k
          · subst hj
            rw [hself]
            exact hrunning operation hp
          · rw [hsame hj]
            exact hr.untaken j
        unread := fun j hmem => by
          by_cases hj : j = k
          · subst hj
            rw [hself] at hmem
            exact hr.unread _ (hreaders hmem)
          · rw [hsame hj] at hmem
            exact hr.unread j hmem }
    collecting := fun operation own got hp => by
      have hc := h.collecting operation own got hp
      exact {
        issued := hc.issued
        unreported := hc.unreported
        read := fun j reply hgot => by
          obtain ⟨hop, hmem⟩ := hc.read j reply hgot
          refine ⟨hop, ?_⟩
          by_cases hj : j = k
          · subst hj
            rw [hself]
            exact hgrows hmem
          · rw [hsame hj]
            exact hmem
        unread := fun j hgot => by
          by_cases hj : j = k
          · subst hj
            rw [hself]
            exact hwts operation own got hp hgot
          · rw [hsame hj]
            exact hc.unread j hgot } }

theorem report (h : s.Inv) (own : AdminResult) (followers : Except String (List AdminResult))
    (hissued : operation.opId ∈ s.issued)
    (hverdict : (leaderResult s.leader operation own followers).success = true ↔
      own.success = true ∧ ∀ k, s.RepliedInTime k operation.opId)
    (hmerged : ∀ replies, followers = .ok replies →
      ∀ reply ∈ replies, reply.opId = operation.opId) :
    (s.report operation own followers).Inv :=
  { h with
    verdict := fun report hreport => by
      rcases mem_append.mp hreport with hreport | hreport
      · exact h.verdict report hreport
      · obtain rfl := mem_singleton.mp hreport
        exact hverdict
    merged := fun report hreport => by
      rcases mem_append.mp hreport with hreport | hreport
      · exact h.merged report hreport
      · obtain rfl := mem_singleton.mp hreport
        cases followers with
        | error e => nofun
        | ok replies => exact hmerged replies rfl
    issued := fun opId hop => by
      unfold reported at hop
      rw [TpAdmin.report, map_append, mem_append] at hop
      rcases hop with hop | hop
      · exact h.issued opId hop
      · rw [map_singleton, mem_singleton] at hop
        exact hop ▸ hissued
    inTime := fun k reply hreply => by
      refine (h.inTime k reply hreply).imp_left fun hop => ?_
      unfold reported at hop ⊢
      rw [TpAdmin.report, map_append]
      exact mem_append_left _ hop
    running := by rintro _ ⟨⟩
    collecting := (by rintro _ _ _ ⟨⟩) }

/-! ### Steps -/

section

variable (h : s.Inv) {got : Fin n → Option AdminResult} {k : Fin n} {opId : String}
include h

theorem issue (hnew : operation.opId ∉ s.issued) :
    Inv { s with
      lanes := fun k => (s.lanes k).ask operation
      issued := s.issued ++ [operation.opId]
      phase := .running operation } :=
  { h with
    nodup := nodup_append.mpr ⟨h.nodup, nodup_singleton _, fun _ ha _ hb heq =>
      hnew (mem_singleton.mp hb ▸ heq ▸ ha)⟩
    lanes := fun k => (h.lanes k).ask hnew
    issued := fun opId hop => mem_append_left _ (h.issued opId hop)
    running := fun operation' hp => by
      cases hp
      exact {
        issued := mem_append_right _ mem_cons_self
        unreported := fun hop => hnew (h.issued _ hop)
        untaken := fun k => by simp [ask, ReplyLane.untaken, unarrived]
        unread := fun k hmem =>
          hnew ((h.lanes k).untaken.subset ((h.lanes k).readers _ hmem)) }
    collecting := (by intros; contradiction) }

theorem runOwn (hp : s.phase = .running operation) (own : AdminResult) :
    Inv { s with
      lanes := fun k => (s.lanes k).read operation.opId
      phase := .collecting operation own fun _ => none } := by
  have hr := h.running operation hp
  exact { h with
    lanes := fun k => (h.lanes k).read (hr.untaken k) (hr.unread k)
    running := by rintro _ ⟨⟩
    collecting := fun operation' own' got hp => by
      cases hp
      exact {
        issued := hr.issued
        unreported := hr.unreported
        read := by rintro _ _ ⟨⟩
        unread := fun k _ => mem_append_right _ mem_cons_self } }

theorem execute {outcome : AdminOutcome} {lane : FollowerLane}
    (hl : ((s.lanes k).answer fun operation =>
      (s.followers k).runAdminOperation operation outcome) = some lane) :
    (s.setLane k lane).Inv := by
  have hinv := (h.lanes k).answer (fun _ => TpRank.runAdminOperation_opId _ _ _) hl
  unfold answer at hl
  split at hl
  · cases hl
  · rename_i operation work hwork
    cases hl
    refine h.setLane hinv (List.Subset.refl _) (fun operation' hp => ?_)
      (fun operation' own got hp hgot => (h.collecting _ _ _ hp).unread k hgot)
      (List.Subset.refl _) (fun _ hreply _ => hreply) (h.inTime k)
    have huntaken := (h.running operation' hp).untaken k
    simpa [untaken, unarrived, hwork] using huntaken

theorem arrive {lane : FollowerLane}
    (hl : (s.lanes k).arrive (fun reply => reply.opId ∉ s.reported) = some lane) :
    (s.setLane k lane).Inv := by
  have hinv := (h.lanes k).arrive h.nodup hl
  unfold ReplyLane.arrive at hl
  split at hl
  · cases hl
  · rename_i reply sent hsent
    cases hl
    refine h.setLane hinv (List.Subset.refl _) (fun operation hp => ?_)
      (fun operation own got hp hgot => (h.collecting _ _ _ hp).unread k hgot)
      ?_ ?_ ?_
    · have huntaken := (h.running operation hp).untaken k
      simpa [untaken, unarrived, hsent] using huntaken
    · dsimp only
      split_ifs
      · exact subset_append_left _ _
      · exact List.Subset.refl _
    · intro r hr hop
      dsimp only at hr
      split_ifs at hr with hnew
      · rcases mem_append.mp hr with hr | hr
        · exact hr
        · obtain rfl := mem_singleton.mp hr
          simp [hop] at hnew
      · exact hr
    · intro r hr
      dsimp only
      rcases mem_append.mp hr with hr | hr
      · refine (h.inTime k r hr).imp_right fun hmem => ?_
        split_ifs
        · exact mem_append_left _ hmem
        · exact hmem
      · obtain rfl := mem_singleton.mp hr
        by_cases hop : r.opId ∈ s.reported
        · exact .inl hop
        · right
          simp [hop]

/-- A thread that waits for the reply of an earlier operation leaves those of the present one. -/
theorem mem_erase_of_collecting {own : AdminResult}
    (hp : s.phase = .collecting operation own got) (hgot : got k = none)
    (hne : operation.opId ≠ opId) : operation.opId ∈ (s.lanes k).readers.erase opId :=
  (mem_erase_of_ne hne).mpr ((h.collecting _ _ _ hp).unread k hgot)

theorem take {reply : AdminResult} {lane : FollowerLane}
    (hl : (s.lanes k).take opId = some (reply, lane)) (hown : reply.opId = opId) :
    ((s.setLane k lane).receive k opId reply).Inv := by
  have hinv := (h.lanes k).take_own hl hown
  unfold ReplyLane.take at hl
  split at hl
  · cases hl
  · rename_i head queue hq
    obtain ⟨hreader, ⟨⟩⟩ := of_guard hl
    have hmem : reply ∈ (s.lanes k).queue := by rw [hq]; exact mem_cons_self
    have hrest : ∀ r ∈ queue, r.opId ∈ s.reported ∨ r ∈ (s.lanes k).timely := fun r hr =>
      h.inTime k r (by rw [hq]; exact mem_cons_of_mem _ hr)
    -- an operation that has not been collected yet has no thread
    have hrunning : ∀ operation, s.phase = .running operation → operation.opId ∈
        untaken AdminOperation.opId AdminResult.opId
          { s.lanes k with queue := queue, readers := (s.lanes k).readers.erase opId } := by
      intro operation hp
      have hr := h.running operation hp
      have huntaken := hr.untaken k
      have hne : operation.opId ≠ reply.opId := fun heq =>
        hr.unread k (by rw [heq, hown]; exact hreader)
      simpa [untaken, unarrived, hq, hne] using huntaken
    unfold receive
    cases hp : s.phase with
    | idle =>
      simp only [setLane_phase, hp]
      exact h.setLane hinv erase_subset (by simp [hp]) (by simp [hp])
        (List.Subset.refl _) (fun _ hr _ => hr) hrest
    | running operation =>
      simp only [setLane_phase, hp]
      exact h.setLane hinv erase_subset hrunning (by simp [hp])
        (List.Subset.refl _) (fun _ hr _ => hr) hrest
    | collecting operation own got =>
      simp only [setLane_phase, hp]
      have hc := h.collecting operation own got hp
      split_ifs with hop
      · -- its own thread: the reply was not answered before, so it came in time
        have htimely : reply ∈ (s.lanes k).timely := by
          refine (h.inTime k reply hmem).resolve_left fun hrep => hc.unreported ?_
          rw [hop, ← hown]
          exact hrep
        have hread : ({ s with
            phase := .collecting operation own (update got k (some reply)) } :
            TpAdmin n).Inv :=
          { h with
            running := by rintro _ ⟨⟩
            collecting := fun operation' own' got' hp => by
              cases hp
              exact { hc with
                read := fun j r hgot => by
                  rcases update_eq_some hgot with ⟨rfl, heq⟩ | ⟨-, hgot⟩
                  · cases heq
                    exact ⟨hown.trans hop.symm, htimely⟩
                  · exact hc.read j r hgot
                unread := fun j hgot => by
                  by_cases hj : j = k
                  · subst hj
                    simp at hgot
                  · exact hc.unread j (by simpa [hj] using hgot) } }
        refine hread.setLane hinv erase_subset (by rintro _ ⟨⟩) ?_ (List.Subset.refl _)
          (fun _ hr _ => hr) hrest
        intro operation' own' got' hp hgot
        cases hp
        simp at hgot
      · refine h.setLane hinv erase_subset (by simp [hp]) ?_ (List.Subset.refl _)
          (fun _ hr _ => hr) hrest
        intro operation' own' got' hp' hgot
        obtain ⟨rfl, rfl, rfl⟩ : operation' = operation ∧ own' = own ∧ got' = got := by
          simpa [hp, eq_comm] using hp'
        exact h.mem_erase_of_collecting hp hgot hop

theorem expire {lane : FollowerLane} (hl : (s.lanes k).expire opId = some lane) :
    ((s.setLane k lane).giveUp opId).Inv := by
  have hinv := (h.lanes k).expire hl
  obtain ⟨⟨hreader, hq⟩, ⟨⟩⟩ := of_guard hl
  unfold TpAdmin.giveUp
  cases hp : s.phase with
  | idle =>
    simp only [setLane_phase, hp]
    exact h.setLane hinv erase_subset (by simp [hp]) (by simp [hp])
      (List.Subset.refl _) (fun _ hr _ => hr) (h.inTime k)
  | running operation =>
    simp only [setLane_phase, hp]
    exact h.setLane hinv erase_subset (fun operation hp =>
      (h.running operation hp).untaken k) (by simp [hp])
      (List.Subset.refl _) (fun _ hr _ => hr) (h.inTime k)
  | collecting operation own got =>
    simp only [setLane_phase, hp]
    have hc := h.collecting operation own got hp
    split_ifs with hop
    · -- the reply of this follower is not there, so the operation fails
      have hlate : ¬s.RepliedInTime k operation.opId := by
        rintro ⟨reply, hreply, hname, -⟩
        exact (h.lanes k).not_timely hreader hq hreply (hname.trans hop)
      have hreport := h.report own (.error "") hc.issued (by
          rw [leaderResult_success]
          constructor
          · rintro ⟨replies, heq, -⟩
            cases heq
          · rintro ⟨-, hall⟩
            exact absurd (hall k) hlate) (by rintro _ ⟨⟩)
      exact hreport.setLane hinv erase_subset (by rintro _ ⟨⟩) (by intros; contradiction) (List.Subset.refl _)
        (fun _ hr _ => hr) (hreport.inTime k)
    · refine h.setLane hinv erase_subset (by simp [hp]) ?_ (List.Subset.refl _)
        (fun _ hr _ => hr) (h.inTime k)
      intro operation' own' got' hp' hgot
      obtain ⟨rfl, rfl, rfl⟩ : operation' = operation ∧ own' = own ∧ got' = got := by
        simpa [hp, eq_comm] using hp'
      exact h.mem_erase_of_collecting hp hgot hop

/-- All messages have been read: the verdict is that of the leader and of the timely replies. -/
theorem finish {own : AdminResult} (hp : s.phase = .collecting operation own got)
    (hall : ∀ k, (got k).isSome = true) : (s.report operation own
      (collectAdminResults operation.opId ((List.finRange n).filterMap got))).Inv := by
  have hc := h.collecting operation own got hp
  have hmem {reply : AdminResult} :
      reply ∈ (List.finRange n).filterMap got ↔ ∃ k, got k = some reply := by
    simp [mem_filterMap]
  have hcollect := collect_eq_ok operation.opId fun reply hreply => by
    obtain ⟨k, hk⟩ := hmem.mp hreply
    exact (hc.read k reply hk).1
  rw [hcollect]
  refine h.report own _ hc.issued ?_ fun replies heq reply hreply => ?_
  · rw [leaderResult_success]
    constructor
    · rintro ⟨replies, heq, hown, hsuc⟩
      cases heq
      refine ⟨hown, fun k => ?_⟩
      obtain ⟨reply, hgot⟩ := isSome_iff_exists.mp (hall k)
      obtain ⟨hname, htimely⟩ := hc.read k reply hgot
      exact ⟨reply, htimely, hname, hsuc reply (hmem.mpr ⟨k, hgot⟩)⟩
    · rintro ⟨hown, hreplied⟩
      refine ⟨_, rfl, hown, fun reply hreply => ?_⟩
      obtain ⟨k, hgot⟩ := hmem.mp hreply
      obtain ⟨hname, htimely⟩ := hc.read k reply hgot
      -- a follower replies once, so the reply that was read is the timely one
      obtain ⟨reply', hreply', hname', hsuc⟩ := hreplied k
      have heq : reply = reply' := inj_on_of_nodup_map (h.lanes k).once htimely hreply'
        (hname.trans hname'.symm)
      exact heq ▸ hsuc
  · cases heq
    obtain ⟨k, hgot⟩ := hmem.mp hreply
    exact (hc.read k reply hgot).1

theorem step (hst : tpStep s act = some t) (hown : s.readsOwn act = true) : t.Inv := by
  cases act with
  | issue operation =>
    dsimp only [tpStep] at hst
    split at hst
    · split_ifs at hst with hnew
      cases hst
      exact h.issue hnew
    · cases hst
  | runOwn outcome =>
    dsimp only [tpStep] at hst
    split at hst
    · rename_i hp
      cases hst
      exact h.runOwn hp _
    · cases hst
  | execute k outcome =>
    obtain ⟨lane, hl, rfl⟩ := map_eq_some_iff.mp hst
    exact h.execute hl
  | arrive k =>
    obtain ⟨lane, hl, rfl⟩ := map_eq_some_iff.mp hst
    exact h.arrive hl
  | take k opId =>
    obtain ⟨⟨reply, lane⟩, hl, rfl⟩ := map_eq_some_iff.mp hst
    refine h.take hl ?_
    unfold ReplyLane.take at hl
    split at hl
    · cases hl
    · rename_i head queue hq
      cases (of_guard hl).2
      simpa [readsOwn, hq] using hown
  | expire k opId =>
    obtain ⟨lane, hl, rfl⟩ := map_eq_some_iff.mp hst
    exact h.expire hl
  | finish =>
    dsimp only [tpStep] at hst
    split at hst
    · rename_i hp
      obtain ⟨hall, ⟨⟩⟩ := of_guard hst
      exact h.finish hp hall
    · cases hst

end

end Inv

/-- In any run, only replies to the operation go into its result. -/
def Merged (s : TpAdmin n) : Prop :=
  ∀ report ∈ s.reports, ∀ reply ∈ report.replies, reply.opId = report.operation.opId

theorem Merged.report (h : s.Merged) {own : AdminResult}
    {followers : Except String (List AdminResult)}
    (hfollowers : ∀ replies, followers = .ok replies →
      ∀ reply ∈ replies, reply.opId = operation.opId) :
    (s.report operation own followers).Merged := by
  intro report hreport
  rcases mem_append.mp hreport with hreport | hreport
  · exact h report hreport
  · obtain rfl := mem_singleton.mp hreport
    cases followers with
    | error e => nofun
    | ok replies => exact hfollowers replies rfl

theorem Merged.step (h : s.Merged) (hst : tpStep s act = some t) : t.Merged := by
  cases act with
  | issue operation =>
    dsimp only [tpStep] at hst
    split at hst
    · split_ifs at hst
      cases hst
      exact h
    · cases hst
  | runOwn outcome =>
    dsimp only [tpStep] at hst
    split at hst <;> cases hst
    exact h
  | execute k outcome | arrive k =>
    obtain ⟨lane, -, rfl⟩ := map_eq_some_iff.mp hst
    exact h
  | take k opId =>
    obtain ⟨taken, -, rfl⟩ := map_eq_some_iff.mp hst
    unfold receive
    split
    · split_ifs <;> exact h
    · exact h
  | expire k opId =>
    obtain ⟨lane, -, rfl⟩ := map_eq_some_iff.mp hst
    unfold TpAdmin.giveUp
    split
    · split_ifs
      · exact Merged.report (s := s.setLane k lane) h (by rintro _ ⟨⟩)
      · exact h
    · exact h
  | finish =>
    dsimp only [tpStep] at hst
    split at hst
    · cases (of_guard hst).2
      exact h.report fun _ hok => (forall_opId_of_collect hok).2
    · cases hst

end TpAdmin

open TpAdmin

/-- A result is made of the replies to its operation. In every run in which no thread reads the
    reply to another operation, an operation succeeds exactly when the leader and every follower
    have run it and the replies came in time. -/
theorem tp_admin_attributed {n : ℕ} (leader : TpRank) (followers : Fin n → TpRank) :
    (∀ s, (tpSystem leader followers).Reachable s → s.Merged) ∧
    ∀ s, ((tpSystem leader followers).restrict fun s act => s.readsOwn act = true).Reachable s →
      s.Attributed := by
  constructor
  · intro s hs
    refine hs.invariant (P := TpAdmin.Merged) (fun s₀ h₀ => ?_) fun a act b ha hst =>
      ha.step (show tpStep a act = some b from hst)
    obtain rfl : s₀ = { leader := leader, followers := followers } := h₀
    intro report hreport
    exact absurd hreport not_mem_nil
  · intro s hs
    refine (hs.invariant (P := TpAdmin.Inv) (fun s₀ h₀ => ?_) ?_).toAttributed
    · obtain rfl : s₀ = { leader := leader, followers := followers } := h₀
      exact TpAdmin.Inv.initial leader followers
    · rintro a act b ha ⟨hst, hown⟩
      exact ha.step (show tpStep a act = some b from hst) hown

def twoRanks : TpAdmin 1 where
  leader := { stage := "thinker", role := "leader" }
  followers := fun _ => { stage := "thinker", role := "follower" }

/-- An operation that both ranks run in time. -/
def timelyRun (opId : String) : List (TpEvent 1) :=
  [.issue ⟨opId, "pause_generation"⟩, .runOwn (.answer {}), .execute 0 (.answer {}), .arrive 0,
    .take 0 opId, .finish]

/-- What an operation's result says, and which replies came in time. -/
def verdicts (s : TpAdmin 1) : List (String × Bool × Bool) × List (String × Bool) :=
  (s.reports.map fun report =>
      (report.operation.opId, report.own.success, report.result.success),
    (s.lanes 0).timely.map fun reply => (reply.opId, reply.success))

theorem tp_admin_attributed_timely :
    ∃ s : TpAdmin 1, verdicts s = ([("a", true, true)], [("a", true)]) ∧ s.Attributed := by
  have hrun : (System.exec (fun s act => if s.readsOwn act = true then tpStep s act else none)
      twoRanks (timelyRun "a")).map verdicts = some ([("a", true, true)], [("a", true)]) := by
    decide
  obtain ⟨s, hs, hval⟩ := map_eq_some_iff.mp hrun
  have hstart : ((tpSystem twoRanks.leader twoRanks.followers).restrict fun s act =>
      s.readsOwn act = true).Reachable twoRanks := .init rfl
  have hreach := hstart.of_exec_guarded hs
  exact ⟨s, hval, (tp_admin_attributed _ _).2 s hreach⟩

/-- The first operation times out. Its reply comes later, and the second operation reads it. -/
def lateReplyRun : List (TpEvent 1) :=
  [.issue ⟨"a", "pause_generation"⟩, .runOwn (.answer {}), .expire 0 "a", .execute 0 (.answer {}),
    .arrive 0] ++ timelyRun "b"

theorem late_reply_fails_next_operation :
    ¬∀ s : TpAdmin 1, (tpSystem twoRanks.leader twoRanks.followers).Reachable s →
      s.Attributed := by
  intro hall
  have hrun : (System.exec tpStep twoRanks lateReplyRun).map verdicts =
      some ([("a", true, false), ("b", true, false)], [("b", true)]) := by
    decide
  obtain ⟨s, hs, hval⟩ := map_eq_some_iff.mp hrun
  have hstart : (tpSystem twoRanks.leader twoRanks.followers).Reachable twoRanks := .init rfl
  have hreach := hstart.of_exec hs
  have hattributed := hall s hreach
  obtain ⟨hreports, htimely⟩ := Prod.mk.inj hval
  obtain ⟨report, hreport, hresult⟩ := mem_map.mp
    (show ("b", true, false) ∈ s.reports.map _ by rw [hreports]; decide)
  obtain ⟨reply, hreply, hname⟩ := mem_map.mp
    (show ("b", true) ∈ (s.lanes 0).timely.map _ by rw [htimely]; decide)
  simp only [Prod.mk.injEq] at hresult hname
  have hverdict := (hattributed.verdict report hreport).mpr ⟨hresult.2.1, fun k => ?_⟩
  · simp [hresult.2.2] at hverdict
  · obtain rfl : k = 0 := Subsingleton.elim _ _
    exact ⟨reply, hreply, hname.1.trans hresult.1.symm, hname.2⟩

end OmniRealtime
