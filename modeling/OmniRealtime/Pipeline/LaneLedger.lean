import OmniRealtime.Pipeline.LaneDelivery

/-!
# The items of a lane

`LaneLedger`: what the scheduler's inbox has of a lane are the messages of its first receive
tasks; and of all tasks that are over, while the request is not recorded as aborted.
-/

namespace OmniRealtime

open List Option DataReadyMessage

universe u

namespace StageIntake

variable {δ : Type u} {cfg : StageConfig δ} {s t : StageIntake δ} {source requestId : String}
  {msg : DataReadyMessage δ}

/-- The receive tasks of a stage and its items from one source. -/
structure LaneLedger (source : String) (s : StageIntake δ) : Prop where
  chained : Chained (fun task : ReceiveTask δ => task.msg.lane) ReceiveTask.predecessor
    (fun task => task.phase = .done) s.tasks s.receiveLaneTails
  remembers : Remembers s.aborted s.recorded
  plain : ∀ task ∈ s.tasks, task.msg.fromStage = source → task.msg.error = none
  discards : ∀ task ∈ s.tasks, (streamOf source task.msg.requestId task.msg).isSome →
    task.phase = .discarding → task.msg.requestId ∈ s.recorded
  inOrder : ∀ requestId, s.laneInbox source requestId <+: s.laneTasks source requestId
  complete : ∀ requestId, requestId ∉ s.recorded →
    s.laneInbox source requestId = s.laneTaken source requestId
  first : ∀ (h : ℕ) (task : ReceiveTask δ), s.tasks[h]? = some task → task.phase.isOver = true →
    (streamOf source task.msg.requestId task.msg).isSome → task.msg.requestId ∉ s.recorded →
    ∀ (k : ℕ) (b : ReceiveTask δ), k < h → s.tasks[k]? = some b → b.msg.lane = task.msg.lane →
      b.phase = .done

theorem laneLedger_init : LaneLedger source ({} : StageIntake δ) where
  chained := .nil
  remembers := ledger_init.remembers
  plain _ h := absurd h not_mem_nil
  discards _ h := absurd h not_mem_nil
  inOrder _ := prefix_rfl
  complete _ _ := rfl
  first _ _ h := by cases h

theorem lane_of_stream (h : (streamOf source requestId msg).isSome) : msg.lane =
    (requestId, source) := by
  obtain ⟨m, hm⟩ := isSome_iff_exists.mp h
  obtain ⟨hf, hreq⟩ := streamOf_some hm
  exact Prod.ext hreq hf

theorem isSome_of_stream (h : (streamOf source requestId msg).isSome) :
    (streamOf source msg.requestId msg).isSome := by
  obtain ⟨m, hm⟩ := isSome_iff_exists.mp h
  rw [(streamOf_some hm).2]
  exact h

namespace LaneLedger

section

variable (hs : LaneLedger source s) {task task' : ReceiveTask δ} {h : ℕ}
include hs

theorem earlier_done {task : ReceiveTask δ} (htk : s.tasks[h]? = some task)
    (hrdy : s.predecessorDone task = true) {k : ℕ} {b : ReceiveTask δ} (hk : k < h)
    (hb : s.tasks[k]? = some b) (hl : b.msg.lane = task.msg.lane) : b.phase = .done := by
  refine hs.chained.earlier_done htk (fun p a hp ha => ?_) hk hb hl
  unfold predecessorDone at hrdy
  rw [hp, all_some, ha, all_some] at hrdy
  exact of_decide_eq_true hrdy

theorem rephase (htk : s.tasks[h]? = some task)
    (hmsg : task'.msg = task.msg) (hd : task.phase = .done → task'.phase = .done)
    (htks : t.tasks = s.tasks.set h task')
    (hchained : Chained (fun task : ReceiveTask δ => task.msg.lane) ReceiveTask.predecessor
      (fun task => task.phase = .done) t.tasks t.receiveLaneTails) (hi : SameLanes source s t)
    (hremembers : Remembers t.aborted t.recorded)
    (hr : ∀ requestId ∈ s.recorded, requestId ∈ t.recorded)
    (hdiscard : task'.phase = .discarding → task.msg.requestId ∈ t.recorded)
    (hover : (streamOf source task.msg.requestId task.msg).isSome →
      task.msg.requestId ∉ t.recorded → task'.phase.isOver = task.phase.isOver) :
    LaneLedger source t := by
  have hmem : ∀ {a}, a ∈ t.tasks → a = task' ∨ a ∈ s.tasks := by
    intro a ha
    rw [htks] at ha
    exact (mem_or_eq_of_mem_set ha).symm
  have hget : ∀ {k : ℕ} {a : ReceiveTask δ}, t.tasks[k]? = some a →
      k = h ∧ a = task' ∨ k ≠ h ∧ s.tasks[k]? = some a := by
    intro k a ha
    exact getElem?_set_cases (htks ▸ ha)
  constructor
  · exact hchained
  · exact hremembers
  · intro a ha hf
    rcases hmem ha with rfl | ha
    · rw [hmsg] at hf ⊢
      exact hs.plain task (mem_of_getElem? htk) hf
    · exact hs.plain a ha hf
  · intro a ha hstr hph
    rcases hmem ha with rfl | ha
    · rw [hmsg]
      exact hdiscard hph
    · exact hr _ (hs.discards a ha hstr hph)
  · intro requestId
    have hl : t.laneTasks source requestId = s.laneTasks source requestId := by
      unfold laneTasks
      rw [htks]
      exact filterMap_set_of_eq htk (congrArg _ hmsg)
    rw [hi, hl]
    exact hs.inOrder requestId
  · intro requestId ho
    have htaken : t.laneTaken source requestId = s.laneTaken source requestId := by
      unfold laneTaken
      rw [htks]
      refine filterMap_set_of_eq htk ?_
      rw [hmsg]
      cases hstr : streamOf source requestId task.msg with
      | none => split <;> split <;> rfl
      | some m =>
        obtain ⟨-, rfl⟩ := streamOf_some hstr
        rw [hover (isSome_iff_exists.mpr ⟨m, hstr⟩) ho]
    rw [hi, htaken]
    exact hs.complete requestId fun hold => ho (hr requestId hold)
  · intro j a ha haover hstr ho k b hk hb hl
    have hold : ∃ a₀ : ReceiveTask δ, s.tasks[j]? = some a₀ ∧ a₀.msg = a.msg ∧
        a₀.phase.isOver = true := by
      rcases hget ha with ⟨rfl, rfl⟩ | ⟨-, ha⟩
      · rw [hmsg] at hstr ho
        exact ⟨task, htk, hmsg.symm, (hover hstr ho).symm.trans haover⟩
      · exact ⟨a, ha, rfl, haover⟩
    obtain ⟨a₀, ha₀, hmsg₀, hover₀⟩ := hold
    rw [← hmsg₀] at hstr ho hl
    have hfst := hs.first j a₀ ha₀ hover₀ hstr fun hold => ho (hr _ hold)
    rcases hget hb with ⟨rfl, rfl⟩ | ⟨-, hb⟩
    · exact hd (hfst k task hk htk (hmsg ▸ hl))
    · exact hfst k b hk hb hl

theorem pass (htks : t.tasks = s.tasks) (htails : t.receiveLaneTails = s.receiveLaneTails)
    (hi : SameLanes source s t) (hremembers : Remembers t.aborted t.recorded)
    (hr : ∀ requestId ∈ s.recorded, requestId ∈ t.recorded) : LaneLedger source t := by
  have hl : ∀ requestId, t.laneTasks source requestId = s.laneTasks source requestId :=
    fun _ => congrArg (List.filterMap _) htks
  have htaken : ∀ requestId, t.laneTaken source requestId = s.laneTaken source requestId :=
    fun _ => congrArg (List.filterMap _) htks
  refine ⟨htails ▸ htks ▸ hs.chained, hremembers, htks ▸ hs.plain, ?_, ?_, ?_, ?_⟩
  · exact fun a ha hstr hph => hr _ (hs.discards a (htks ▸ ha) hstr hph)
  · intro requestId
    rw [hi, hl]
    exact hs.inOrder requestId
  · intro requestId ho
    rw [hi, htaken]
    exact hs.complete requestId fun hold => ho (hr _ hold)
  · intro h task htk hover hstr ho
    rw [htks] at htk ⊢
    exact hs.first h task htk hover hstr fun hold => ho (hr _ hold)

theorem schedule {msg : DataReadyMessage δ} (hpln : msg.fromStage = source → msg.error = none) :
    LaneLedger source (s.scheduleReceiveTask msg) := by
  let task : ReceiveTask δ := { msg := msg, predecessor := s.receiveLaneTails msg.lane }
  have htks : (s.scheduleReceiveTask msg).tasks = s.tasks ++ [task] := rfl
  have hmem : ∀ {a}, a ∈ (s.scheduleReceiveTask msg).tasks → a ∈ s.tasks ∨ a = task := by
    intro a ha
    rw [htks, mem_append, mem_singleton] at ha
    exact ha
  have hget : ∀ {k : ℕ} {a : ReceiveTask δ}, (s.scheduleReceiveTask msg).tasks[k]? = some a →
      a.phase.isOver = true → s.tasks[k]? = some a := by
    intro k a ha hover
    rw [htks, getElem?_append] at ha
    split at ha
    · exact ha
    · obtain rfl := mem_singleton.mp (mem_of_getElem? ha)
      cases hover
  constructor
  · exact hs.chained.push (a := task) rfl nofun
  · exact hs.remembers
  · intro a ha hf
    rcases hmem ha with ha | rfl
    · exact hs.plain a ha hf
    · exact hpln hf
  · intro a ha hstr hph
    rcases hmem ha with ha | rfl
    · exact hs.discards a ha hstr hph
    · cases hph
  · intro requestId
    refine (hs.inOrder requestId).trans ?_
    unfold laneTasks
    rw [htks, filterMap_append]
    exact prefix_append ..
  · intro requestId ho
    refine (hs.complete requestId ho).trans ?_
    unfold laneTaken
    rw [htks, filterMap_append]
    exact (append_nil _).symm
  · intro h a ha hover hstr ho k b hk hb hl
    have ha := hget ha hover
    refine hs.first h a ha hover hstr ho k b hk ?_ hl
    rw [htks, getElem?_append_left] at hb
    · exact hb
    · exact hk.trans (List.getElem?_eq_some_iff.mp ha).1

/-- A task that has waited for its turn puts its message behind those of the earlier tasks. -/
theorem deliver {m : LaneMessage δ}
    (htk : s.tasks[h]? = some task) (hfrs : task.phase.isOver = false)
    (hmsg : task'.msg = task.msg) (hpred : task'.predecessor = task.predecessor)
    (hleaves : Leaves task'.phase) (htks : t.tasks = s.tasks.set h task')
    (htails : t.receiveLaneTails = s.receiveLaneTails)
    (hstr : streamOf source task.msg.requestId task.msg = some m)
    (hrdy : s.predecessorDone task = true) (hi : t.laneInbox source task.msg.requestId =
      s.laneInbox source task.msg.requestId ++ [m])
    (hothers : ∀ requestId, requestId ≠ task.msg.requestId →
      t.laneInbox source requestId = s.laneInbox source requestId)
    (hremembers : Remembers t.aborted t.recorded)
    (hr : ∀ requestId ∈ s.recorded, requestId ∈ t.recorded)
    (ho : task.msg.requestId ∉ s.recorded) : LaneLedger source t := by
  have hsome := isSome_iff_exists.mpr ⟨m, hstr⟩
  have hnotDone : task.phase ≠ .done := by
    intro hd
    rw [hd] at hfrs
    cases hfrs
  have hearlier : ∀ {k : ℕ} {b : ReceiveTask δ}, k < h → s.tasks[k]? = some b →
      b.msg.lane = task.msg.lane → b.phase = .done :=
    fun hk hb hl => hs.earlier_done htk hrdy hk hb hl
  have hget : ∀ {k : ℕ} {a : ReceiveTask δ}, t.tasks[k]? = some a →
      k = h ∧ a = task' ∨ k ≠ h ∧ s.tasks[k]? = some a := by
    intro k a ha
    exact getElem?_set_cases (htks ▸ ha)
  have hlaneTasks : ∀ requestId, t.laneTasks source requestId = s.laneTasks source requestId := by
    intro requestId
    unfold laneTasks
    rw [htks]
    exact filterMap_set_of_eq htk (congrArg _ hmsg)
  -- the tasks behind this one have not put anything in
  have hlater : ∀ (k : ℕ) (b : ReceiveTask δ), h < k → s.tasks[k]? = some b →
      (if b.phase.isOver then streamOf source task.msg.requestId b.msg else none) = none := by
    intro k b hk hb
    split
    · next hover =>
      cases hb' : streamOf source task.msg.requestId b.msg with
      | none => rfl
      | some m' =>
        have hsome' := isSome_iff_exists.mpr ⟨m', hb'⟩
        have hl := (lane_of_stream hsome').trans (lane_of_stream hsome).symm
        refine absurd (hs.first k b hb hover (isSome_of_stream hsome') ?_ h task hk htk hl.symm)
          hnotDone
        rw [(streamOf_some hb').2]
        exact ho
    · rfl
  have hnow : (if task'.phase.isOver then streamOf source task.msg.requestId task'.msg else none) =
      some m := by
    rw [hleaves.isOver, hmsg]
    exact hstr
  obtain ⟨htaken, htaken'⟩ := filterMap_set_last (f := fun b : ReceiveTask δ =>
    if b.phase.isOver then streamOf source task.msg.requestId b.msg else none) htk
    (by rw [hfrs]; rfl) hnow hlater
  constructor
  · rw [htks, htails]
    refine hs.chained.set htk (congrArg lane hmsg) hpred ?_ ?_
    · exact fun hd => absurd hd hnotDone
    · exact fun hd => absurd hd hleaves.ne_done
  · exact hremembers
  · intro a ha hf
    rw [htks] at ha
    rcases mem_or_eq_of_mem_set ha with ha | rfl
    · exact hs.plain a ha hf
    · rw [hmsg] at hf ⊢
      exact hs.plain task (mem_of_getElem? htk) hf
  · intro a ha hstr' hph
    rw [htks] at ha
    rcases mem_or_eq_of_mem_set ha with ha | rfl
    · exact hr _ (hs.discards a ha hstr' hph)
    · rcases hleaves with heq | heq <;> rw [heq] at hph <;> cases hph
  · intro requestId
    rw [hlaneTasks]
    by_cases heq : requestId = task.msg.requestId
    · subst heq
      have hfront : (s.tasks.take h).filterMap (fun b =>
          if b.phase.isOver then streamOf source task.msg.requestId b.msg else none) =
            (s.tasks.take h).filterMap fun b => streamOf source task.msg.requestId b.msg := by
        refine filterMap_congr fun b hb => ?_
        obtain ⟨k, hk⟩ := getElem?_of_mem hb
        rw [getElem?_take] at hk
        split at hk
        · next hkh =>
          cases hb' : streamOf source task.msg.requestId b.msg with
          | none => split <;> rfl
          | some m' =>
            have hl := (lane_of_stream (isSome_iff_exists.mpr ⟨m', hb'⟩)).trans
              (lane_of_stream hsome).symm
            rw [hearlier hkh hk hl]
            rfl
        · cases hk
      have hold : s.laneInbox source task.msg.requestId =
          (s.tasks.take h).filterMap fun b => streamOf source task.msg.requestId b.msg :=
        (hs.complete _ ho).trans (htaken.trans hfront)
      have hspl : s.laneTasks source task.msg.requestId = _ := filterMap_split htk
      rw [hi, hold, hspl, hstr]
      exact (prefix_append_right_inj _).mpr (prefix_append ..)
    · rw [hothers requestId heq]
      exact hs.inOrder requestId
  · intro requestId ho'
    have hold := hs.complete requestId fun hold => ho' (hr _ hold)
    by_cases heq : requestId = task.msg.requestId
    · subst heq
      unfold laneTaken at hold ⊢
      rw [hi, hold, htks, htaken, htaken']
    · rw [hothers requestId heq, hold]
      unfold laneTaken
      rw [htks]
      refine (filterMap_set_of_eq htk ?_).symm
      have hnone : streamOf source requestId task.msg = none :=
        if_neg fun hkey => heq hkey.2.symm
      rw [hmsg, hnone]
      split <;> split <;> rfl
  · intro j a ha hover hstr' ho' k b hk hb hl
    have ho' := fun hold => ho' (hr _ hold)
    rcases hget ha with ⟨rfl, rfl⟩ | ⟨-, ha⟩
    · rcases hget hb with ⟨rfl, -⟩ | ⟨-, hb⟩
      · exact absurd hk (lt_irrefl _)
      · exact hearlier hk hb (hl.trans (congrArg _ hmsg))
    · have hfst := hs.first j a ha hover hstr' ho'
      rcases hget hb with ⟨rfl, rfl⟩ | ⟨-, hb⟩
      · exact absurd (hfst k task hk htk ((congrArg _ hmsg).symm.trans hl)) hnotDone
      · exact hfst k b hk hb hl

theorem step (hledger : s.Ledger) {turn : IntakeTurn δ} (hst : intakeStep cfg s turn = some t)
    (hkept : SourceKept source s turn) (hhandles : s.HandlesKept turn) : LaneLedger source t := by
  have hremembers := (hledger.step hst).remembers
  have hqt : ∀ {requestId}, requestId ∈ s.recorded → Quiet requestId s t :=
    fun hr => quiet_step hst hhandles hr
  have hr : ∀ requestId ∈ s.recorded, requestId ∈ t.recorded :=
    fun _ h => (hqt h).recorded h
  cases lane_step hs.remembers hs.plain hs.discards hst hkept with
  | pass htks htails hi => exact hs.pass htks htails hi hremembers hr
  | schedule msg _ hpln ht => exact ht ▸ hs.schedule hpln
  | move task' htk hlive hmsg hpred hlive' htks htails hi hdiscard hover =>
    refine hs.rephase htk hmsg (fun hd => absurd hd hlive) htks ?_ hi hremembers
      hr hdiscard hover
    rw [htks, htails]
    refine hs.chained.set htk (congrArg lane hmsg) hpred ?_ ?_
    · exact fun hd => absurd hd hlive
    · exact fun hd => absurd hd hlive'
  | deliver task' htk hfrs hmsg hpred hleaves htks htails hstr hrdy hi hothers =>
    refine hs.deliver htk hfrs hmsg hpred hleaves htks htails hstr hrdy hi hothers
      hremembers hr fun hold => ?_
    -- a recorded request gets nothing more
    have hsame := (hqt hold).inbox
    rw [laneInbox_eq_inboxOf, hsame, ← laneInbox_eq_inboxOf] at hi
    exact absurd (congrArg List.length hi) (by simp)
  | @finish h task htk hclg hrdy ht =>
    subst ht
    obtain ⟨closed, hmsg, hpred, hph, htks⟩ : ∃ closed : ReceiveTask δ,
        closed.msg = task.msg ∧ closed.predecessor = task.predecessor ∧ closed.phase = .done ∧
        (s.finishTask h task).tasks = s.tasks.set h closed := by
      refine ⟨{ task with phase := .done }, rfl, rfl, rfl, ?_⟩
      refine Eq.trans ?_ (modify_eq_set htk fun task => { task with phase := .done })
      unfold finishTask
      split <;> rfl
    have hl : closed.msg.lane = task.msg.lane := congrArg lane hmsg
    have hchained := hs.chained.set htk hl hpred (fun _ => hph) fun _ k b hk hb hl =>
      hs.earlier_done htk hrdy hk hb hl
    have hcl : (s.tasks.set h closed)[h]? = some closed :=
      getElem?_set_self (List.getElem?_eq_some_iff.mp htk).1
    refine hs.rephase htk hmsg (fun _ => hph) htks ?_ ?_ hremembers hr ?_ ?_
    · rw [htks]
      unfold finishTask
      split
      · next htail =>
        have hdrop := hchained.drop hcl hph (by rw [hl]; exact htail)
        exact hl ▸ hdrop
      · exact hchained
    · refine .of_inbox ?_
      unfold finishTask
      split <;> rfl
    · intro hdiscard
      rw [hph] at hdiscard
      cases hdiscard
    · intro _ _
      rw [hph, hclg]
      rfl

end

end LaneLedger

end StageIntake

end OmniRealtime
