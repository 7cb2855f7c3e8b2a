import Mathlib

/-!
# A lane of questions and replies

One party asks, another answers in order, and the replies come back through a queue from which
several readers take, each for the reply to one question. A reader gives up when it finds the queue
empty for too long; then its reply stays on the way.

1. `Inv`: what is still to be taken are the replies to the last questions, in order.
2. `Inv.take_own`: kept as long as every reader takes the reply to its own question.
-/

namespace OmniRealtime

open List Option

universe u v w

/-- Questions not answered, replies on their way, replies in the queue, and the questions of the
    readers. `timely` are the replies that arrived in time. -/
structure ReplyLane (ι : Type u) (ω : Type v) (ρ : Type w) where
  work : List ω := []
  sent : List ρ := []
  queue : List ρ := []
  readers : List ι := []
  timely : List ρ := []

namespace ReplyLane

variable {ι : Type u} {ω : Type v} {ρ : Type w} [DecidableEq ι]

def ask (lane : ReplyLane ι ω ρ) (question : ω) : ReplyLane ι ω ρ :=
  { lane with work := lane.work ++ [question] }

/-- The reply to the oldest question is sent. -/
def answer (lane : ReplyLane ι ω ρ) (reply : ω → ρ) : Option (ReplyLane ι ω ρ) :=
  match lane.work with
  | [] => none
  | question :: work => some { lane with work := work, sent := lane.sent ++ [reply question] }

def arrive (lane : ReplyLane ι ω ρ) (inTime : ρ → Bool) : Option (ReplyLane ι ω ρ) :=
  match lane.sent with
  | [] => none
  | reply :: sent => some
    { lane with
      sent := sent
      queue := lane.queue ++ [reply]
      timely := if inTime reply then lane.timely ++ [reply] else lane.timely }

def read (lane : ReplyLane ι ω ρ) (i : ι) : ReplyLane ι ω ρ :=
  { lane with readers := lane.readers ++ [i] }

/-- A reader takes the oldest reply of the queue. -/
def take (lane : ReplyLane ι ω ρ) (i : ι) : Option (ρ × ReplyLane ι ω ρ) :=
  match lane.queue with
  | [] => none
  | reply :: queue =>
    if i ∈ lane.readers then
      some (reply, { lane with queue := queue, readers := lane.readers.erase i })
    else none

/-- A reader gives up. -/
def expire (lane : ReplyLane ι ω ρ) (i : ι) : Option (ReplyLane ι ω ρ) :=
  if i ∈ lane.readers ∧ lane.queue.isEmpty = true then
    some { lane with readers := lane.readers.erase i }
  else none

section Inv

variable (name : ω → ι) (tag : ρ → ι)

/-- The questions whose replies have not arrived. -/
def unarrived (lane : ReplyLane ι ω ρ) : List ι := lane.sent.map tag ++ lane.work.map name

/-- The questions whose replies have not been taken. -/
def untaken (lane : ReplyLane ι ω ρ) : List ι := lane.queue.map tag ++ lane.unarrived name tag

structure Inv (asked : List ι) (lane : ReplyLane ι ω ρ) : Prop where
  untaken : lane.untaken name tag <:+ asked
  readers : ∀ i ∈ lane.readers, i ∈ lane.untaken name tag
  nodup : lane.readers.Nodup
  once : (lane.timely.map tag).Nodup
  asked : ∀ reply ∈ lane.timely, tag reply ∈ asked
  arrived : ∀ reply ∈ lane.timely, tag reply ∉ lane.unarrived name tag

variable {name tag} {asked : List ι} {lane lane' : ReplyLane ι ω ρ} {i : ι}

omit [DecidableEq ι] in
theorem Inv.empty : Inv name tag [] ({} : ReplyLane ι ω ρ) where
  untaken := suffix_rfl
  readers := nofun
  nodup := nodup_nil
  once := nodup_nil
  asked := nofun
  arrived := nofun

section

variable (h : Inv name tag asked lane)
include h

omit [DecidableEq ι] in
theorem Inv.untaken_nodup (hasked : asked.Nodup) :
    (lane.untaken name tag).Nodup := hasked.sublist h.untaken.sublist

omit [DecidableEq ι] in
theorem Inv.ask {question : ω} (hnew : name question ∉ asked) :
    Inv name tag (asked ++ [name question]) (lane.ask question) := by
  have huntaken : (lane.ask question).untaken name tag =
      lane.untaken name tag ++ [name question] := by
    simp [ReplyLane.ask, ReplyLane.untaken, unarrived]
  exact {
    untaken := by
      rw [huntaken]
      obtain ⟨before, heq⟩ := h.untaken
      exact ⟨before, by rw [← append_assoc, heq]⟩
    readers := fun i hi => by
      rw [huntaken]
      exact mem_append_left _ (h.readers i hi)
    nodup := h.nodup
    once := h.once
    asked := fun reply hrpl => mem_append_left _ (h.asked reply hrpl)
    arrived := fun reply hrpl hmem => by
      have hold := h.arrived reply hrpl
      simp only [unarrived, ReplyLane.ask, map_append, map_cons, map_nil,
        mem_append, mem_singleton] at hold hmem
      rcases hmem with hmem | hmem | hmem
      · exact hold (.inl hmem)
      · exact hold (.inr hmem)
      · exact hnew (hmem ▸ h.asked reply hrpl) }

omit [DecidableEq ι] in
theorem Inv.answer {reply : ω → ρ} (hrpl : ∀ question, tag (reply question) = name question)
    (hl : lane.answer reply = some lane') : Inv name tag asked lane' := by
  unfold ReplyLane.answer at hl
  split at hl
  · cases hl
  · rename_i question work hwork
    cases hl
    have hu : unarrived name tag
        { lane with work := work, sent := lane.sent ++ [reply question] } =
        lane.unarrived name tag := by
      simp [unarrived, hwork, hrpl]
    exact {
      untaken := by
        rw [ReplyLane.untaken, hu]
        exact h.untaken
      readers := fun i hi => by
        rw [ReplyLane.untaken, hu]
        exact h.readers i hi
      nodup := h.nodup
      once := h.once
      asked := h.asked
      arrived := fun r hr => by
        rw [hu]
        exact h.arrived r hr }

omit [DecidableEq ι] in
theorem Inv.arrive (hasked : asked.Nodup) {inTime : ρ → Bool}
    (hl : lane.arrive inTime = some lane') : Inv name tag asked lane' := by
  unfold ReplyLane.arrive at hl
  split at hl
  · cases hl
  · rename_i reply sent hsent
    cases hl
    have hu : lane.unarrived name tag =
        tag reply :: (sent.map tag ++ lane.work.map name) := by
      simp [unarrived, hsent]
    have hnd := h.untaken_nodup hasked
    rw [ReplyLane.untaken, hu, nodup_append] at hnd
    have hfrs := (nodup_cons.mp hnd.2.1).1
    have htimely : ∀ r ∈ (if inTime reply then lane.timely ++ [reply] else lane.timely),
        r ∈ lane.timely ∨ r = reply := by
      intro r hr
      split_ifs at hr
      · simpa using hr
      · exact .inl hr
    exact {
      untaken := by
        have := h.untaken
        simpa [ReplyLane.untaken, unarrived, hsent] using this
      readers := fun i hi => by
        have := h.readers i hi
        simpa [ReplyLane.untaken, unarrived, hsent] using this
      nodup := h.nodup
      once := by
        split_ifs
        · rw [map_append, map_singleton]
          refine nodup_append.mpr ⟨h.once, nodup_singleton _, ?_⟩
          intro a ha b hb heq
          obtain ⟨r, hr, rfl⟩ := mem_map.mp ha
          rw [mem_singleton] at hb
          refine h.arrived r hr ?_
          rw [hu, heq, hb]
          exact mem_cons_self
        · exact h.once
      asked := fun r hr => by
        rcases htimely r hr with hr | rfl
        · exact h.asked r hr
        · exact h.untaken.subset (mem_append_right _ (by rw [hu]; simp))
      arrived := fun r hr hmem => by
        rcases htimely r hr with hr | rfl
        · exact h.arrived r hr (by rw [hu]; exact mem_cons_of_mem _ hmem)
        · exact hfrs hmem }

omit [DecidableEq ι] in
theorem Inv.read (hi : i ∈ lane.untaken name tag) (hnew : i ∉ lane.readers) : Inv name tag asked
    (lane.read i) :=
  { h with
    readers := fun j hj => by
      rcases mem_append.mp hj with hj | hj
      · exact h.readers j hj
      · exact mem_singleton.mp hj ▸ hi
    nodup := nodup_append.mpr ⟨h.nodup, nodup_singleton _, fun _ ha _ hb heq =>
        hnew (mem_singleton.mp hb ▸ heq ▸ ha)⟩ }

theorem Inv.take_own {reply : ρ} (hl : lane.take i = some (reply, lane'))
    (hown : tag reply = i) : Inv name tag asked lane' := by
  unfold ReplyLane.take at hl
  split at hl
  · cases hl
  · rename_i head queue hqu
    obtain ⟨-, heq⟩ := ite_none_right_eq_some.mp hl
    cases heq
    have huntaken : lane.untaken name tag =
        tag reply :: (queue.map tag ++ lane.unarrived name tag) := by
      simp [ReplyLane.untaken, hqu]
    exact {
      untaken := by
        have hsuffix := h.untaken
        rw [huntaken] at hsuffix
        exact (suffix_cons _ _).trans hsuffix
      readers := fun j hj => by
        obtain ⟨hne, hmem⟩ := h.nodup.mem_erase_iff.mp hj
        have hold := h.readers j hmem
        rw [huntaken, mem_cons] at hold
        exact hold.resolve_left fun heq => hne (heq.trans hown)
      nodup := h.nodup.erase i
      once := h.once
      asked := h.asked
      arrived := h.arrived }

theorem Inv.expire (hl : lane.expire i = some lane') : Inv name tag asked lane' := by
  obtain ⟨-, heq⟩ := ite_none_right_eq_some.mp hl
  cases heq
  exact { h with
    readers := fun j hj => h.readers j (mem_of_mem_erase hj)
    nodup := h.nodup.erase i }

omit [DecidableEq ι] in
theorem Inv.not_timely (hi : i ∈ lane.readers) (hqu : lane.queue.isEmpty = true) {reply : ρ}
    (hrpl : reply ∈ lane.timely) : tag reply ≠ i := by
  rintro rfl
  have huntaken := h.readers _ hi
  rw [List.isEmpty_iff] at hqu
  rw [ReplyLane.untaken, hqu, map_nil, nil_append] at huntaken
  exact h.arrived reply hrpl huntaken

end

end Inv

end ReplyLane

end OmniRealtime
