import Mathlib

/-!
# Counting the spans met by a prefix

Ordered, non-empty, half-open spans of a linear order, and how many of them meet the part
below a point.

1. `met_mono`, `met_le_length`, `met_of_hi_le`: the count grows from none to all.
2. `Ordered.append`: spans laid end to end.
3. `Ordered.compose`, `met_compose`: spans of spans, and their count as one count after the
   other.
-/

namespace OmniRealtime

open List

namespace SpanCount

section Order

variable {α : Type} [LinearOrder α] {s : α × α} {c : α}

/-- Non-empty spans in order, none overlapping the next, between `lo` and `hi`. -/
def Ordered : α → List (α × α) → α → Prop
  | lo, [], hi => lo ≤ hi
  | lo, s :: rest, hi => lo ≤ s.1 ∧ s.1 < s.2 ∧ Ordered s.2 rest hi

/-- How many spans start below `c`. -/
def met (spans : List (α × α)) (c : α) : Nat := spans.countP (·.1 < c)

@[simp]
theorem met_nil (c : α) : met [] c = 0 := rfl

theorem met_cons_of_lt (h : s.1 < c) (rest : List (α × α)) :
    met (s :: rest) c = met rest c + 1 := by
  simp [met, h]

theorem met_cons_of_le (h : c ≤ s.1) (rest : List (α × α)) : met (s :: rest) c = met rest c := by
  simp [met, h]

theorem met_le_length (spans : List (α × α)) (c : α) : met spans c ≤ spans.length :=
  countP_le_length

theorem met_mono (spans : List (α × α)) {c d : α} (h : c ≤ d) : met spans c ≤ met spans d :=
  countP_mono_left fun _ _ hs => by
    simp only [decide_eq_true_eq] at hs ⊢
    exact lt_of_lt_of_le hs h

variable {lo hi : α} {spans : List (α × α)}

theorem Ordered.le (h : Ordered lo spans hi) : lo ≤ hi := by
  induction spans generalizing lo with
  | nil => exact h
  | cons s rest ih => exact h.1.trans (h.2.1.le.trans (ih h.2.2))

theorem Ordered.of_le {lo' : α} (h : Ordered lo spans hi) (hle : lo' ≤ lo) :
    Ordered lo' spans hi := by
  cases spans with
  | nil => exact le_trans hle h
  | cons s rest => exact ⟨hle.trans h.1, h.2⟩

theorem Ordered.append {mid : α} {spans' : List (α × α)} (h : Ordered lo spans mid)
    (h' : Ordered mid spans' hi) : Ordered lo (spans ++ spans') hi := by
  induction spans generalizing lo with
  | nil => exact h'.of_le h
  | cons s rest ih => exact ⟨h.1, h.2.1, ih h.2.2⟩

theorem Ordered.met_of_le_lo (h : Ordered lo spans hi) (hc : c ≤ lo) : met spans c = 0 := by
  induction spans generalizing lo with
  | nil => rfl
  | cons s rest ih =>
    rw [met_cons_of_le (hc.trans h.1)]
    exact ih h.2.2 (hc.trans (h.1.trans h.2.1.le))

theorem Ordered.met_of_hi_le (h : Ordered lo spans hi) (hc : hi ≤ c) :
    met spans c = spans.length := by
  induction spans generalizing lo with
  | nil => rfl
  | cons s rest ih =>
    have hlt : s.1 < c := lt_of_lt_of_le h.2.1 (h.2.2.le.trans hc)
    rw [met_cons_of_lt hlt, ih h.2.2, length_cons]

theorem met_append (spans spans' : List (α × α)) (c : α) :
    met (spans ++ spans') c = met spans c + met spans' c :=
  countP_append

/-- Ordered spans, said of the spans one by one and two by two. -/
theorem ordered_iff :
    Ordered lo spans hi ↔ lo ≤ hi ∧ (∀ s ∈ spans, lo ≤ s.1 ∧ s.1 < s.2 ∧ s.2 ≤ hi) ∧
        spans.Pairwise fun s t => s.2 ≤ t.1 := by
  induction spans generalizing lo with
  | nil => simp [Ordered]
  | cons s rest ih =>
    rw [Ordered, ih, forall_mem_cons, pairwise_cons]
    constructor
    · rintro ⟨hlo, hspan, hend, hrest, hpair⟩
      refine ⟨hlo.trans (hspan.le.trans hend), ⟨⟨hlo, hspan, hend⟩, fun t ht => ?_⟩,
        fun t ht => (hrest t ht).1, hpair⟩
      exact ⟨hlo.trans (hspan.le.trans (hrest t ht).1), (hrest t ht).2⟩
    · rintro ⟨-, ⟨⟨hlo, hspan, hend⟩, hrest⟩, hfst, hpair⟩
      exact ⟨hlo, hspan, hend, fun t ht => ⟨hfst t ht, (hrest t ht).2⟩, hpair⟩

/-- The spans met are the leading ones. -/
theorem Ordered.fst_lt_iff (h : Ordered lo spans hi) {a : Nat} (ha : spans[a]? = some s) : s.1 < c ↔
    a < met spans c := by
  induction spans generalizing lo a with
  | nil => cases ha
  | cons head rest ih =>
    cases lt_or_ge head.1 c with
    | inl hlt =>
      rw [met_cons_of_lt hlt]
      cases a with
      | zero =>
        cases ha
        exact ⟨fun _ => Nat.succ_pos _, fun _ => hlt⟩
      | succ a =>
        rw [ih h.2.2 ha]
        exact (Nat.add_lt_add_iff_right).symm
    | inr hge =>
      -- nothing behind a span that is not met is met
      rw [met_cons_of_le hge, h.2.2.met_of_le_lo (hge.trans h.2.1.le)]
      have hle : c ≤ s.1 := by
        have hmem := mem_of_getElem? ha
        cases hmem with
        | head => exact hge
        | tail _ hmem =>
          have hbounds := (ordered_iff.1 h.2.2).2.1 s hmem
          exact hge.trans (h.2.1.le.trans hbounds.1)
      exact ⟨fun hlt => absurd hlt (not_lt_of_ge hle), fun hlt => absurd hlt (Nat.not_lt_zero _)⟩

section Compose

variable [Inhabited α]

/-- What a span of the indices of `spans` spans itself: from the start of its first to the end
    of its last. -/
def spanned (spans : List (α × α)) (s : Nat × Nat) : α × α :=
  ((spans.getD s.1 default).1, (spans.getD (s.2 - 1) default).2)

/-- Spans of the indices of `spans`, as spans of what `spans` are spans of. -/
def compose (spans : List (α × α)) (inner : List (Nat × Nat)) : List (α × α) :=
  inner.map (spanned spans)

omit [LinearOrder α] in
theorem getD_mem {a : Nat} (h : a < spans.length) :
    spans.getD a default ∈ spans ∧ spans[a]? = some (spans.getD a default) := by
  rw [getD_eq_getElem _ _ h]
  exact ⟨getElem_mem h, getElem?_eq_getElem h⟩

section

variable (h : Ordered lo spans hi) {inner : List (Nat × Nat)}
include h

theorem Ordered.snd_le_fst {a b : Nat} (hab : a < b) (hb : b < spans.length) :
    (spans.getD a default).2 ≤ (spans.getD b default).1 := by
  rw [getD_eq_getElem _ _ (hab.trans hb), getD_eq_getElem _ _ hb]
  exact pairwise_iff_getElem.1 (ordered_iff.1 h).2.2 a b (hab.trans hb) hb hab

theorem Ordered.fst_lt_snd {a b : Nat} (hab : a ≤ b) (hb : b < spans.length) :
    (spans.getD a default).1 < (spans.getD b default).2 := by
  have hbounds := (ordered_iff.1 h).2.1
  have hspan := (hbounds _ (getD_mem (lt_of_le_of_lt hab hb)).1).2.1
  cases Nat.lt_or_eq_of_le hab with
  | inl hlt =>
    have hnext := h.snd_le_fst hlt hb
    exact hspan.trans_le (hnext.trans (hbounds _ (getD_mem hb).1).2.1.le)
  | inr heq => rwa [← heq]

theorem Ordered.compose (hinner : Ordered 0 inner spans.length) :
    Ordered lo (compose spans inner) hi := by
  obtain ⟨hle, hbounds, -⟩ := ordered_iff.1 h
  obtain ⟨-, hin, hpair⟩ := ordered_iff.1 hinner
  have hlast : ∀ s ∈ inner, s.2 - 1 < spans.length := by
    intro s hs
    exact Nat.lt_of_lt_of_le (Nat.sub_lt (Nat.zero_lt_of_lt (hin s hs).2.1) Nat.one_pos)
      (hin s hs).2.2
  have hfst : ∀ s ∈ inner, s.1 < spans.length := by
    intro s hs
    exact lt_of_lt_of_le (hin s hs).2.1 (hin s hs).2.2
  refine ordered_iff.2 ⟨hle, ?_, ?_⟩
  · intro t ht
    obtain ⟨s, hs, rfl⟩ := mem_map.1 ht
    refine ⟨(hbounds _ (getD_mem (hfst s hs)).1).1, ?_, (hbounds _ (getD_mem (hlast s hs)).1).2.2⟩
    exact h.fst_lt_snd (Nat.le_sub_one_of_lt (hin s hs).2.1) (hlast s hs)
  · refine pairwise_map.2 (hpair.imp_of_mem ?_)
    intro s t hs ht hst
    refine h.snd_le_fst ?_ (hfst t ht)
    exact Nat.lt_of_lt_of_le (Nat.sub_lt (Nat.zero_lt_of_lt (hin s hs).2.1) Nat.one_pos) hst

/-- The composed spans met are the spans met of the spans met. -/
theorem met_compose {c : α} (hinner : Ordered 0 inner spans.length) :
    met (SpanCount.compose spans inner) c = met inner (met spans c) := by
  unfold met SpanCount.compose
  rw [countP_map]
  refine countP_congr fun s hs => ?_
  obtain ⟨-, hspan, hend⟩ := (ordered_iff.1 hinner).2.1 s hs
  have hget := (getD_mem (lt_of_lt_of_le hspan hend)).2
  simpa [spanned, met] using h.fst_lt_iff (c := c) hget

end

end Compose

end Order

/-- `count` spans of one point each, from `cursor` on. -/
def units : Nat → Nat → List (Nat × Nat)
  | _, 0 => []
  | cursor, count + 1 => (cursor, cursor + 1) :: units (cursor + 1) count

@[simp]
theorem length_units (cursor count : Nat) : (units cursor count).length = count := by
  induction count generalizing cursor with
  | zero => rfl
  | succ n ih => simp [units, ih]

theorem ordered_units (cursor count : Nat) :
    Ordered cursor (units cursor count) (cursor + count) := by
  induction count generalizing cursor with
  | zero => exact le_rfl
  | succ n ih =>
    refine ⟨le_rfl, Nat.lt_succ_self _, ?_⟩
    have h := ih (cursor + 1)
    rwa [Nat.add_right_comm] at h

theorem met_units (cursor count c : Nat) : met (units cursor count) c = min count (c - cursor) := by
  induction count generalizing cursor with
  | zero => simp [units]
  | succ n ih =>
    unfold units
    cases lt_or_ge cursor c with
    | inl hlt => rw [met_cons_of_lt hlt, ih]; omega
    | inr hge => rw [met_cons_of_le hge, ih]; omega

end SpanCount

end OmniRealtime
