import Mathlib

/-!
# Delay patterns and runs

A frame of `n` codes is sent over `n` rows: row `t + c` carries channel `c` of frame `t`.

1. `runs`: the maximal runs of a list whose elements all pass a test.
2. `OpenRun`: what a scan that collects runs element by element knows about the whole list.
3. `dedelay`: the frames of a list of rows, one for each window of `n` rows.
4. `OpenWindow`: what a scan knows that keeps the last rows only.
5. `runs_dedelay_append`: a payload of whole frames whose last rows open no frame of their own
   is one run, whatever follows it.
-/

namespace OmniRealtime

open List

namespace Delay

variable {α : Type*}

/-! ## Runs -/

section Runs

variable {p : α → Bool} {xs ys cur : List α} {done : List (List α)} {x : α}

/-- The maximal runs of elements that pass `p`. -/
def runs (p : α → Bool) (xs : List α) : List (List α) :=
  (xs.splitOnP fun x => !p x).filter fun run => !run.isEmpty

@[simp]
theorem runs_nil : runs p [] = [] := rfl

@[simp]
theorem runs_cons_neg (h : p x = false) : runs p (x :: xs) = runs p xs := by
  rw [runs, splitOnP_cons_eq_if_modifyHead, if_pos (by rw [h]; rfl)]
  rfl

theorem runs_of_forall (hne : xs ≠ []) (h : ∀ x ∈ xs, p x = true) : runs p xs = [xs] := by
  rw [runs, splitOnP_eq_singleton fun x hx => by rw [h x hx]; rfl]
  cases xs with
  | nil => exact absurd rfl hne
  | cons x xs => rfl

/-- A run ends where an element fails the test. -/
theorem runs_append_cons (h : ∀ x ∈ xs, p x = true) (hx : p x = false) :
    runs p (xs ++ x :: ys) = (if xs.isEmpty then [] else [xs]) ++ runs p ys := by
  rw [runs, splitOnP_append_cons_of_forall_mem (fun x hx => by rw [h x hx]; rfl) x
    (by rw [hx]; rfl), filter_cons]
  cases xs <;> rfl

theorem runs_append_of_head (h : ∀ x ∈ xs, p x = true) (hne : xs ≠ [])
    (hh : ∀ y, ys.head? = some y → p y = false) : runs p (xs ++ ys) = xs :: runs p ys := by
  cases ys with
  | nil => rw [append_nil, runs_of_forall hne h, runs_nil]
  | cons y ys =>
    have hy : p y = false := hh y rfl
    rw [runs_append_cons h hy, runs_cons_neg hy, if_neg (by simpa using hne)]
    rfl

/-! A run is found from positions too: those of the elements that pass, cut where one is not the
successor of the last. -/

theorem splitBy_append {r : α → α → Bool} (hne : xs ≠ []) (hchain : xs.IsChain fun x y => r x y)
    (hcut : ∀ y ∈ ys.head?, r (xs.getLast hne) y = false) :
    (xs ++ ys).splitBy r = xs :: ys.splitBy r := by
  have hparts : (xs :: ys.splitBy r).flatten.splitBy r = xs :: ys.splitBy r := by
    refine splitBy_flatten ?_ ?_ ?_
    · intro hmem
      rcases mem_cons.mp hmem with heq | hmem
      · exact hne heq.symm
      · exact nil_notMem_splitBy r ys hmem
    · intro part hmem
      rcases mem_cons.mp hmem with rfl | hmem
      · exact hchain
      · exact isChain_of_mem_splitBy hmem
    · refine isChain_cons.mpr ⟨fun part hpart => ?_, isChain_getLast_head_splitBy r ys⟩
      cases ys with
      | nil => rw [splitBy_nil] at hpart; cases hpart
      | cons y ys =>
        have hh := head_head_splitBy r (cons_ne_nil y ys)
        simp only [head_of_mem_head? hpart] at hh
        refine ⟨hne, ne_nil_of_mem_splitBy (mem_of_mem_head? hpart), ?_⟩
        rw [hh]
        exact hcut y rfl
  rwa [flatten_cons, flatten_splitBy] at hparts

theorem isChain_zipIdx (xs : List α) (k : ℕ) :
    (xs.zipIdx k).IsChain fun a b => (b.2 == a.2 + 1) = true := by
  induction xs generalizing k with
  | nil => exact isChain_nil
  | cons x xs ih =>
    rw [zipIdx_cons]
    refine isChain_cons.mpr ⟨fun b hb => ?_, ih (k + 1)⟩
    cases xs with
    | nil => cases hb
    | cons y ys =>
      cases hb
      exact beq_self_eq_true _

theorem filter_zipIdx_of_forall (h : ∀ x ∈ xs, p x = true) (k : ℕ) :
    (xs.zipIdx k).filter (fun a => p a.1) = xs.zipIdx k :=
  filter_eq_self.mpr fun a ha => h a.1 (fst_mem_of_mem_zipIdx ha)

/-- Behind a run the next position that passes is not the successor of its last. -/
theorem head_filter_zipIdx (hh : ∀ y, ys.head? = some y → p y = false) (k : ℕ) :
    ∀ b ∈ ((ys.zipIdx k).filter fun a => p a.1).head?, k < b.2 := by
  intro b hb
  cases ys with
  | nil => cases hb
  | cons y ys =>
    rw [zipIdx_cons, filter_cons_of_neg (by simpa using hh y rfl)] at hb
    exact le_snd_of_mem_zipIdx (mem_of_mem_filter (mem_of_mem_head? hb))

theorem splitBy_zipIdx (xs : List α) (k : ℕ) :
    (((xs.zipIdx k).filter fun a => p a.1).splitBy fun a b => b.2 == a.2 + 1).map
      (fun part => part.map Prod.fst) = runs p xs := by
  induction hlen : xs.length using Nat.strong_induction_on generalizing xs k with
  | _ len ih =>
    cases xs with
    | nil => rfl
    | cons x xs =>
      cases hx : p x with
      | false =>
        rw [runs_cons_neg hx, zipIdx_cons, filter_cons_of_neg (by simpa using hx)]
        exact ih xs.length (hlen ▸ Nat.lt_succ_self _) xs (k + 1) rfl
      | true =>
        -- the first run, and what stands behind it
        have hs := takeWhile_append_dropWhile (p := p) (l := x :: xs)
        have hlive : ∀ y ∈ (x :: xs).takeWhile p, p y = true :=
          all_eq_true.mp all_takeWhile
        have hne : (x :: xs).takeWhile p ≠ [] := by
          rw [takeWhile_cons_of_pos hx]
          exact cons_ne_nil _ _
        have hh : ∀ y, ((x :: xs).dropWhile p).head? = some y → p y = false := by
          intro y hy
          have hnot := head?_dropWhile_not p (x :: xs)
          rw [hy] at hnot
          exact hnot
        have hshort : ((x :: xs).dropWhile p).length < len := by
          rw [dropWhile_cons_of_pos hx, ← hlen]
          exact Nat.lt_succ_of_le (dropWhile_sublist p).length_le
        rw [← hs, runs_append_of_head hlive hne hh, zipIdx_append, filter_append,
          filter_zipIdx_of_forall hlive]
        have hne' : ((x :: xs).takeWhile p).zipIdx k ≠ [] := by
          rwa [Ne, zipIdx_eq_nil_iff]
        rw [splitBy_append hne' (isChain_zipIdx _ k), map_cons, zipIdx_map_fst, ih _ hshort _ _ rfl]
        intro b hb
        have hlt := head_filter_zipIdx hh _ b hb
        have hlast : (((x :: xs).takeWhile p).zipIdx k).getLast hne' ∈
            ((x :: xs).takeWhile p).zipIdx k := getLast_mem hne'
        have hle := snd_lt_add_of_mem_zipIdx hlast
        exact beq_eq_false_iff_ne.mpr (by omega)

/-- The list read so far ends in `cur`, which is still open; the runs in `done` have ended. -/
structure OpenRun (p : α → Bool) (xs : List α) (done : List (List α)) (cur : List α) : Prop where
  live : ∀ x ∈ cur, p x = true
  split : ∀ ys, runs p (xs ++ ys) = done ++ runs p (cur ++ ys)

namespace OpenRun

theorem nil : OpenRun p [] [] [] := ⟨nofun, fun _ => rfl⟩

section

variable (h : OpenRun p xs done cur)
include h

theorem snoc_pos (hx : p x = true) : OpenRun p (xs ++ [x]) done (cur ++ [x]) := by
  refine ⟨fun y hy => ?_, fun ys => ?_⟩
  · rcases mem_append.mp hy with hy | hy
    · exact h.live y hy
    · rw [mem_singleton.mp hy]
      exact hx
  · rw [append_assoc, append_assoc]
    exact h.split ([x] ++ ys)

theorem snoc_neg (hx : p x = false) :
    OpenRun p (xs ++ [x]) (done ++ if cur.isEmpty then [] else [cur]) [] := by
  refine ⟨nofun, fun ys => ?_⟩
  rw [append_assoc, h.split, append_assoc]
  exact congrArg (done ++ ·) (runs_append_cons h.live hx)

theorem finish : runs p xs = done ++ if cur.isEmpty then [] else [cur] := by
  have hs := h.split []
  rw [append_nil, append_nil] at hs
  rw [hs]
  cases cur with
  | nil => rfl
  | cons x cur => rw [runs_of_forall (cons_ne_nil x cur) h.live]; rfl

end

end OpenRun

end Runs

/-! ## Frames -/

section Frames

variable {n : ℕ} {row : Fin n → α} {rows rest window : List (Fin n → α)}

/-- Channel `c` of a frame stands in the `c`-th row of its window. -/
def diagonal (rows : List (Fin n → α)) (h : n ≤ rows.length) : Fin n → α :=
  fun c => rows.get ⟨c.1, Nat.lt_of_lt_of_le c.2 h⟩ c

/-- The frames of all windows of `n` rows, in order. -/
def dedelay : List (Fin n → α) → List (Fin n → α)
  | [] => []
  | row :: rest =>
    if h : n ≤ (row :: rest).length then diagonal (row :: rest) h :: dedelay rest else []

theorem diagonal_append (h : n ≤ rows.length) :
    diagonal (rows ++ rest) (Nat.le_trans h (List.length_append ▸ Nat.le_add_right _ _)) =
      diagonal rows h := by
  funext c
  unfold diagonal
  simp only [get_eq_getElem]
  rw [getElem_append_left (lt_of_lt_of_le c.2 h)]

theorem diagonal_congr {rows' : List (Fin n → α)} (heq : rows = rows') {h : n ≤ rows.length}
    {h' : n ≤ rows'.length} : diagonal rows h = diagonal rows' h' := by
  subst heq
  rfl

theorem dedelay_cons (h : n ≤ (row :: rows).length) :
    dedelay (row :: rows) = diagonal (row :: rows) h :: dedelay rows := dif_pos h

/-- A window of `n` rows or more gives its frame, whatever follows it. -/
theorem dedelay_full (hne : rows ≠ []) (h : n ≤ rows.length) :
    dedelay (rows ++ rest) = diagonal rows h :: dedelay (rows.tail ++ rest) := by
  cases rows with
  | nil => exact absurd rfl hne
  | cons row rows =>
    rw [cons_append, dedelay_cons (le_trans h (by simp))]
    exact congrArg (· :: _) (diagonal_append h)

theorem dedelay_short (h : rows.length < n) : dedelay rows = [] := by
  cases rows with
  | nil => rfl
  | cons row rows => exact dif_neg (not_le.mpr h)

theorem length_dedelay (hn : 0 < n) (rows : List (Fin n → α)) :
    (dedelay rows).length = rows.length + 1 - n := by
  induction rows with
  | nil => simp only [dedelay, length_nil]; omega
  | cons row rows ih =>
    by_cases h : n ≤ (row :: rows).length
    · rw [dedelay_cons h, length_cons, ih, length_cons]
      rw [length_cons] at h
      omega
    · rw [dedelay_short (not_le.mp h)]
      simp only [length_nil]
      omega

theorem dedelay_eq_nil_iff (hn : 0 < n) : dedelay rows = [] ↔ rows.length < n := by
  rw [← length_eq_zero_iff, length_dedelay hn]
  omega

/-- Channel `c` of frame `t` is channel `c` of row `t + c`. -/
theorem getElem_dedelay {t k : ℕ} (h : t < (dedelay rows).length) (c : Fin n) (hk : k = t + c.1)
    (hrow : k < rows.length) : (dedelay rows)[t] c = rows[k] c := by
  induction rows generalizing t k with
  | nil => exact absurd h (Nat.not_lt_zero t)
  | cons row rows ih =>
    by_cases hfit : n ≤ (row :: rows).length
    · rw [getElem_of_eq (dedelay_cons hfit) h]
      cases t with
      | zero =>
        obtain rfl : k = c.1 := hk.trans (Nat.zero_add _)
        rfl
      | succ t =>
        obtain rfl : k = (t + c.1) + 1 := hk.trans (Nat.succ_add t c.1)
        have htail : t < (dedelay rows).length := by
          rw [dedelay_cons hfit] at h
          exact Nat.lt_of_succ_lt_succ h
        exact ih htail rfl (Nat.lt_of_succ_lt_succ hrow)
    · rw [dedelay_short (not_le.mp hfit)] at h
      exact absurd h (Nat.not_lt_zero _)

/-- The frames of two lists of rows: those of the first, and those that start in its last
`n - 1` rows or later. -/
theorem dedelay_append (rows rest : List (Fin n → α)) :
    dedelay (rows ++ rest) = dedelay rows ++ dedelay (rows.drop (rows.length + 1 - n) ++ rest) := by
  induction rows with
  | nil => rw [drop_nil]; rfl
  | cons row rows ih =>
    by_cases h : n ≤ (row :: rows).length
    · have hdrop : (row :: rows).length + 1 - n = (rows.length + 1 - n) + 1 := by
        rw [length_cons] at h ⊢
        omega
      rw [hdrop, drop_succ_cons, dedelay_cons h, cons_append, cons_append, ← ih]
      exact dedelay_full (cons_ne_nil row rows) h
    · have hdrop : (row :: rows).length + 1 - n = 0 := by omega
      rw [hdrop, drop_zero, dedelay_short (not_le.mp h), nil_append]

theorem dedelay_drop (w : ℕ) (rows : List (Fin n → α)) :
    dedelay (rows.drop w) = (dedelay rows).drop w := by
  induction w generalizing rows with
  | zero => rfl
  | succ w ih =>
    cases rows with
    | nil => rfl
    | cons row rows =>
      rw [drop_succ_cons, ih]
      by_cases h : n ≤ (row :: rows).length
      · rw [dedelay_cons h, drop_succ_cons]
      · have hlt := not_le.mp h
        rw [dedelay_short hlt, dedelay_short (Nat.lt_of_succ_lt hlt), drop_nil, drop_nil]

theorem dedelay_take (hn : 0 < n) (k : ℕ) (rows : List (Fin n → α)) :
    dedelay (rows.take (k + n - 1)) = (dedelay rows).take k := by
  induction k generalizing rows with
  | zero =>
    rw [Nat.zero_add, take_zero]
    exact dedelay_short (Nat.lt_of_le_of_lt (length_take_le _ _) (Nat.sub_lt hn Nat.one_pos))
  | succ k ih =>
    cases rows with
    | nil => rw [take_nil]; rfl
    | cons row rows =>
      have hk : k + 1 + n - 1 = k + n - 1 + 1 := by omega
      by_cases h : n ≤ (row :: rows).length
      · have hfit : n ≤ (row :: rows.take (k + n - 1)).length := by
          rw [length_cons, length_take]
          rw [length_cons] at h
          omega
        rw [hk, take_succ_cons, dedelay_cons hfit, dedelay_cons h, take_succ_cons, ih]
        congr 1
        have hs : row :: rows = (row :: rows.take (k + n - 1)) ++ rows.drop (k + n - 1) := by
          rw [cons_append, take_append_drop]
        exact (diagonal_append hfit).symm.trans (diagonal_congr hs.symm)
      · have hlt := not_le.mp h
        rw [take_of_length_le (by omega), dedelay_short hlt, take_nil]

theorem dedelay_window (hn : 0 < n) (w k : ℕ) (rows : List (Fin n → α)) :
    dedelay ((rows.take (k + n - 1)).drop w) = ((dedelay rows).take k).drop w := by
  rw [dedelay_drop, dedelay_take hn]

/-- `frames` were taken from the rows read so far; the rows in `window` wait for more. -/
structure OpenWindow (rows frames window : List (Fin n → α)) : Prop where
  short : window.length < n
  split : ∀ rest, dedelay (rows ++ rest) = frames ++ dedelay (window ++ rest)

namespace OpenWindow

variable {frames : List (Fin n → α)}

theorem nil (hn : 0 < n) : OpenWindow (n := n) ([] : List (Fin n → α)) [] [] :=
  ⟨hn, fun _ => rfl⟩

section

variable (h : OpenWindow rows frames window)
include h

theorem snoc_short (hshort : (window ++ [row]).length < n) :
    OpenWindow (rows ++ [row]) frames (window ++ [row]) := by
  refine ⟨hshort, fun rest => ?_⟩
  rw [append_assoc, append_assoc]
  exact h.split ([row] ++ rest)

/-- A full window gives its frame and drops its first row. -/
theorem snoc_full (hfull : n ≤ (window ++ [row]).length) :
    OpenWindow (rows ++ [row]) (frames ++ [diagonal (window ++ [row]) hfull])
      (window ++ [row]).tail := by
  have hshort := h.short
  refine ⟨?_, fun rest => ?_⟩
  · rw [length_tail, length_append, length_singleton]
    exact hshort
  · have hs := h.split ([row] ++ rest)
    rw [← append_assoc, ← append_assoc window] at hs
    rw [hs, append_assoc frames]
    exact congrArg (frames ++ ·) (dedelay_full (by simp) hfull)

/-- The rows that still wait make no frame. -/
theorem finish : dedelay rows = frames := by
  have hs := h.split []
  rwa [append_nil, append_nil, dedelay_short h.short, append_nil] at hs

end

end OpenWindow

end Frames

/-! ## Runs of frames -/

section RunsOfFrames

variable {n : ℕ} {p : (Fin n → α) → Bool} {row : Fin n → α} {rows rest : List (Fin n → α)}

/-- No frame that starts in this row passes the test: its first channel decides it. -/
def Dead (p : (Fin n → α) → Bool) (row : Fin n → α) : Prop :=
  ∀ frame : Fin n → α, (∀ c : Fin n, c.1 = 0 → frame c = row c) → p frame = false

theorem diagonal_dead (h : Dead p row) (hfit : n ≤ (row :: rows).length) :
    p (diagonal (row :: rows) hfit) = false := by
  refine h _ fun c hc => ?_
  simp only [diagonal, get_eq_getElem, hc, getElem_cons_zero]

theorem head_dedelay_dead (h : Dead p row) :
    ∀ frame, (dedelay (row :: rows)).head? = some frame → p frame = false := by
  intro frame hfrm
  by_cases hfit : n ≤ (row :: rows).length
  · rw [dedelay_cons hfit] at hfrm
    cases hfrm
    exact diagonal_dead h hfit
  · rw [dedelay_short (not_le.mp hfit)] at hfrm
    cases hfrm

theorem runs_dedelay_cons (h : Dead p row) :
    runs p (dedelay (row :: rows)) = runs p (dedelay rows) := by
  by_cases hfit : n ≤ (row :: rows).length
  · rw [dedelay_cons hfit, runs_cons_neg (diagonal_dead h hfit)]
  · have hlt := not_le.mp hfit
    rw [dedelay_short hlt, dedelay_short (Nat.lt_of_succ_lt hlt)]

theorem runs_dedelay_dead (h : ∀ row ∈ rows, Dead p row) :
    runs p (dedelay (rows ++ rest)) = runs p (dedelay rest) := by
  induction rows with
  | nil => rfl
  | cons row rows ih =>
    rw [cons_append, runs_dedelay_cons (h row mem_cons_self)]
    exact ih fun row hrow => h row (mem_cons_of_mem _ hrow)

/-- A payload whose frames all pass, and whose last rows are dead, is one run when it is cut off
from what follows: by a dead row of its own or by the first row that follows. -/
theorem runs_dedelay_append (hlive : ∀ frame ∈ dedelay rows, p frame = true)
    (hne : dedelay rows ≠ []) (hdead : ∀ row ∈ rows.drop (rows.length + 1 - n), Dead p row)
    (hcut : rows.drop (rows.length + 1 - n) ≠ [] ∨ ∀ row, rest.head? = some row → Dead p row) :
    runs p (dedelay (rows ++ rest)) = dedelay rows :: runs p (dedelay rest) := by
  rw [dedelay_append, runs_append_of_head hlive hne, runs_dedelay_dead hdead]
  cases htail : rows.drop (rows.length + 1 - n) with
  | cons row others =>
    exact head_dedelay_dead (hdead row (htail ▸ mem_cons_self))
  | nil =>
    cases rest with
    | nil => intro frame hfrm; cases hfrm
    | cons row rest =>
      rcases hcut with hcut | hcut
      · exact absurd htail hcut
      · exact head_dedelay_dead (hcut row rfl)

end RunsOfFrames

end Delay

end OmniRealtime
