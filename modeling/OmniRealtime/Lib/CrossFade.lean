import Mathlib

/-!
# Cross-faded audio

A line of samples that is put together from windows: the last samples of the line are blended with
the first ones of the next window.

1. `length_crossFade`: a blend shortens the line by its width.
2. `crossFade_append`: the samples before the blend stay.
3. `Assembled.length`: the length of a line, by the windows it is made of.
-/

namespace OmniRealtime

namespace CrossFade

open List

variable {α : Type*} (mix : ℕ → ℕ → α → α → α)

/-- `mix w i` blends the `i`-th of `w` samples. -/
def blend (old new : List α) : List α :=
  (old.zip new).mapIdx fun i p => mix old.length i p.1 p.2

/-- The last `w` samples of the line are blended with the first ones of the window. -/
def crossFade (w : ℕ) (line window : List α) : List α :=
  line.take (line.length - w) ++
    (blend mix (line.drop (line.length - w)) (window.take w) ++ window.drop w)

/-- A window of samples, and how many of them are blended with the line before it. -/
structure Piece (α : Type*) where
  width : ℕ
  samples : List α

/-- The line that the pieces make, none of which is blended beyond its own samples. -/
inductive Assembled : List (Piece α) → List α → Prop
  | nil : Assembled [] []
  | snoc {pieces : List (Piece α)} {line : List α} (p : Piece α) (h : Assembled pieces line)
      (hline : p.width ≤ line.length) (hwindow : p.width ≤ p.samples.length) :
      Assembled (pieces ++ [p]) (crossFade mix p.width line p.samples)

section

variable {mix} {w : ℕ} {line window : List α}

theorem crossFade_zero : crossFade mix 0 line window = line ++ window := by
  simp [crossFade, blend]

theorem length_crossFade (hline : w ≤ line.length) (hwindow : w ≤ window.length) :
    (crossFade mix w line window).length + w = line.length + window.length := by
  simp only [crossFade, blend, length_append, length_take, length_mapIdx, length_zip, length_drop]
  omega

theorem crossFade_append (front : List α) (hline : w ≤ line.length) :
    crossFade mix w (front ++ line) window = front ++ crossFade mix w line window := by
  have hcut : (front ++ line).length - w = front.length + (line.length - w) := by
    rw [length_append]
    omega
  rw [crossFade, hcut, take_length_add_append, drop_length_add_append, append_assoc]
  rfl

theorem Assembled.length {pieces : List (Piece α)} (h : Assembled mix pieces line) :
    line.length + (pieces.map Piece.width).sum =
      (pieces.map fun p => p.samples.length).sum := by
  induction h with
  | nil => rfl
  | snoc p h hline hwindow ih =>
    have hfade : (crossFade mix p.width _ p.samples).length + p.width = _ :=
      length_crossFade hline hwindow
    simp only [map_append, map_singleton, sum_append, sum_singleton]
    omega

/-- Without blends the line is the windows one after the other. -/
theorem Assembled.eq_flatten {pieces : List (Piece α)} (h : Assembled mix pieces line)
    (hzero : ∀ p ∈ pieces, p.width = 0) : line = (pieces.map Piece.samples).flatten := by
  induction h with
  | nil => rfl
  | snoc p h _ _ ih =>
    rw [hzero p (mem_append_right _ mem_cons_self), crossFade_zero,
      ih fun q hq => hzero q (mem_append_left _ hq)]
    simp

end

end CrossFade

end OmniRealtime
