import Mathlib

/-!
# Cuts of overlapping windows

A decoder gives the same number of samples for every frame. A stream of frames is decoded window by
window; a window starts ahead of the frames that are new, and what it gives for the frames that are
not is cut off.

1. `Cuts`: the cuts of consecutive new frames, up to a frame.
2. `Cuts.append`: frames that come later change no cut.
-/

namespace OmniRealtime

universe u v

namespace WindowCuts

/-- A decoder of frames. -/
structure Decoder (F : Type u) (S : Type v) where
  decode : List F → List S
  hop : Nat
  hop_pos : 0 < hop
  length_decode : ∀ frames, (decode frames).length = frames.length * hop

variable {F : Type u} {S : Type v} (decoder : Decoder F S)

/-- The samples of the frames from `j` to `k`, in the window that starts at `w`. -/
def Decoder.cut (frames : List F) (w j k : Nat) : List S :=
  (decoder.decode ((frames.take k).drop w)).drop ((j - w) * decoder.hop)

/-- The cuts of all frames up to `k`, with no gap and no overlap. -/
inductive Cuts (frames : List F) : List (List S) → Nat → Prop
  | nil : Cuts frames [] 0
  | snoc {out : List (List S)} {w j k : Nat} :
      Cuts frames out j → w ≤ j → j < k → k ≤ frames.length →
      Cuts frames (out ++ [decoder.cut frames w j k]) k

variable {decoder} {frames more : List F} {out : List (List S)} {w j k : Nat}

theorem length_window (hk : k ≤ frames.length) :
    (decoder.decode ((frames.take k).drop w)).length = (k - w) * decoder.hop := by
  rw [decoder.length_decode, List.length_drop, List.length_take_of_le hk]

theorem length_cut (hw : w ≤ j) (hk : k ≤ frames.length) :
    (decoder.cut frames w j k).length = (k - j) * decoder.hop := by
  rw [Decoder.cut, List.length_drop, length_window hk, ← Nat.sub_mul,
    Nat.sub_sub_sub_cancel_right hw]

theorem cut_eq_nil_iff (hw : w ≤ j) (hj : j ≤ k) (hk : k ≤ frames.length) :
    decoder.cut frames w j k = [] ↔ j = k := by
  rw [← List.length_eq_zero_iff, length_cut hw hk, Nat.mul_eq_zero]
  have hpos := decoder.hop_pos
  constructor
  · rintro (h | h)
    · exact Nat.le_antisymm hj (Nat.le_of_sub_eq_zero h)
    · exact absurd h (Nat.pos_iff_ne_zero.mp hpos)
  · rintro rfl
    exact .inl (Nat.sub_self j)

theorem cut_append (hk : k ≤ frames.length) :
    decoder.cut (frames ++ more) w j k = decoder.cut frames w j k := by
  rw [Decoder.cut, List.take_append_of_le_length hk]
  rfl

namespace Cuts

theorem le_length (h : Cuts decoder frames out k) : k ≤ frames.length := by
  cases h with
  | nil => exact Nat.zero_le _
  | snoc _ _ _ hk => exact hk

theorem append (h : Cuts decoder frames out k) (more : List F) :
    Cuts decoder (frames ++ more) out k := by
  induction h with
  | nil => exact .nil
  | snoc _ hw hj hk ih =>
    rw [← cut_append hk]
    exact ih.snoc hw hj (Nat.le_trans hk (by simp))

end Cuts

end WindowCuts

end OmniRealtime
