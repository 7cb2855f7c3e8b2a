import Mathlib

/-!
# Last words

A sequence of messages some of which are final. After a final message no other message of the
conversation comes; messages beside the conversation may still come.

1. `LastWord.concat`: a message that comes when nothing final was said, or beside the conversation.
2. `LastWord.once`: where final messages are part of the conversation, there is at most one.
-/

namespace OmniRealtime

universe u

variable {α : Type u} {final part : α → Bool} {l l' : List α} {a : α}

def LastWord (final part : α → Bool) (l : List α) : Prop :=
  l.Pairwise fun a b => final a = true → part b = false

namespace LastWord

theorem nil : LastWord final part [] := List.Pairwise.nil

theorem sublist (h : LastWord final part l') (hsub : l.Sublist l') : LastWord final part l :=
  List.Pairwise.sublist hsub h

/-- Nothing of the conversation is behind a final message. -/
theorem rest (h : LastWord final part (a :: l)) (ha : final a = true) :
    ∀ b ∈ l, part b = false := fun b hb => (List.pairwise_cons.mp h).1 b hb ha

theorem concat (h : LastWord final part l)
    (hopen : part a = true → ∀ b ∈ l, final b = false) : LastWord final part (l ++ [a]) := by
  refine List.pairwise_append.mpr ⟨h, List.pairwise_singleton _ _, ?_⟩
  intro b hb c hc hfnl
  obtain rfl := List.mem_singleton.mp hc
  cases hpart : part c with
  | false => rfl
  | true => exact absurd ((hopen hpart b hb).symm.trans hfnl) Bool.false_ne_true

theorem once (h : LastWord final part l) (hpart : ∀ a, final a = true → part a = true) :
    l.countP final ≤ 1 := by
  induction l with
  | nil => exact Nat.zero_le 1
  | cons a l ih =>
    rw [List.countP_cons]
    split
    · rename_i ha
      have hrest : l.countP final = 0 := by
        refine List.countP_eq_zero.mpr fun b hb hfnl => ?_
        exact absurd ((h.rest ha b hb).symm.trans (hpart b hfnl)) Bool.false_ne_true
      exact Nat.le_of_eq (congrArg (· + 1) hrest)
    · exact ih (h.sublist (List.sublist_cons_self a l))

end LastWord

end OmniRealtime
