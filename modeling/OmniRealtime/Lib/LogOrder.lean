import Mathlib

/-!
# Order of the entries of a log

Events are appended to a log, and a property of their order is shown one append at a time.

1. `Owes`: an entry that asks for an answer has none yet, and was made before the log was closed.
2. `Outside`: an operation happens only outside the intervals between opening and closing.
-/

namespace OmniRealtime

open List

universe u

namespace LogOrder

variable {α : Type u} {log before after : List α} {a e : α}

/-- Some `ask` that no `close` precedes is followed by no `answer`. -/
def Owes (ask close answer : α) (log : List α) : Prop :=
  ∃ before after, log = before ++ ask :: after ∧ close ∉ before ∧ answer ∉ after

/-- Every `op` that an `opening` precedes, a `closing` precedes too. -/
def Outside (op opening closing : α) (log : List α) : Prop :=
  ∀ before after, log = before ++ op :: after → opening ∈ before → closing ∈ before

/-- Where an entry of a longer log stands: among the old ones, or at the end. -/
theorem concat_eq_append_cons :
    log ++ [e] = before ++ a :: after ↔ (∃ rest, after = rest ++ [e] ∧ log = before ++ a :: rest) ∨
        after = [] ∧ before = log ∧ a = e := by
  constructor
  · intro h
    rcases eq_nil_or_concat after with rfl | ⟨rest, last, rfl⟩
    · obtain ⟨rfl, hlast⟩ := append_inj' h rfl
      exact .inr ⟨rfl, rfl, (singleton_inj.mp hlast).symm⟩
    · rw [concat_eq_append, ← cons_append, ← append_assoc] at h
      obtain ⟨rfl, hlast⟩ := append_inj' h rfl
      exact .inl ⟨rest, by rw [concat_eq_append, singleton_inj.mp hlast], rfl⟩
  · rintro (⟨rest, rfl, rfl⟩ | ⟨rfl, rfl, rfl⟩)
    · simp
    · rfl

section Owes

variable {ask close answer : α}

theorem not_owes_nil : ¬Owes ask close answer [] := by
  rintro ⟨before, after, h, -, -⟩
  simp at h

theorem owes_concat :
    Owes ask close answer (log ++ [e]) ↔
      Owes ask close answer log ∧ e ≠ answer ∨ e = ask ∧ close ∉ log := by
  constructor
  · rintro ⟨before, after, h, hclose, hanswer⟩
    obtain ⟨rest, rfl, rfl⟩ | ⟨rfl, rfl, rfl⟩ := concat_eq_append_cons.mp h
    · rw [mem_append, not_or, mem_singleton] at hanswer
      exact .inl ⟨⟨before, rest, rfl, hclose, hanswer.1⟩, Ne.symm hanswer.2⟩
    · exact .inr ⟨rfl, hclose⟩
  · rintro (⟨⟨before, after, rfl, hclose, hanswer⟩, hne⟩ | ⟨rfl, hclose⟩)
    · refine ⟨before, after ++ [e], by simp, hclose, ?_⟩
      rw [mem_append, not_or, mem_singleton]
      exact ⟨hanswer, Ne.symm hne⟩
    · exact ⟨log, [], rfl, hclose, not_mem_nil⟩

/-- An answer settles all that was asked. -/
theorem not_owes_answer (h : answer ≠ ask) : ¬Owes ask close answer (log ++ [answer]) := by
  rw [owes_concat]
  rintro (⟨-, hne⟩ | ⟨heq, -⟩)
  · exact hne rfl
  · exact h heq

theorem Owes.of_concat (h : Owes ask close answer (log ++ [e])) (hne : e ≠ ask) :
    Owes ask close answer log := by
  obtain ⟨ho, -⟩ | ⟨heq, -⟩ := owes_concat.mp h
  · exact ho
  · exact absurd heq hne

end Owes

section Outside

variable {op opening closing : α}

theorem outside_nil : Outside op opening closing [] := by
  intro before after h
  simp at h

theorem outside_concat :
    Outside op opening closing (log ++ [e]) ↔
      Outside op opening closing log ∧ (e = op → opening ∈ log → closing ∈ log) := by
  constructor
  · intro h
    refine ⟨fun before after hlog => h before (after ++ [e]) (by simp [hlog]), ?_⟩
    rintro rfl
    exact h log [] rfl
  · rintro ⟨h, hlast⟩ before after hlog
    obtain ⟨rest, -, hold⟩ | ⟨-, rfl, heq⟩ := concat_eq_append_cons.mp hlog
    · exact h before rest hold
    · exact hlast heq.symm

/-- Any other event leaves the operations where they were. -/
theorem Outside.concat (h : Outside op opening closing log) (hne : e ≠ op) :
    Outside op opening closing (log ++ [e]) :=
  outside_concat.mpr ⟨h, fun heq => absurd heq hne⟩

end Outside

end LogOrder

end OmniRealtime
