import Mathlib

/-!
# Runs with a hangover

A signal of flags in time. A run starts with the first flag that is set, goes on over pauses that
are shorter than `gap`, and ends at its last flag once `gap` flags in a row were not set.

1. `Quiet`: how long the signal has been quiet.
2. `Opens`, `Closes`: the run that is open at the end of the signal, and a run that has ended;
   `Opens.of_quiet`, `Opens.snoc_true`, `Opens.snoc_false`, `Opens.close` follow one more flag.
-/

namespace OmniRealtime

namespace Hangover

/-- The last `q` flags are not set; the one before them is. -/
structure Quiet (flags : List Bool) (q : ℕ) : Prop where
  le : q ≤ flags.length
  silent : ∀ k, flags.length ≤ k + q → k < flags.length → flags[k]? = some false
  last : q = flags.length ∨ flags[flags.length - q - 1]? = some true

/-- The run that started at `i` is open. -/
structure Opens (gap : ℕ) (flags : List Bool) (i : ℕ) : Prop where
  start : flags[i]? = some true
  fresh : ∀ k, k < i → i ≤ k + gap → flags[k]? = some false
  dense : ∀ k, i ≤ k → k + gap ≤ flags.length →
    ∃ m, k ≤ m ∧ m < k + gap ∧ flags[m]? = some true

/-- The flags from `i` to `j` are a run that has ended. -/
structure Closes (gap : ℕ) (flags : List Bool) (i j : ℕ) : Prop where
  start : flags[i]? = some true
  fresh : ∀ k, k < i → i ≤ k + gap → flags[k]? = some false
  le : i ≤ j
  last : flags[j]? = some true
  dense : ∀ k, i ≤ k → k + gap ≤ j + 1 → ∃ m, k ≤ m ∧ m < k + gap ∧ flags[m]? = some true
  silent : ∀ k, j < k → k ≤ j + gap → flags[k]? = some false

variable {gap : ℕ} {flags : List Bool} {q i j : ℕ}

theorem getElem?_snoc_of_some {b c : Bool} {k : ℕ} (h : flags[k]? = some b) :
    (flags ++ [c])[k]? = some b := by
  rw [List.getElem?_append_left (List.getElem?_eq_some_iff.mp h).1]
  exact h

theorem getElem?_snoc_self (b : Bool) : (flags ++ [b])[flags.length]? = some b :=
  List.getElem?_concat_length

namespace Quiet

theorem nil : Quiet [] 0 := ⟨Nat.le_refl 0, fun _ _ h => absurd h (Nat.not_lt_zero _), .inl rfl⟩

theorem snoc_true (flags : List Bool) : Quiet (flags ++ [true]) 0 := by
  refine ⟨Nat.zero_le _, fun k hle hlt => absurd hlt (Nat.not_lt.mpr hle), .inr ?_⟩
  rw [List.length_append, Nat.sub_zero]
  exact getElem?_snoc_self true

theorem snoc_false (h : Quiet flags q) : Quiet (flags ++ [false]) (q + 1) := by
  have hlen : (flags ++ [false]).length = flags.length + 1 := List.length_append
  refine ⟨hlen ▸ Nat.succ_le_succ h.le, fun k hle hlt => ?_, ?_⟩
  · rw [hlen] at hle hlt
    rcases Nat.lt_succ_iff_lt_or_eq.mp hlt with hk | rfl
    · exact getElem?_snoc_of_some (h.silent k (Nat.le_of_succ_le_succ hle) hk)
    · exact getElem?_snoc_self false
  · rcases h.last with heq | hlast
    · exact .inl (hlen ▸ congrArg Nat.succ heq)
    · refine .inr ?_
      rw [hlen, Nat.succ_sub_succ]
      exact getElem?_snoc_of_some hlast

theorem set_lt (h : Quiet flags q) (hset : flags[i]? = some true) : i + q < flags.length := by
  by_contra hlate
  have hsilent := h.silent i (Nat.not_lt.mp hlate) (List.getElem?_eq_some_iff.mp hset).1
  rw [hset] at hsilent
  cases hsilent

theorem last_set (h : Quiet flags q) (hset : flags[i]? = some true) :
    flags[flags.length - q - 1]? = some true := by
  refine h.last.resolve_left fun heq => ?_
  have hlt := h.set_lt hset
  rw [heq] at hlt
  exact absurd hlt (Nat.not_lt.mpr (Nat.le_add_left ..))

end Quiet

namespace Opens

/-- A flag that is set after a pause, or at first, starts a run. -/
theorem of_quiet (hgap : 0 < gap) (h : Quiet flags q) (hpause : gap ≤ q ∨ q = flags.length) :
    Opens gap (flags ++ [true]) flags.length := by
  refine ⟨getElem?_snoc_self true, fun k hk hn => ?_, fun k hk hend => ?_⟩
  · refine getElem?_snoc_of_some (h.silent k ?_ hk)
    rcases hpause with hlong | rfl
    · exact Nat.le_trans hn (Nat.add_le_add_left hlong k)
    · exact Nat.le_add_left ..
  · have hlen : (flags ++ [true]).length = flags.length + 1 := List.length_append
    exact ⟨flags.length, by omega, by omega, getElem?_snoc_self true⟩

section

variable (h : Opens gap flags i)
include h

theorem snoc {b : Bool} (hlast : ∀ k, k + gap = flags.length + 1 →
    ∃ m, k ≤ m ∧ m < k + gap ∧ (flags ++ [b])[m]? = some true) : Opens gap (flags ++ [b]) i := by
  refine ⟨getElem?_snoc_of_some h.start, fun k hk hn => getElem?_snoc_of_some (h.fresh k hk hn),
    fun k hk hend => ?_⟩
  rw [List.length_append] at hend
  rcases Nat.le_succ_iff.mp hend with hend | hend
  · obtain ⟨m, hkm, hm, hset⟩ := h.dense k hk hend
    exact ⟨m, hkm, hm, getElem?_snoc_of_some hset⟩
  · exact hlast k hend

theorem snoc_true (hgap : 0 < gap) : Opens gap (flags ++ [true]) i := by
  refine h.snoc fun k hend => ?_
  exact ⟨flags.length, by omega, by omega, getElem?_snoc_self true⟩

theorem snoc_false (hq : Quiet flags q) (hshort : q + 1 < gap) :
    Opens gap (flags ++ [false]) i := by
  refine h.snoc fun k hend => ?_
  have hlt := hq.set_lt h.start
  exact ⟨flags.length - q - 1, by omega, by omega, getElem?_snoc_of_some (hq.last_set h.start)⟩

/-- A pause that is long enough ends the run at the last flag that was set. -/
theorem close (hq : Quiet flags q) (hlong : q + 1 = gap) :
    Closes gap (flags ++ [false]) i (flags.length - q - 1) := by
  have hlt := hq.set_lt h.start
  refine ⟨getElem?_snoc_of_some h.start, fun k hk hn => getElem?_snoc_of_some (h.fresh k hk hn),
    by omega, getElem?_snoc_of_some (hq.last_set h.start), fun k hk hend => ?_, fun k hk hn => ?_⟩
  · obtain ⟨m, hkm, hm, hset⟩ := h.dense k hk (by omega)
    exact ⟨m, hkm, hm, getElem?_snoc_of_some hset⟩
  · rcases Nat.lt_or_ge k flags.length with hin | hout
    · exact getElem?_snoc_of_some (hq.silent k (by omega) hin)
    · obtain rfl : k = flags.length := by omega
      exact getElem?_snoc_self false

end

end Opens

/-- What comes later does not change a run that has ended. -/
theorem Closes.append (h : Closes gap flags i j) (later : List Bool) :
    Closes gap (flags ++ later) i j := by
  have hold : ∀ {k : ℕ} {b : Bool}, flags[k]? = some b → (flags ++ later)[k]? = some b := by
    intro k b hk
    rw [List.getElem?_append_left (List.getElem?_eq_some_iff.mp hk).1]
    exact hk
  refine ⟨hold h.start, fun k hk hn => hold (h.fresh k hk hn), h.le, hold h.last,
    fun k hk hend => ?_, fun k hk hn => hold (h.silent k hk hn)⟩
  obtain ⟨m, hkm, hm, hset⟩ := h.dense k hk hend
  exact ⟨m, hkm, hm, hold hset⟩

end Hangover

end OmniRealtime
