import Mathlib

/-!
# Accounts that are settled from time to time

An account is a list of what was consumed and what was settled, with marks in between. An account
is fair if every settlement is of what was consumed since the one before, whatever marks there are.

1. `Fair.concat`: an entry more.
2. `Fair.total`: nothing is settled twice, and nothing is lost.
-/

namespace OmniRealtime

universe u

inductive AccountEntry (α : Type u)
  | consumed (amount : α)
  | settled (amount : α)
  | mark
  deriving DecidableEq, Repr

open AccountEntry

namespace AccountEntry

variable {α : Type u}

def consumption [Zero α] : AccountEntry α → α
  | .consumed amount => amount
  | _ => 0

def settlement? : AccountEntry α → Option α
  | .settled amount => some amount
  | _ => none

end AccountEntry

namespace Account

variable {α : Type u} [AddCommMonoid α] {account : List (AccountEntry α)} {entry : AccountEntry α}

def owe (owed : α) : AccountEntry α → α
  | .consumed amount => owed + amount
  | .settled _ => 0
  | .mark => owed

/-- What was consumed since the last settlement. -/
def owed (account : List (AccountEntry α)) : α := account.foldl owe 0

def settlements (account : List (AccountEntry α)) : List α :=
  account.filterMap AccountEntry.settlement?

def consumption (account : List (AccountEntry α)) : α :=
  (account.map AccountEntry.consumption).sum

/-- Every settlement is of what was owed then. -/
def Fair (account : List (AccountEntry α)) : Prop :=
  ∀ before amount after, account = before ++ .settled amount :: after → amount = owed before

@[simp] theorem owed_nil : owed ([] : List (AccountEntry α)) = 0 := rfl

@[simp] theorem owed_concat : owed (account ++ [entry]) = owe (owed account) entry := by
  simp [owed]

omit [AddCommMonoid α] in
@[simp] theorem settlements_concat :
    settlements (account ++ [entry]) = settlements account ++ entry.settlement?.toList := by
  cases entry <;> simp [settlements, settlement?]

@[simp] theorem consumption_concat :
    consumption (account ++ [entry]) = consumption account + entry.consumption := by
  simp [consumption]

theorem Fair.nil : Fair ([] : List (AccountEntry α)) := by
  intro before amount after heq
  exact absurd heq (by simp)

theorem Fair.concat (h : Fair account)
    (hent : ∀ amount, entry = .settled amount → amount = owed account) :
    Fair (account ++ [entry]) := by
  intro before amount after heq
  rcases List.eq_nil_or_concat' after with rfl | ⟨rest, last, rfl⟩
  · obtain ⟨rfl, hlast⟩ := List.append_inj' heq rfl
    exact hent amount (List.cons.inj hlast).1
  · rw [← List.cons_append, ← List.append_assoc] at heq
    obtain ⟨rfl, -⟩ := List.append_inj' heq rfl
    exact h before amount rest rfl

theorem Fair.of_concat (h : Fair (account ++ [entry])) : Fair account := by
  intro before amount after heq
  exact h before amount (after ++ [entry]) (by rw [heq]; simp)

/-- What was consumed has been settled once, or is owed. -/
theorem Fair.total (h : Fair account) :
    consumption account = (settlements account).sum + owed account := by
  induction account using List.reverseRecOn with
  | nil => simp [consumption, settlements]
  | append_singleton account entry ih =>
    have hbef := ih h.of_concat
    cases entry with
    | consumed amount =>
      simp [hbef, AccountEntry.consumption, settlement?, owe, add_assoc]
    | settled amount =>
      have hamount : amount = owed account := h account amount [] rfl
      simp [hbef, AccountEntry.consumption, settlement?, owe, hamount]
    | mark => simp [hbef, AccountEntry.consumption, settlement?, owe]

end Account

end OmniRealtime
