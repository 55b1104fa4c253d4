import Mathlib.Algebra.Order.BigOperators.Group.Finset
import Mathlib.Algebra.GroupWithZero.Nat

/-! # Balance sheets

    A sheet lists amounts by account, each account once.  Two sheets of the same
    accounts are compared account by account: what rose, what fell, and how the
    two totals differ. -/

namespace BalanceSheet

variable {κ : Type} [DecidableEq κ]

/-- Amounts by account. -/
abbrev Sheet (κ : Type) := List (κ × ℕ)

/-- The account's amount; an account that is not listed has none. -/
def amountAt (sheet : Sheet κ) (i : κ) : ℕ := (sheet.lookup i).getD 0

def total (sheet : Sheet κ) : ℕ := (sheet.map Prod.snd).sum

theorem amountAt_cons (i j : κ) (a : ℕ) (rest : Sheet κ) :
    amountAt ((i, a) :: rest) j = if j = i then a else amountAt rest j := by
  unfold amountAt
  rw [List.lookup_cons]
  by_cases h : j = i
  · simp [h]
  · have hne : (j == i) = false := beq_eq_false_iff_ne.mpr h
    rw [if_neg h, hne]

variable {sheet : Sheet κ}

theorem amountAt_of_not_mem {i : κ} (h : i ∉ sheet.map Prod.fst) : amountAt sheet i = 0 := by
  induction sheet with
  | nil => rfl
  | cons entry rest ih =>
    rw [List.map_cons, List.mem_cons, not_or] at h
    rw [amountAt_cons, if_neg h.1, ih h.2]

/-- A sum over the listed accounts is a sum over any set of accounts that has
    them, when accounts that are not listed add nothing. -/
theorem sum_entries (hnodup : (sheet.map Prod.fst).Nodup) {accounts : Finset κ}
    (hsub : ∀ i ∈ sheet.map Prod.fst, i ∈ accounts) (g : κ → ℕ → ℕ) (hzero : ∀ i, g i 0 = 0) :
    (sheet.map fun entry => g entry.1 entry.2).sum = ∑ i ∈ accounts, g i (amountAt sheet i) := by
  induction sheet with
  | nil => simp [amountAt, hzero]
  | cons entry rest ih =>
    obtain ⟨i, a⟩ := entry
    rw [List.map_cons, List.nodup_cons] at hnodup
    have hi : i ∈ accounts := hsub i (by simp)
    have hrest := ih hnodup.2 fun j hj => hsub j (List.mem_cons_of_mem _ hj)
    have hothers : ∑ j ∈ accounts.erase i, g j (amountAt ((i, a) :: rest) j) =
        ∑ j ∈ accounts.erase i, g j (amountAt rest j) := by
      apply Finset.sum_congr rfl
      intro j hj
      rw [amountAt_cons, if_neg (Finset.ne_of_mem_erase hj)]
    rw [List.map_cons, List.sum_cons, hrest, ← Finset.add_sum_erase accounts _ hi, ← Finset.add_sum_erase accounts _ hi,
      hothers, amountAt_cons, if_pos rfl, amountAt_of_not_mem hnodup.1, hzero, zero_add]

end BalanceSheet
