import Mathlib.Algebra.BigOperators.Ring.Finset
import Mathlib.Algebra.Order.BigOperators.Group.Finset

/-! # Sums over an updated map

    Aggregates kept next to a map: how the sum of a quantity over its
    entries changes when one entry does, and how floored shares of a pool
    stay within it. -/

namespace FiniteSum

open Function Finset

variable {ι α : Type}

variable {s : Finset ι} {i : ι}

theorem sum_change [DecidableEq ι] (hi : i ∈ s) {f g : ι → ℕ} (hsame : ∀ x, x ≠ i → g x = f x) :
    ∑ x ∈ s, g x + f i = ∑ x ∈ s, f x + g i := by
  have hrest : ∑ x ∈ s.erase i, g x = ∑ x ∈ s.erase i, f x :=
    sum_congr rfl fun x hx => hsame x (ne_of_mem_erase hx)
  rw [← add_sum_erase s g hi, ← add_sum_erase s f hi, hrest]
  omega

theorem sum_update [DecidableEq ι] (hi : i ∈ s) (φ : ι → α → ℕ) (f : ι → α) (b : α) :
    ∑ x ∈ s, φ x (update f i b x) + φ i (f i) = ∑ x ∈ s, φ x (f x) + φ i b := by
  rw [sum_change hi (f := fun x => φ x (f x)) fun x hx => by rw [update_of_ne hx], update_self]

theorem sum_update_univ [DecidableEq ι] [Fintype ι] (f : ι → ℕ) (u : ι) (n : ℕ) :
    ∑ x, update f u n x + f u = ∑ x, f x + n :=
  sum_update (mem_univ u) (fun _ n => n) f n

theorem sum_update_row {κ : Type} [DecidableEq ι] [DecidableEq κ] [Fintype κ] (f : ι → κ → ℕ)
    (i j : ι) (k : κ) (b : ℕ) :
    ∑ x, update f i (update (f i) k b) j x + (Pi.single i (f i k) : ι → ℕ) j
      = ∑ x, f j x + (Pi.single i b : ι → ℕ) j := by
  by_cases hj : j = i
  · subst hj
    rw [Pi.single_eq_same, Pi.single_eq_same, update_self]
    exact sum_update (mem_univ k) (fun _ n => n) (f j) b
  · rw [Pi.single_eq_of_ne hj, Pi.single_eq_of_ne hj, update_of_ne hj]

/-- Floored shares of a pool add up to at most the pool. -/
theorem sum_share_le (s : Finset ι) (amount : ι → ℕ) {pool total : ℕ}
    (h : ∑ x ∈ s, amount x ≤ total) : ∑ x ∈ s, amount x * pool / total ≤ pool := by
  rcases Nat.eq_zero_or_pos total with rfl | hpos
  · simp
  · refine Nat.le_of_mul_le_mul_right ?_ hpos
    calc (∑ x ∈ s, amount x * pool / total) * total
        = ∑ x ∈ s, amount x * pool / total * total := sum_mul ..
      _ ≤ ∑ x ∈ s, amount x * pool := sum_le_sum fun x _ => Nat.div_mul_le_self _ _
      _ = (∑ x ∈ s, amount x) * pool := (sum_mul ..).symm
      _ ≤ total * pool := Nat.mul_le_mul_right _ h
      _ = pool * total := Nat.mul_comm ..

end FiniteSum
