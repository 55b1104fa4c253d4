import Mathlib.Algebra.BigOperators.Field
import Mathlib.Algebra.Polynomial.Roots

/-! # How often uniform challenges go wrong

    A verifier draws its challenges uniformly and the prover answers each
    knowing only the earlier ones.  `fraction` is the share of the challenges
    for which something happens. -/

namespace ChallengeGame

open Classical in
/-- The share of the outcomes for which `P` holds. -/
noncomputable def fraction {Ω : Type} [Fintype Ω] (P : Ω → Prop) : ℚ :=
  (∑ ω, if P ω then (1 : ℚ) else 0) / Fintype.card Ω

variable {Ω Ω' α β : Type} [Fintype Ω] [Fintype Ω'] [Fintype α] [Fintype β]

theorem fraction_mono {P Q : Ω → Prop} (h : ∀ ω, P ω → Q ω) : fraction P ≤ fraction Q := by
  refine div_le_div_of_nonneg_right (Finset.sum_le_sum fun ω _ => ?_) (Nat.cast_nonneg _)
  by_cases hP : P ω
  · rw [if_pos hP, if_pos (h ω hP)]
  · rw [if_neg hP]
    split
    · exact zero_le_one
    · exact le_refl 0

theorem fraction_le_one (P : Ω → Prop) : fraction P ≤ 1 := by
  have hsum : (∑ ω : Ω, (1 : ℚ)) / Fintype.card Ω ≤ 1 := by
    rw [Finset.sum_const, Finset.card_univ, nsmul_eq_mul, mul_one]
    exact div_self_le_one _
  refine le_trans (div_le_div_of_nonneg_right (Finset.sum_le_sum fun ω _ => ?_) (Nat.cast_nonneg _)) hsum
  split
  · exact le_refl 1
  · exact zero_le_one

theorem fraction_eq_zero {P : Ω → Prop} (h : ∀ ω, ¬ P ω) : fraction P = 0 := by
  rw [fraction, Finset.sum_eq_zero fun ω _ => if_neg (h ω), zero_div]

theorem fraction_or_le (P Q : Ω → Prop) : fraction (fun ω => P ω ∨ Q ω) ≤ fraction P + fraction Q := by
  rw [fraction, fraction, fraction, ← add_div, ← Finset.sum_add_distrib]
  refine div_le_div_of_nonneg_right (Finset.sum_le_sum fun ω _ => ?_) (Nat.cast_nonneg _)
  by_cases hP : P ω
  · rw [if_pos (Or.inl hP), if_pos hP]
    split <;> norm_num
  · by_cases hQ : Q ω
    · rw [if_pos (Or.inr hQ), if_neg hP, if_pos hQ, zero_add]
    · rw [if_neg (not_or.mpr ⟨hP, hQ⟩), if_neg hP, if_neg hQ, zero_add]

theorem fraction_equiv (e : Ω ≃ Ω') (P : Ω' → Prop) : fraction (fun ω => P (e ω)) = fraction P := by
  classical
  rw [fraction, fraction, Fintype.card_congr e]
  exact congrArg (· / _) (Equiv.sum_comp e fun ω => if P ω then (1 : ℚ) else 0)

theorem fraction_prod (P : α × β → Prop) : fraction P = (∑ a, fraction fun b => P (a, b)) / Fintype.card α := by
  rw [fraction, Fintype.sum_prod_type, Fintype.card_prod, Nat.cast_mul, mul_comm, ← div_div, Finset.sum_div]
  rfl

/-- **ESCAPE RULE**: the first part goes wrong, or else the second does. -/
theorem fraction_escape {P : α × β → Prop} {Bad : α → Prop} {x y : ℚ} (hbad : fraction Bad ≤ x) (hy : 0 ≤ y)
    (hgood : ∀ a, ¬ Bad a → fraction (fun b => P (a, b)) ≤ y) : fraction P ≤ x + y := by
  classical
  have hpoint : ∀ a, fraction (fun b => P (a, b)) ≤ (if Bad a then 1 else 0) + y := by
    intro a
    by_cases ha : Bad a
    · rw [if_pos ha]
      exact le_trans (fraction_le_one _) (le_add_of_nonneg_right hy)
    · rw [if_neg ha, zero_add]
      exact hgood a ha
  have hmean : (∑ _ : α, y) / Fintype.card α ≤ y := by
    rw [Finset.sum_const, Finset.card_univ, nsmul_eq_mul, mul_div_right_comm]
    exact mul_le_of_le_one_left hy (div_self_le_one _)
  calc fraction P = (∑ a, fraction fun b => P (a, b)) / Fintype.card α := fraction_prod P
    _ ≤ (∑ a, ((if Bad a then 1 else 0) + y)) / Fintype.card α :=
        div_le_div_of_nonneg_right (Finset.sum_le_sum fun a _ => hpoint a) (Nat.cast_nonneg _)
    _ = (∑ a, if Bad a then 1 else 0) / Fintype.card α + (∑ _ : α, y) / Fintype.card α := by
        rw [Finset.sum_add_distrib, add_div]
    _ ≤ x + y := add_le_add hbad hmean

theorem fraction_skip {P : α × β → Prop} {y : ℚ} (hy : 0 ≤ y) (h : ∀ a, fraction (fun b => P (a, b)) ≤ y) :
    fraction P ≤ y := by
  have hnever : fraction (fun _ : α => False) ≤ 0 := le_of_eq (fraction_eq_zero fun _ => not_false)
  have hescape := fraction_escape hnever hy fun a _ => h a
  rwa [zero_add] at hescape

theorem fraction_fst_le {P : α → Prop} {x : ℚ} (h : fraction P ≤ x) : fraction (fun ω : α × β => P ω.1) ≤ x := by
  have hescape := fraction_escape h (le_refl 0) (P := fun ω : α × β => P ω.1) fun a ha =>
    le_of_eq (fraction_eq_zero fun _ => ha)
  rwa [add_zero] at hescape

/-- The escape rule for a vector of challenges and its first one. -/
theorem fraction_cons_escape {F : Type} [Fintype F] {n : ℕ} {P : List F → Prop} {Bad : F → Prop} {x y : ℚ}
    (hbad : fraction Bad ≤ x) (hy : 0 ≤ y)
    (hgood : ∀ c, ¬ Bad c → fraction (fun v : Fin n → F => P (c :: List.ofFn v)) ≤ y) :
    fraction (fun v : Fin (n + 1) → F => P (List.ofFn v)) ≤ x + y := by
  have hsplit : fraction (fun v : Fin (n + 1) → F => P (List.ofFn v))
      = fraction fun u : F × (Fin n → F) => P (u.1 :: List.ofFn u.2) := by
    rw [← fraction_equiv (Fin.consEquiv fun _ => F)]
    refine congrArg fraction (funext fun u => ?_)
    rw [List.ofFn_succ]
    rfl
  rw [hsplit]
  exact fraction_escape hbad hy hgood

theorem fraction_nil {F : Type} [Fintype F] {P : List F → Prop} (h : ¬ P []) :
    fraction (fun v : Fin 0 → F => P (List.ofFn v)) = 0 :=
  fraction_eq_zero fun v => by rwa [List.ofFn_zero]

theorem fraction_le_of_mem {F : Type} [Fintype F] {P : F → Prop} {S : Finset F} {k : ℕ}
    (h : ∀ c, P c → c ∈ S) (hk : S.card ≤ k) :
    fraction P ≤ k / Fintype.card F := by
  classical
  refine div_le_div_of_nonneg_right ?_ (Nat.cast_nonneg _)
  rw [Finset.sum_boole]
  exact_mod_cast le_trans (Finset.card_le_card fun c hc => h c (Finset.mem_filter.mp hc).2) hk

section Roots

variable {F : Type} [Field F] [Fintype F]

open Polynomial

/-- **ROOTS**: a polynomial of degree at most `d` that is not zero is zero at few challenges. -/
theorem fraction_roots_le {p : F[X]} {d : ℕ} (hp : p ≠ 0) (hd : p.natDegree ≤ d) :
    fraction (fun c => p.eval c = 0) ≤ d / Fintype.card F := by
  classical
  refine fraction_le_of_mem (S := p.roots.toFinset) (fun c hc => ?_) ?_
  · exact Multiset.mem_toFinset.mpr ((mem_roots hp).mpr hc)
  · exact le_trans (Multiset.toFinset_card_le _) (le_trans (card_roots' p) hd)

theorem fraction_agree_le {p q : F[X]} {d : ℕ} (hne : p ≠ q) (hp : p.natDegree ≤ d) (hq : q.natDegree ≤ d) :
    fraction (fun c => p.eval c = q.eval c) ≤ d / Fintype.card F := by
  have hroots := fraction_roots_le (sub_ne_zero.mpr hne) (le_trans (natDegree_sub_le p q) (max_le hp hq))
  refine le_trans (fraction_mono fun c hc => ?_) hroots
  rw [eval_sub, hc, sub_self]

end Roots

end ChallengeGame
