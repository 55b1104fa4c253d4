import Chit402.ChallengeGameProofs
import Mathlib.Tactic.LinearCombination

/-! # Multilinear extensions, folded one variable at a time

    A function on the numbers below `2 ^ n` extends to a multilinear
    polynomial in `n` variables, the first of which is the high bit.
    `fold` fixes the first variable, `ext` all of them. -/

namespace Multilinear

open Finset Polynomial ChallengeGame

section Extension

variable {F : Type} [CommRing F]

/-- The first of `n + 1` variables is fixed to `c`. -/
def fold (n : ℕ) (c : F) (f : ℕ → F) (x : ℕ) : F := f x + c * (f (2 ^ n + x) - f x)

/-- The multilinear extension of `f`. -/
def ext : List F → (ℕ → F) → F
  | [], f => f 0
  | c :: r, f => ext r (fold r.length c f)

/-- The weight of `x` in the extension. -/
def weight : List F → ℕ → F
  | [], _ => 1
  | c :: r, x => if x < 2 ^ r.length then (1 - c) * weight r x else c * weight r (x - 2 ^ r.length)

theorem weight_low {c : F} {r : List F} {x : ℕ} (h : x < 2 ^ r.length) :
    weight (c :: r) x = (1 - c) * weight r x := if_pos h

theorem weight_high (c : F) (r : List F) (x : ℕ) : weight (c :: r) (2 ^ r.length + x) = c * weight r x := by
  rw [weight, if_neg (Nat.not_lt.mpr (Nat.le_add_right _ _)), Nat.add_sub_cancel_left]

theorem sum_halves (n : ℕ) (f : ℕ → F) :
    ∑ x ∈ range (2 ^ (n + 1)), f x = ∑ x ∈ range (2 ^ n), f x + ∑ x ∈ range (2 ^ n), f (2 ^ n + x) := by
  rw [pow_succ, mul_two, sum_range_add]

theorem ext_eq_sum (r : List F) (f : ℕ → F) : ext r f = ∑ x ∈ range (2 ^ r.length), weight r x * f x := by
  induction r generalizing f with
  | nil => rw [List.length_nil, pow_zero, sum_range_one, ext, weight, one_mul]
  | cons c r ih =>
    rw [ext, ih, List.length_cons, sum_halves, ← sum_add_distrib]
    refine sum_congr rfl fun x hx => ?_
    rw [weight_low (mem_range.mp hx), weight_high, fold]
    ring

theorem ext_congr {r : List F} {f g : ℕ → F} (h : ∀ x < 2 ^ r.length, f x = g x) : ext r f = ext r g := by
  rw [ext_eq_sum, ext_eq_sum]
  exact sum_congr rfl fun x hx => by rw [h x (mem_range.mp hx)]

theorem ext_add (r : List F) (f g : ℕ → F) : ext r (fun x => f x + g x) = ext r f + ext r g := by
  rw [ext_eq_sum, ext_eq_sum, ext_eq_sum, ← sum_add_distrib]
  exact sum_congr rfl fun x _ => mul_add ..

theorem ext_mul (r : List F) (c : F) (f : ℕ → F) : ext r (fun x => c * f x) = c * ext r f := by
  rw [ext_eq_sum, ext_eq_sum, mul_sum]
  exact sum_congr rfl fun x _ => mul_left_comm ..

theorem ext_sub (r : List F) (f g : ℕ → F) : ext r (fun x => f x - g x) = ext r f - ext r g := by
  rw [ext_eq_sum, ext_eq_sum, ext_eq_sum, ← sum_sub_distrib]
  exact sum_congr rfl fun x _ => mul_sub ..

theorem ext_sum {ι : Type} (r : List F) (s : Finset ι) (f : ι → ℕ → F) :
    ext r (fun x => ∑ i ∈ s, f i x) = ∑ i ∈ s, ext r (f i) := by
  rw [ext_eq_sum]
  simp only [ext_eq_sum, mul_sum]
  exact sum_comm

theorem ext_const (r : List F) (c : F) : ext r (fun _ => c) = c := by
  induction r with
  | nil => rfl
  | cons d r ih =>
    rw [ext, ext_congr (g := fun _ => c) fun x _ => by rw [fold, sub_self, mul_zero, add_zero], ih]

theorem ext_comm (r q : List F) (f : ℕ → ℕ → F) :
    ext r (fun i => ext q (f i)) = ext q (fun j => ext r fun i => f i j) := by
  rw [ext_eq_sum]
  have hrow : ∀ i, ext q (f i) = ∑ j ∈ range (2 ^ q.length), weight q j * f i j := fun i => ext_eq_sum q (f i)
  have hcol : ∀ j, (ext r fun i => f i j) = ∑ i ∈ range (2 ^ r.length), weight r i * f i j := fun j => ext_eq_sum r _
  rw [ext_eq_sum q]
  simp only [hrow, hcol, mul_sum]
  rw [sum_comm]
  exact sum_congr rfl fun j _ => sum_congr rfl fun i _ => mul_left_comm ..

theorem fold_ext (n : ℕ) (c : F) (q : List F) (f : ℕ → ℕ → F) (i : ℕ) :
    fold n c (fun i => ext q (f i)) i = ext q (fun j => fold n c (fun i => f i j) i) := by
  show ext q (f i) + c * (ext q (f (2 ^ n + i)) - ext q (f i)) = _
  rw [← ext_sub, ← ext_mul, ← ext_add]
  rfl

/-- Of a row-major matrix, the rows are the first variables. -/
theorem ext_append (r q : List F) (f : ℕ → F) :
    ext (r ++ q) f = ext r (fun i => ext q fun j => f (i * 2 ^ q.length + j)) := by
  induction r generalizing f with
  | nil =>
    show ext q f = ext q fun j => f (0 * 2 ^ q.length + j)
    exact ext_congr fun x _ => by rw [zero_mul, zero_add]
  | cons c r ih =>
    rw [List.cons_append, ext, ih, ext]
    refine ext_congr fun i _ => ?_
    rw [fold_ext]
    refine ext_congr fun j _ => ?_
    show f _ + c * (f (2 ^ (r ++ q).length + _) - f _) = f _ + c * (f ((2 ^ r.length + i) * 2 ^ q.length + j) - f _)
    rw [List.length_append, pow_add, add_mul, add_assoc]

end Extension

/-! ## Zero at few points -/

section Zero

variable {F : Type} [Field F] [Fintype F]

theorem fraction_line_zero_le {a b : F} (h : a ≠ 0 ∨ b ≠ 0) :
    fraction (fun c => a + c * (b - a) = 0) ≤ 1 / Fintype.card F := by
  have hne : (C a + X * C (b - a) : F[X]) ≠ 0 := by
    intro hzero
    have ha := congrArg (eval 0) hzero
    have hb := congrArg (eval 1) hzero
    simp only [eval_add, eval_mul, eval_X, eval_C, eval_zero, zero_mul, one_mul, add_zero, add_sub_cancel] at ha hb
    exact h.elim (· ha) (· hb)
  have hdeg : (C a + X * C (b - a) : F[X]).natDegree ≤ 1 := by compute_degree
  have hroots := fraction_roots_le hne hdeg
  rw [Nat.cast_one] at hroots
  refine le_trans (fraction_mono fun c hc => ?_) hroots
  rw [eval_add, eval_mul, eval_X, eval_C, eval_C]
  exact hc

/-- **RARELY ZERO**: the extension of a function that is not zero is zero at few points. -/
theorem fraction_ext_zero_le {n : ℕ} {f : ℕ → F} {x : ℕ} (hx : x < 2 ^ n) (hf : f x ≠ 0) :
    fraction (fun v : Fin n → F => ext (List.ofFn v) f = 0) ≤ n / Fintype.card F := by
  induction n generalizing f x with
  | zero =>
    rw [pow_zero, Nat.lt_one_iff] at hx
    subst hx
    rw [fraction_nil (P := fun r => ext r f = 0) hf]
    exact div_nonneg (Nat.cast_nonneg _) (Nat.cast_nonneg _)
  | succ n ih =>
    -- the low bits of `x` name a line that is not zero
    obtain ⟨y, hy, hline⟩ : ∃ y < 2 ^ n, f y ≠ 0 ∨ f (2 ^ n + y) ≠ 0 := by
      by_cases hlow : x < 2 ^ n
      · exact ⟨x, hlow, .inl hf⟩
      · refine ⟨x - 2 ^ n, ?_, .inr ?_⟩
        · rw [pow_succ, mul_two] at hx
          omega
        · rw [Nat.add_sub_cancel' (Nat.not_lt.mp hlow)]
          exact hf
    have hescape := fraction_cons_escape (P := fun r => ext r f = 0) (fraction_line_zero_le hline)
      (div_nonneg (Nat.cast_nonneg n) (Nat.cast_nonneg (Fintype.card F))) fun c hc => by
        refine le_trans (fraction_mono fun v hv => ?_) (ih (f := fold n c f) hy hc)
        rw [ext, List.length_ofFn] at hv
        exact hv
    rw [← add_div, add_comm (1 : ℚ)] at hescape
    rw [Nat.cast_succ]
    exact hescape

end Zero

/-! ## Sumcheck -/

section Sumcheck

variable {F : Type} [Field F]

/-- The sum over the cube of a product of functions. -/
def cubeSum (n : ℕ) (fs : List (ℕ → F)) : F := ∑ x ∈ range (2 ^ n), (fs.map fun f => f x).prod

/-- The sum with the first variable left open. -/
noncomputable def roundPoly (n : ℕ) (fs : List (ℕ → F)) : F[X] :=
  ∑ x ∈ range (2 ^ n), (fs.map fun f => C (f x) + X * C (f (2 ^ n + x) - f x)).prod

theorem roundPoly_eval (n : ℕ) (fs : List (ℕ → F)) (c : F) :
    (roundPoly n fs).eval c = cubeSum n (fs.map (fold n c)) := by
  rw [roundPoly, eval_finsetSum]
  refine sum_congr rfl fun x _ => ?_
  rw [eval_list_prod, List.map_map, List.map_map]
  refine congrArg List.prod (List.map_congr_left fun f _ => ?_)
  show eval c (C (f x) + X * C (f (2 ^ n + x) - f x)) = _
  rw [eval_add, eval_mul, eval_X, eval_C, eval_C]
  rfl

theorem roundPoly_natDegree_le (n : ℕ) (fs : List (ℕ → F)) : (roundPoly n fs).natDegree ≤ fs.length := by
  refine natDegree_sum_le_of_forall_le _ _ fun x _ => ?_
  have hfactor : ∀ p ∈ fs.map fun f => C (f x) + X * C (f (2 ^ n + x) - f x), p.natDegree ≤ 1 := by
    intro p hp
    obtain ⟨f, -, rfl⟩ := List.mem_map.mp hp
    compute_degree
  have hprod := natDegree_list_prod_le (fs.map fun f => C (f x) + X * C (f (2 ^ n + x) - f x))
  refine le_trans hprod (le_trans (List.sum_le_card_nsmul _ 1 ?_) (le_of_eq ?_))
  · intro d hd
    obtain ⟨p, hp, rfl⟩ := List.mem_map.mp hd
    exact hfactor p hp
  · rw [List.length_map, List.length_map, smul_eq_mul, mul_one]

theorem fold_zero (n : ℕ) (f : ℕ → F) : fold n 0 f = f :=
  funext fun x => by rw [fold, zero_mul, add_zero]

theorem fold_one (n : ℕ) (f : ℕ → F) (x : ℕ) : fold n 1 f x = f (2 ^ n + x) := by
  rw [fold, one_mul, add_sub_cancel]

theorem cubeSum_succ (n : ℕ) (fs : List (ℕ → F)) :
    cubeSum (n + 1) fs = (roundPoly n fs).eval 0 + (roundPoly n fs).eval 1 := by
  rw [roundPoly_eval, roundPoly_eval, cubeSum, sum_halves]
  refine congrArg₂ (· + ·) (sum_congr rfl fun x _ => ?_) (sum_congr rfl fun x _ => ?_)
  · rw [List.map_map]
    exact congrArg List.prod (List.map_congr_left fun f _ => by rw [Function.comp, fold_zero])
  · rw [List.map_map]
    exact congrArg List.prod (List.map_congr_left fun f _ => (fold_one n f x).symm)

/-- What the verifier accepts, at challenges given: each polynomial adds up to the claim
    before, and the last claim is the product of the extensions. -/
def Convinces (g : List F → F[X]) (claim : F) (fs : List (ℕ → F)) : List F → Prop
  | [] => claim = (fs.map fun f => f 0).prod
  | c :: r => (g []).eval 0 + (g []).eval 1 = claim ∧
      Convinces (fun before => g (c :: before)) ((g []).eval c) (fs.map (fold r.length c)) r

variable [Fintype F]

/-- **SUMCHECK**: a wrong claim convinces at few challenges. -/
theorem sumcheck_sound {n d : ℕ} {g : List F → F[X]} {claim : F} {fs : List (ℕ → F)} (hg : ∀ r, (g r).natDegree ≤ d)
    (hfs : fs.length ≤ d) (hclaim : claim ≠ cubeSum n fs) :
    fraction (fun v : Fin n → F => Convinces g claim fs (List.ofFn v)) ≤ (n * d : ℕ) / Fintype.card F := by
  induction n generalizing g claim fs with
  | zero =>
    have hwrong : ¬ Convinces g claim fs [] := by
      rw [cubeSum, pow_zero, sum_range_one] at hclaim
      exact hclaim
    rw [fraction_nil (P := Convinces g claim fs) hwrong]
    exact div_nonneg (Nat.cast_nonneg _) (Nat.cast_nonneg _)
  | succ n ih =>
    by_cases hsum : (g []).eval 0 + (g []).eval 1 = claim
    · -- the polynomial sent is not the true one, and they agree at few challenges
      have hne : g [] ≠ roundPoly n fs := by
        intro heq
        rw [cubeSum_succ, ← heq] at hclaim
        exact hclaim hsum.symm
      have hagree := fraction_agree_le hne (hg []) (le_trans (roundPoly_natDegree_le n fs) hfs)
      have hescape := fraction_cons_escape (P := Convinces g claim fs) hagree
        (div_nonneg (Nat.cast_nonneg (n * d)) (Nat.cast_nonneg (Fintype.card F))) fun c hc => by
          rw [roundPoly_eval] at hc
          refine le_trans (fraction_mono fun v hv => ?_)
            (ih (fun r => hg (c :: r)) (le_of_eq_of_le (List.length_map _) hfs) hc)
          rw [Convinces, List.length_ofFn] at hv
          exact hv.2
      rw [← add_div, ← Nat.cast_add, Nat.add_comm d, ← Nat.succ_mul] at hescape
      exact hescape
    · have hnever : ∀ v : Fin (n + 1) → F, ¬ Convinces g claim fs (List.ofFn v) := by
        intro v hv
        rw [List.ofFn_succ, Convinces] at hv
        exact hsum hv.1
      rw [fraction_eq_zero hnever]
      exact div_nonneg (Nat.cast_nonneg _) (Nat.cast_nonneg _)

end Sumcheck

end Multilinear
