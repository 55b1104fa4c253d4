import Chit402.MultilinearProofs

/-! # Sums of fractions

    Values `q` are among the values `τ` when `Σ 1/(β - q)` is `Σ m/(β - τ)`
    at a random `β`: a value of its own leaves a pole that nothing cancels,
    as long as it does not occur a multiple of the characteristic of times. -/

namespace Logup

open Finset Polynomial ChallengeGame Multilinear

/-! ## Folding a row -/

section Rows

variable {F : Type} [Field F]

/-- A row, as a polynomial in the challenge that folds it. -/
noncomputable def rowPoly : List F → F[X]
  | [] => 0
  | v :: row => C v + X * rowPoly row

theorem rowPoly_inj {u v : List F} (hlen : u.length = v.length) (h : rowPoly u = rowPoly v) : u = v := by
  induction u generalizing v with
  | nil => exact (List.eq_nil_of_length_eq_zero hlen.symm).symm
  | cons a u ih =>
    cases v with
    | nil => cases hlen
    | cons b v =>
      have hhead := congrArg (eval 0) h
      simp only [rowPoly, eval_add, eval_C, eval_mul, eval_X, zero_mul, add_zero] at hhead
      subst hhead
      have htail : rowPoly u = rowPoly v := mul_left_cancel₀ X_ne_zero (add_left_cancel h)
      rw [ih (Nat.succ.inj hlen) htail]

theorem rowPoly_natDegree_le (row : List F) : (rowPoly row).natDegree ≤ row.length - 1 := by
  induction row with
  | nil => exact le_of_eq natDegree_zero
  | cons v row ih =>
    cases row with
    | nil =>
      rw [rowPoly, rowPoly, mul_zero, add_zero]
      exact le_of_eq (natDegree_C v)
    | cons w row =>
      have htail : (X * rowPoly (w :: row)).natDegree ≤ row.length + 1 :=
        calc (X * rowPoly (w :: row)).natDegree ≤ (X : F[X]).natDegree + (rowPoly (w :: row)).natDegree :=
          natDegree_mul_le
          _ ≤ 1 + row.length := Nat.add_le_add natDegree_X_le ih
          _ = row.length + 1 := Nat.add_comm ..
      rw [rowPoly]
      exact le_trans (natDegree_add_le _ _) (max_le (le_of_eq_of_le (natDegree_C v) (Nat.zero_le _)) htail)

variable [Fintype F]

/-- **ROWS**: a row that is none of `t` others is rarely folded to the value of one of them. -/
theorem fraction_rows_le {t c : ℕ} {row : List F} (rows : ℕ → List F) (hrow : row.length = c)
    (hrows : ∀ j < t, (rows j).length = c) (hne : ∀ j < t, row ≠ rows j) :
    fraction (fun γ => ∃ j < t, (rowPoly row).eval γ = (rowPoly (rows j)).eval γ)
      ≤ (t * (c - 1) : ℕ) / Fintype.card F := by
  have hprod : ∏ j ∈ range t, (rowPoly row - rowPoly (rows j)) ≠ 0 := by
    refine prod_ne_zero_iff.mpr fun j hj => sub_ne_zero.mpr fun heq => ?_
    have hj := mem_range.mp hj
    exact hne j hj (rowPoly_inj (hrow.trans (hrows j hj).symm) heq)
  have hdeg : (∏ j ∈ range t, (rowPoly row - rowPoly (rows j))).natDegree ≤ t * (c - 1) := by
    refine le_trans (natDegree_prod_le _ _) (le_trans (sum_le_card_nsmul _ _ (c - 1) fun j hj => ?_) (le_of_eq ?_))
    · have hbound := rowPoly_natDegree_le (rows j)
      rw [hrows j (mem_range.mp hj)] at hbound
      exact le_trans (natDegree_sub_le _ _) (max_le (hrow ▸ rowPoly_natDegree_le row) hbound)
    · rw [card_range, smul_eq_mul]
  refine le_trans (fraction_mono fun γ hγ => ?_) (fraction_roots_le hprod hdeg)
  obtain ⟨j, hj, heq⟩ := hγ
  rw [eval_prod]
  refine prod_eq_zero (mem_range.mpr hj) ?_
  rw [eval_sub, heq, sub_self]

end Rows

/-! ## Poles -/

section Poles

variable {F : Type} [Field F] [DecidableEq F]

/-- The numerator of a sum of fractions. -/
noncomputable def numerator (S : Finset F) (d : F → F) : F[X] :=
  ∑ u ∈ S, C (d u) * ∏ w ∈ S.erase u, (X - C w)

theorem numerator_eval (S : Finset F) (d : F → F) (β : F) :
    (numerator S d).eval β = ∑ u ∈ S, d u * ∏ w ∈ S.erase u, (β - w) := by
  rw [numerator, eval_finsetSum]
  refine sum_congr rfl fun u _ => ?_
  rw [eval_mul, eval_C, eval_prod]
  exact congrArg (d u * ·) (prod_congr rfl fun w _ => by rw [eval_sub, eval_X, eval_C])

theorem numerator_natDegree_le (S : Finset F) (d : F → F) : (numerator S d).natDegree ≤ S.card - 1 := by
  refine natDegree_sum_le_of_forall_le _ _ fun u hu => ?_
  refine le_trans (natDegree_C_mul_le _ _) (le_trans (natDegree_prod_le _ _) ?_)
  refine le_trans (sum_le_card_nsmul _ _ 1 fun w _ => natDegree_X_sub_C_le w) (le_of_eq ?_)
  rw [card_erase_of_mem hu, smul_eq_mul, mul_one]

theorem numerator_ne_zero {S : Finset F} {d : F → F} {v : F} (hv : v ∈ S) (hd : d v ≠ 0) : numerator S d ≠ 0 := by
  intro hzero
  have heval := congrArg (eval v) hzero
  rw [numerator_eval, eval_zero, sum_eq_single_of_mem v hv] at heval
  · rcases mul_eq_zero.mp heval with h | h
    · exact hd h
    · obtain ⟨w, hw, hvw⟩ := prod_eq_zero_iff.mp h
      exact ne_of_mem_erase hw (sub_eq_zero.mp hvw).symm
  · intro u _ hu
    rw [prod_eq_zero (mem_erase.mpr ⟨Ne.symm hu, hv⟩) (sub_self v), mul_zero]

theorem numerator_eval_of_notMem {S : Finset F} {d : F → F} {β : F} (hβ : β ∉ S) :
    (numerator S d).eval β = (∏ w ∈ S, (β - w)) * ∑ u ∈ S, d u * (β - u)⁻¹ := by
  rw [numerator_eval, mul_sum]
  refine sum_congr rfl fun u hu => ?_
  have hinv : (β - u) * (β - u)⁻¹ = 1 := mul_inv_cancel₀ (sub_ne_zero.mpr fun h => hβ (h ▸ hu))
  rw [← mul_prod_erase S _ hu]
  linear_combination (-(d u * ∏ w ∈ S.erase u, (β - w))) * hinv

variable [Fintype F]

/-- **POLES**: with a pole that stays, a sum of fractions rarely vanishes. -/
theorem fraction_poles_le {S : Finset F} {d : F → F} {v : F} (hv : v ∈ S) (hd : d v ≠ 0) :
    fraction (fun β => β ∉ S ∧ ∑ u ∈ S, d u * (β - u)⁻¹ = 0) ≤ (S.card - 1 : ℕ) / Fintype.card F := by
  refine le_trans (fraction_mono fun β hβ => ?_)
    (fraction_roots_le (numerator_ne_zero hv hd) (numerator_natDegree_le S d))
  rw [numerator_eval_of_notMem hβ.1, hβ.2, mul_zero]

end Poles

/-! ## Two sums -/

section Sums

variable {F : Type} [Field F] [DecidableEq F]

theorem sum_by_value {n : ℕ} {S : Finset F} {q : ℕ → F} (h : ∀ i < n, q i ∈ S) (c : ℕ → F) (g : F → F) :
    ∑ u ∈ S, (∑ i ∈ range n with q i = u, c i) * g u = ∑ i ∈ range n, c i * g (q i) := by
  rw [← sum_fiberwise_of_maps_to fun i hi => h i (mem_range.mp hi)]
  refine sum_congr rfl fun u _ => ?_
  rw [sum_mul]
  exact sum_congr rfl fun i hi => by rw [(mem_filter.mp hi).2]

/-- The fractions at `β`, and that both sums of them are equal. -/
structure Balanced (n t : ℕ) (q τ m a b : ℕ → F) (β : F) : Prop where
  query : ∀ i < n, a i * (β - q i) = 1
  table : ∀ j < t, b j * (β - τ j) = m j
  sums : ∑ i ∈ range n, a i = ∑ j ∈ range t, b j

omit [DecidableEq F] in
theorem Balanced.congr {n t : ℕ} {q τ m a b a' b' : ℕ → F} {β : F} (h : Balanced n t q τ m a b β)
    (ha : ∀ i < n, a' i = a i) (hb : ∀ j < t, b' j = b j) : Balanced n t q τ m a' b' β := by
  constructor
  case query => exact fun i hi => ha i hi ▸ h.query i hi
  case table => exact fun j hj => hb j hj ▸ h.table j hj
  case sums =>
    rw [sum_congr rfl fun i hi => ha i (mem_range.mp hi), h.sums]
    exact (sum_congr rfl fun j hj => hb j (mem_range.mp hj)).symm

/-- How often `u` is queried, less how often it is said to be. -/
def netWeight (n t : ℕ) (q τ m : ℕ → F) (u : F) : F :=
  ∑ i ∈ range n with q i = u, 1 - ∑ j ∈ range t with τ j = u, m j

variable {n t : ℕ} {q τ m : ℕ → F}

/-- The values, all of them possible poles. -/
def values (n t : ℕ) (q τ : ℕ → F) : Finset F := (range n).image q ∪ (range t).image τ

omit [Field F] in
theorem query_mem_values {i : ℕ} (hi : i < n) : q i ∈ values n t q τ :=
  mem_union_left _ (mem_image_of_mem q (mem_range.mpr hi))

omit [Field F] in
theorem table_mem_values {j : ℕ} (hj : j < t) : τ j ∈ values n t q τ :=
  mem_union_right _ (mem_image_of_mem τ (mem_range.mpr hj))

omit [Field F] in
theorem card_values_le : (values n t q τ).card ≤ n + t := by
  have hunion := card_union_le ((range n).image q) ((range t).image τ)
  have hq : ((range n).image q).card ≤ n := le_of_le_of_eq card_image_le (card_range n)
  have hτ : ((range t).image τ).card ≤ t := le_of_le_of_eq card_image_le (card_range t)
  exact le_trans hunion (Nat.add_le_add hq hτ)

theorem netWeight_ne_zero {i : ℕ} (hi : i < n) (hout : ∀ j < t, τ j ≠ q i)
    (hn : ∀ k, 0 < k → k ≤ n → (k : F) ≠ 0) : netWeight n t q τ m (q i) ≠ 0 := by
  have htable : ∑ j ∈ range t with τ j = q i, m j = 0 :=
    sum_eq_zero fun j hj => absurd (mem_filter.mp hj).2 (hout j (mem_range.mp (mem_filter.mp hj).1))
  rw [netWeight, htable, sub_zero, sum_const, nsmul_one]
  refine hn _ (card_pos.mpr ⟨i, mem_filter.mpr ⟨mem_range.mpr hi, rfl⟩⟩) ?_
  exact le_of_le_of_eq (card_filter_le _ _) (card_range n)

/-- Off the values, balanced fractions cancel. -/
theorem Balanced.cancels {a b : ℕ → F} {β : F} (h : Balanced n t q τ m a b β) (hβ : β ∉ values n t q τ) :
    ∑ u ∈ values n t q τ, netWeight n t q τ m u * (β - u)⁻¹ = 0 := by
  have ha : ∀ i ∈ range n, a i = 1 * (β - q i)⁻¹ := by
    intro i hi
    have hne : β - q i ≠ 0 := sub_ne_zero.mpr fun heq => hβ (heq ▸ query_mem_values (mem_range.mp hi))
    rw [one_mul]
    exact eq_inv_of_mul_eq_one_left (h.query i (mem_range.mp hi))
  have hb : ∀ j ∈ range t, b j = m j * (β - τ j)⁻¹ := by
    intro j hj
    have hne : β - τ j ≠ 0 := sub_ne_zero.mpr fun heq => hβ (heq ▸ table_mem_values (mem_range.mp hj))
    exact (eq_mul_inv_iff_mul_eq₀ hne).mpr (h.table j (mem_range.mp hj))
  have hquery := sum_by_value (S := values n t q τ) (fun i hi => query_mem_values hi) (fun _ => 1) fun u => (β - u)⁻¹
  have htable := sum_by_value (S := values n t q τ) (fun j hj => table_mem_values hj) m fun u => (β - u)⁻¹
  simp only [netWeight, sub_mul, sum_sub_distrib]
  rw [hquery, htable, ← sum_congr rfl ha, ← sum_congr rfl hb, h.sums, sub_self]

variable [Fintype F]

/-- **BALANCE**: with a query that is no value of the table, the two sums are rarely equal,
    whatever the multiplicities. -/
theorem fraction_balanced_le {i : ℕ} (hi : i < n) (hout : ∀ j < t, τ j ≠ q i) (hn : ∀ k, 0 < k → k ≤ n → (k : F) ≠ 0) :
    fraction (fun β => ∃ a b, Balanced n t q τ m a b β) ≤ (n + t + t : ℕ) / Fintype.card F := by
  have hpole : fraction (fun β => β ∈ (range t).image τ) ≤ t / Fintype.card F :=
    fraction_le_of_mem (fun _ h => h) (le_of_le_of_eq card_image_le (card_range t))
  have hsum := fraction_poles_le (query_mem_values (t := t) (τ := τ) hi) (netWeight_ne_zero (m := m) hi hout hn)
  have hcard : (((values n t q τ).card - 1 : ℕ) : ℚ) / Fintype.card F ≤ (n + t : ℕ) / Fintype.card F :=
    div_le_div_of_nonneg_right (Nat.cast_le.mpr (le_trans (Nat.sub_le _ _) card_values_le)) (Nat.cast_nonneg _)
  have hevent : ∀ β, (∃ a b, Balanced n t q τ m a b β) →
      (β ∉ values n t q τ ∧ ∑ u ∈ values n t q τ, netWeight n t q τ m u * (β - u)⁻¹ = 0) ∨ β ∈ (range t).image τ := by
    intro β ⟨a, b, h⟩
    by_cases hτ : β ∈ (range t).image τ
    · exact .inr hτ
    · have hβ : β ∉ values n t q τ := by
        intro hmem
        rcases mem_union.mp hmem with hq | hmem
        · obtain ⟨i, hi, rfl⟩ := mem_image.mp hq
          have hquery := h.query i (mem_range.mp hi)
          rw [sub_self, mul_zero] at hquery
          exact zero_ne_one hquery
        · exact hτ hmem
      exact .inl ⟨hβ, h.cancels hβ⟩
  calc fraction (fun β => ∃ a b, Balanced n t q τ m a b β)
      ≤ fraction (fun β => (β ∉ values n t q τ ∧ ∑ u ∈ values n t q τ, netWeight n t q τ m u * (β - u)⁻¹ = 0)
          ∨ β ∈ (range t).image τ) := fraction_mono hevent
    _ ≤ _ + _ := fraction_or_le _ _
    _ ≤ (n + t : ℕ) / Fintype.card F + t / Fintype.card F := add_le_add (le_trans hsum hcard) hpole
    _ = (n + t + t : ℕ) / Fintype.card F := by rw [← add_div, Nat.cast_add (n + t) t]

end Sums

section Complete

variable {F : Type} [Field F]

/-- Queries that are rows of the table, and how often each row is queried. -/
theorem balanced_of_rows {n t : ℕ} {q τ m : ℕ → F} {β : F} (row : ℕ → ℕ) (hrow : ∀ i < n, row i < t)
    (hq : ∀ i < n, q i = τ (row i)) (hm : ∀ j < t, m j = ((range n).filter fun i => row i = j).card)
    (hβq : ∀ i < n, β ≠ q i) (hβτ : ∀ j < t, β ≠ τ j) :
    Balanced n t q τ m (fun i => (β - q i)⁻¹) (fun j => m j * (β - τ j)⁻¹) β := by
  constructor
  case query =>
    intro i hi
    exact inv_mul_cancel₀ (sub_ne_zero.mpr (hβq i hi))
  case table =>
    intro j hj
    rw [mul_assoc, inv_mul_cancel₀ (sub_ne_zero.mpr (hβτ j hj)), mul_one]
  case sums =>
    rw [← sum_fiberwise_of_maps_to (g := row) (t := range t) fun i hi => mem_range.mpr (hrow i (mem_range.mp hi))]
    refine sum_congr rfl fun j hj => ?_
    have hfiber : ∀ i ∈ (range n).filter fun i => row i = j, (β - q i)⁻¹ = (β - τ j)⁻¹ := by
      intro i hi
      rw [hq i (mem_range.mp (mem_filter.mp hi).1), (mem_filter.mp hi).2]
    rw [sum_congr rfl hfiber, sum_const, nsmul_eq_mul, hm j (mem_range.mp hj)]

end Complete

/-! ## Zero checks -/

section ZeroCheck

variable {F : Type} [Field F]

theorem cubeSum_weighted (r : List F) (a q : ℕ → F) :
    cubeSum r.length [weight r, a, q] = Multilinear.ext r fun x => a x * q x := by
  rw [ext_eq_sum]
  refine sum_congr rfl fun x _ => ?_
  rw [List.map_cons, List.map_cons, List.map_cons, List.map_nil, List.prod_cons, List.prod_cons, List.prod_cons,
    List.prod_nil, mul_one]

theorem zerocheck_claim (r : List F) (a q m : ℕ → F) (β : F) :
    (β * Multilinear.ext r a - Multilinear.ext r m) - cubeSum r.length [weight r, a, q]
      = Multilinear.ext r fun x => a x * (β - q x) - m x := by
  rw [cubeSum_weighted, ← ext_mul, ← ext_sub, ← ext_sub]
  refine ext_congr fun x _ => ?_
  ring

variable [Fintype F]

/-- **ZERO CHECK**: an equation that fails somewhere passes at few challenges. -/
theorem fraction_zerocheck_le {n x : ℕ} {a q m : ℕ → F} {β : F} (hx : x < 2 ^ n) (hfails : a x * (β - q x) ≠ m x)
    {g : List F → List F → F[X]} (hg : ∀ r before, (g r before).natDegree ≤ 3) :
    fraction (fun ω : (Fin n → F) × (Fin n → F) =>
      Convinces (g (List.ofFn ω.1)) (β * Multilinear.ext (List.ofFn ω.1) a - Multilinear.ext (List.ofFn ω.1) m)
        [weight (List.ofFn ω.1), a, q] (List.ofFn ω.2)) ≤ (4 * n : ℕ) / Fintype.card F := by
  have hpos : (0 : ℚ) ≤ (n * 3 : ℕ) / Fintype.card F := div_nonneg (Nat.cast_nonneg _) (Nat.cast_nonneg _)
  have hzero := fraction_ext_zero_le (f := fun x => a x * (β - q x) - m x) hx (sub_ne_zero.mpr hfails)
  have hrounds : ∀ u : Fin n → F, ¬ Multilinear.ext (List.ofFn u) (fun x => a x * (β - q x) - m x) = 0 →
      fraction (fun v : Fin n → F => Convinces (g (List.ofFn u))
        (β * Multilinear.ext (List.ofFn u) a - Multilinear.ext (List.ofFn u) m)
          [weight (List.ofFn u), a, q] (List.ofFn v))
      ≤ (n * 3 : ℕ) / Fintype.card F := by
    intro u hu
    refine sumcheck_sound (hg _) (le_refl 3) fun hclaim => hu ?_
    have hlen : (List.ofFn u).length = n := List.length_ofFn
    rw [← zerocheck_claim, hlen, hclaim, sub_self]
  have hbound : (n : ℚ) / Fintype.card F + (n * 3 : ℕ) / Fintype.card F = (4 * n : ℕ) / Fintype.card F := by
    rw [← add_div]
    push_cast
    ring
  rw [← hbound]
  exact fraction_escape hzero hpos hrounds

end ZeroCheck

end Logup
