import Chit402.ExceptFlowProofs
import Chit402.MultilinearProofs
import Mathlib.Data.List.GetD

/-! # Evaluating tables

    The prover's tables of field values, and their multilinear extensions:
    `eq_weights`, `mle_eval` and `eq_eval`, over any field.  The first
    coordinate of a point is the high bit of an index. -/

namespace Mle

open ExceptFlow Multilinear Finset

variable {F : Type} [Field F]

/-- How a run of the prover or of the verifier ends early: an assertion fails, or the
    proof is refused. -/
inductive Abort where
  | panic | reject
deriving DecidableEq

/-- Defined on powers of two. -/
def log2Exact (n : ℕ) : Except Abort ℕ := do
  revertIf (2 ^ n.log2 ≠ n) .panic
  .ok n.log2

theorem log2Exact_pow (s : ℕ) : log2Exact (2 ^ s) = .ok s := by
  rw [log2Exact, Nat.log2_two_pow, revertIf_of_not _ (not_not.mpr rfl)]
  rfl

def eqStep (cur : List F) (rv : F) : List F := cur.flatMap fun c => [c * (1 - rv), c * rv]

def eqWeights (r : List F) : List F := r.foldl eqStep [1]

def innerProduct (a b : List F) : F := (List.zipWith (· * ·) a b).sum

def mleEval (table point : List F) : Except Abort F := do
  revertIf (table.length ≠ 2 ^ point.length) .panic
  .ok (innerProduct (eqWeights point) table)

def eqEval (r x : List F) : F := (List.zipWith (fun ri xi => ri * xi + (1 - ri) * (1 - xi)) r x).prod

/-- The values of a table, and zero beyond it. -/
def entry (t : List F) (x : ℕ) : F := t.getD x 0

/-- The multilinear extension of a table. -/
def mle (t point : List F) : F := ext point (entry t)

/-! ## Weights -/

theorem foldl_eqStep (r cur : List F) : r.foldl eqStep cur = cur.flatMap fun x => (eqWeights r).map (x * ·) := by
  induction r generalizing cur with
  | nil =>
    show cur = cur.flatMap fun x => [x * 1]
    simp only [mul_one, List.flatMap_singleton']
  | cons c r ih =>
    rw [eqWeights, List.foldl_cons, List.foldl_cons, ih, ih (eqStep [1] c), eqStep, eqStep, List.flatMap_assoc]
    refine List.flatMap_congr fun x _ => ?_
    simp only [List.flatMap_cons, List.flatMap_nil, List.append_nil, List.map_append, List.map_map, one_mul]
    refine congrArg₂ (· ++ ·) ?_ ?_
    · exact List.map_congr_left fun w _ => mul_assoc ..
    · exact List.map_congr_left fun w _ => mul_assoc ..

theorem eqWeights_cons (c : F) (r : List F) :
    eqWeights (c :: r) = (eqWeights r).map ((1 - c) * ·) ++ (eqWeights r).map (c * ·) := by
  rw [eqWeights, List.foldl_cons, foldl_eqStep, eqStep]
  simp only [List.flatMap_cons, List.flatMap_nil, List.append_nil, one_mul]

theorem length_eqWeights (r : List F) : (eqWeights r).length = 2 ^ r.length := by
  induction r with
  | nil => rfl
  | cons c r ih =>
    rw [eqWeights_cons, List.length_append, List.length_map, List.length_map, ih, List.length_cons, pow_succ,
      mul_two]

variable {a b point r t : List F} {x : ℕ}

theorem entry_of_lt (h : x < t.length) : entry t x = t[x] := by
  rw [entry, List.getD_eq_getElem _ _ h]

theorem entry_append_low (h : x < a.length) : entry (a ++ b) x = entry a x := by
  rw [entry, entry, List.getD_append _ _ _ _ h]

theorem entry_append_high (a b : List F) (x : ℕ) : entry (a ++ b) (a.length + x) = entry b x := by
  rw [entry, entry, List.getD_append_right _ _ _ _ (Nat.le_add_right _ _), Nat.add_sub_cancel_left]

theorem entry_map_mul (c : F) (t : List F) (x : ℕ) : entry (t.map (c * ·)) x = c * entry t x := by
  have hmap := List.getD_map (l := t) (d := (0 : F)) (n := x) (c * ·)
  rw [mul_zero] at hmap
  exact hmap

theorem entry_map_range {n : ℕ} (f : ℕ → F) (h : x < n) : entry ((List.range n).map f) x = f x := by
  rw [entry_of_lt (by rwa [List.length_map, List.length_range]), List.getElem_map, List.getElem_range]

theorem table_ext (hlen : a.length = b.length) (h : ∀ x < a.length, entry a x = entry b x) : a = b := by
  refine List.ext_getElem hlen fun x hx hx' => ?_
  rw [← entry_of_lt hx, ← entry_of_lt hx']
  exact h x hx

theorem eqWeights_entry (hx : x < 2 ^ r.length) : entry (eqWeights r) x = weight r x := by
  induction r generalizing x with
  | nil =>
    rw [List.length_nil, pow_zero, Nat.lt_one_iff] at hx
    rw [hx]
    rfl
  | cons c r ih =>
    rw [eqWeights_cons]
    by_cases hlow : x < 2 ^ r.length
    · rw [entry_append_low (by rwa [List.length_map, length_eqWeights]), entry_map_mul, ih hlow, weight_low hlow]
    · obtain ⟨y, rfl⟩ := Nat.exists_eq_add_of_le (Nat.not_lt.mp hlow)
      rw [List.length_cons, pow_succ, mul_two, Nat.add_lt_add_iff_left] at hx
      have hlen : ((eqWeights r).map ((1 - c) * ·)).length = 2 ^ r.length := by
        rw [List.length_map, length_eqWeights]
      rw [← hlen, entry_append_high, entry_map_mul, ih hx, hlen, weight_high]

theorem innerProduct_eq_sum (h : a.length = b.length) :
    innerProduct a b = ∑ x ∈ range a.length, entry a x * entry b x := by
  induction a generalizing b with
  | nil => rfl
  | cons x a ih =>
    cases b with
    | nil => exact absurd h (Nat.succ_ne_zero _)
    | cons y b =>
      rw [innerProduct, List.zipWith_cons_cons, List.sum_cons, List.length_cons, sum_range_succ', add_comm]
      exact congrArg (· + x * y) (ih (Nat.succ.inj h))

/-! ## Extensions -/

theorem mleEval_ok_iff {v : F} : mleEval t point = .ok v ↔ t.length = 2 ^ point.length ∧ v = mle t point := by
  rw [mleEval, guarded_iff, not_not, Except.ok.injEq]
  refine and_congr_right fun hlen => ?_
  have hsum : innerProduct (eqWeights point) t = mle t point := by
    rw [innerProduct_eq_sum ((length_eqWeights point).trans hlen.symm), length_eqWeights, mle, ext_eq_sum]
    exact sum_congr rfl fun x hx => by rw [eqWeights_entry (mem_range.mp hx)]
  rw [hsum]
  exact eq_comm

theorem mleEval_of_length (h : t.length = 2 ^ point.length) : mleEval t point = .ok (mle t point) :=
  mleEval_ok_iff.mpr ⟨h, rfl⟩

/-- The extension of the weights of `r` is the product of `eq_eval`. -/
theorem mle_eqWeights {x : List F} (h : r.length = x.length) : mle (eqWeights r) x = eqEval r x := by
  have hweight : mle (eqWeights r) x = ext x (weight r) := ext_congr fun y hy => eqWeights_entry (by rwa [h])
  rw [hweight]
  clear hweight
  induction r generalizing x with
  | nil =>
    cases x with
    | nil => rfl
    | cons d x => exact absurd h.symm (Nat.succ_ne_zero _)
  | cons c r ih =>
    cases x with
    | nil => exact absurd h (Nat.succ_ne_zero _)
    | cons d x =>
      have hlen : r.length = x.length := Nat.succ.inj h
      have hfold : ∀ y < 2 ^ x.length,
          Multilinear.fold x.length d (weight (c :: r)) y = (c * d + (1 - c) * (1 - d)) * weight r y := by
        intro y hy
        rw [Multilinear.fold, ← hlen, weight_high, weight_low (by rwa [hlen])]
        ring
      rw [Multilinear.ext, ext_congr hfold, ext_mul, ih hlen]
      exact (List.prod_cons ..).symm

end Mle
