import Chit402.LookupProofs

/-! # Row-major tensors and code tables

    The elementwise and row-wise operations of the attention and norm
    provers on row-major tables, each with what it leaves at a row and a
    column, and the quantized lookup tables. -/

namespace Tensor

open ExceptFlow Mle Finset MatMulSound
open Lookup (IsPowerOfTwo)

variable {F : Type} [Field F]

/-! ## Rows and columns -/

variable {a b scores : List F} {cols i j rows seq x : ℕ}

theorem grid_ext {m n : ℕ} (ha : a.length = m * n) (hb : b.length = m * n)
    (h : ∀ i < m, ∀ j < n, entry a (i * n + j) = entry b (i * n + j)) : a = b := by
  refine table_ext (ha.trans hb.symm) fun x hx => ?_
  rw [ha] at hx
  have hn : 0 < n := Nat.pos_of_ne_zero fun h0 => Nat.not_lt_zero x (by rw [h0, Nat.mul_zero] at hx; exact hx)
  have hij : x / n * n + x % n = x := Nat.div_add_mod' x n
  have hentry := h _ (Nat.div_lt_of_lt_mul (lt_of_lt_of_eq hx (Nat.mul_comm m n))) _ (Nat.mod_lt x hn)
  rw [hij] at hentry
  exact hentry

theorem entry_map_of_lt {t : List F} {f : F → F} (hx : x < t.length) : entry (t.map f) x = f (entry t x) := by
  rw [entry_of_lt hx, entry_of_lt (by rw [List.length_map]; exact hx), List.getElem_map]

/-- `z = a ⊙ b` -/
def hadamard (a b : List F) : List F := List.zipWith (· * ·) a b

theorem length_hadamard (h : a.length = b.length) : (hadamard a b).length = a.length := by
  rw [hadamard, List.length_zipWith, ← h, min_self]

theorem entry_hadamard (ha : x < a.length) (hb : x < b.length) : entry (hadamard a b) x = entry a x * entry b x := by
  have hx : x < (hadamard a b).length := by
    rw [hadamard, List.length_zipWith]
    exact lt_min ha hb
  rw [entry_of_lt hx, entry_of_lt ha, entry_of_lt hb]
  exact List.getElem_zipWith

/-- `z = a + b` -/
def add (a b : List F) : List F := List.zipWith (· + ·) a b

theorem length_add (h : a.length = b.length) : (add a b).length = a.length := by
  rw [add, List.length_zipWith, ← h, min_self]

theorem entry_add (ha : x < a.length) (hb : x < b.length) : entry (add a b) x = entry a x + entry b x := by
  have hx : x < (add a b).length := by
    rw [add, List.length_zipWith]
    exact lt_min ha hb
  rw [entry_of_lt hx, entry_of_lt ha, entry_of_lt hb]
  exact List.getElem_zipWith

/-- Per-row sums of a `rows × cols` table. -/
def rowSums (m : List F) (rows cols : ℕ) : List F :=
  (List.range rows).map fun i => ∑ j ∈ range cols, entry m (i * cols + j)

theorem length_rowSums (m : List F) (rows cols : ℕ) : (rowSums m rows cols).length = rows := by
  rw [rowSums, List.length_map, List.length_range]

theorem entry_rowSums {m : List F} (hi : i < rows) :
    entry (rowSums m rows cols) i = ∑ j ∈ range cols, entry m (i * cols + j) :=
  entry_map_range _ hi

/-- A per-row column across `cols` columns. -/
def broadcastRows (v : List F) (cols : ℕ) : List F := v.flatMap fun vi => List.replicate cols vi

omit [Field F] in
theorem length_broadcastRows (v : List F) (cols : ℕ) : (broadcastRows v cols).length = v.length * cols := by
  induction v with
  | nil => exact (Nat.zero_mul cols).symm
  | cons a v ih =>
    rw [broadcastRows, List.flatMap_cons, List.length_append, List.length_replicate, ← broadcastRows, ih,
      List.length_cons, Nat.succ_mul, Nat.add_comm]

/-- By induction on the column, one row at a time. -/
theorem entry_broadcastRows {v : List F} (hi : i < v.length) (hj : j < cols) :
    entry (broadcastRows v cols) (i * cols + j) = entry v i := by
  induction v generalizing i with
  | nil => exact absurd hi (Nat.not_lt_zero i)
  | cons a v ih =>
    rw [broadcastRows, List.flatMap_cons, ← broadcastRows]
    cases i with
    | zero =>
      have hlow : 0 * cols + j < (List.replicate cols a).length := by
        rw [List.length_replicate, Nat.zero_mul, Nat.zero_add]
        exact hj
      rw [entry_append_low hlow, entry_of_lt hlow, List.getElem_replicate]
      rfl
    | succ i =>
      have hhigh : (i + 1) * cols + j = (List.replicate cols a).length + (i * cols + j) := by
        rw [List.length_replicate, Nat.succ_mul, Nat.add_comm (i * cols), Nat.add_assoc]
      rw [hhigh, entry_append_high, ih (Nat.lt_of_succ_lt_succ hi)]
      rfl

/-- A per-channel row under itself, `rows` times. -/
def broadcastCols (w : List F) (rows : ℕ) : List F := (List.replicate rows w).flatten

omit [Field F] in
theorem length_broadcastCols (w : List F) (rows : ℕ) : (broadcastCols w rows).length = rows * w.length := by
  rw [broadcastCols, List.length_flatten, List.map_replicate, List.sum_replicate, smul_eq_mul]

/-- By induction on the rows. -/
theorem entry_broadcastCols {w : List F} (hi : i < rows) (hj : j < w.length) :
    entry (broadcastCols w rows) (i * w.length + j) = entry w j := by
  induction rows generalizing i with
  | zero => exact absurd hi (Nat.not_lt_zero i)
  | succ rows ih =>
    rw [broadcastCols, List.replicate_succ, List.flatten_cons, ← broadcastCols]
    cases i with
    | zero =>
      rw [Nat.zero_mul, Nat.zero_add]
      exact entry_append_low hj
    | succ i =>
      rw [show (i + 1) * w.length + j = w.length + (i * w.length + j) by
        rw [Nat.succ_mul, Nat.add_comm (i * w.length), Nat.add_assoc], entry_append_high]
      exact ih (Nat.lt_of_succ_lt_succ hi)

def causalSelector (seq : ℕ) : List F :=
  (List.range (seq * seq)).map fun x => if x % seq ≤ x / seq then 1 else 0

theorem length_causalSelector (seq : ℕ) : (causalSelector seq : List F).length = seq * seq := by
  rw [causalSelector, List.length_map, List.length_range]

theorem entry_causalSelector (hi : i < seq) (hj : j < seq) :
    entry (causalSelector seq : List F) (i * seq + j) = if j ≤ i then 1 else 0 := by
  rw [causalSelector, entry_map_range _ (row_major_lt hi hj), row_major_div hj, row_major_mod hj]

/-- `causal_mask`: keys after the query are set to code 0. -/
def causalMask (scores : List F) (seq : ℕ) : List F :=
  (List.range (seq * seq)).map fun x => if x % seq ≤ x / seq then entry scores x else 0

theorem length_causalMask (scores : List F) (seq : ℕ) : (causalMask scores seq).length = seq * seq := by
  rw [causalMask, List.length_map, List.length_range]

theorem entry_causalMask (hi : i < seq) (hj : j < seq) :
    entry (causalMask scores seq) (i * seq + j) = if j ≤ i then entry scores (i * seq + j) else 0 := by
  rw [causalMask, entry_map_range _ (row_major_lt hi hj), row_major_div hj, row_major_mod hj]

theorem hadamard_causalSelector (h : scores.length = seq * seq) :
    hadamard scores (causalSelector seq) = causalMask scores seq := by
  have hlen : scores.length = (causalSelector seq : List F).length := by rw [h, length_causalSelector]
  refine grid_ext ((length_hadamard hlen).trans h) (length_causalMask scores seq) fun i hi j hj => ?_
  have hx : i * seq + j < scores.length := by
    rw [h]
    exact row_major_lt hi hj
  rw [entry_hadamard hx (by rw [← hlen]; exact hx), entry_causalSelector hi hj, entry_causalMask hi hj]
  split
  · exact mul_one _
  · exact mul_zero _

/-! ## Code tables -/

section Codes

variable {p : ℕ} [Fact p.Prime]

/-- A canonical quantized table: code `c` below `domain` stands for itself, and the
    domain is small beside the field. -/
structure CodeTable (p : ℕ) where
  domain : ℕ
  outCodes : List (ZMod p)
  pow2 : IsPowerOfTwo domain
  length_out : outCodes.length = domain
  small : domain ≤ p

namespace CodeTable

variable (table : CodeTable p)

def inCodes : List (ZMod p) := (List.range table.domain).map (Nat.cast : ℕ → ZMod p)

/-- The code is one of the table's. -/
def InDomain (c : ZMod p) : Prop := c.val < table.domain

instance (c : ZMod p) : Decidable (table.InDomain c) := inferInstanceAs (Decidable (_ < _))

/-- What the table has for a code. -/
def value (c : ZMod p) : ZMod p := entry table.outCodes c.val

/-- `code_to_index`, and the entry there. -/
def applyCode (c : ZMod p) : Except Abort (ZMod p) := do
  revertIf (¬ table.InDomain c) .panic
  .ok (table.value c)

def apply (codes : List (ZMod p)) : Except Abort (List (ZMod p)) := codes.mapM table.applyCode

theorem apply_eq {codes : List (ZMod p)} (h : ∀ c ∈ codes, table.InDomain c) :
    table.apply codes = .ok (codes.map table.value) := by
  induction codes with
  | nil => rfl
  | cons c codes ih =>
    have hc : table.applyCode c = .ok (table.value c) := by
      rw [applyCode, revertIf_of_not _ (not_not.mpr (h c List.mem_cons_self))]
      rfl
    rw [apply] at ih ⊢
    rw [List.mapM_cons, hc, ok_bind, ih fun c' hc' => h c' (List.mem_cons_of_mem c hc')]
    rfl

theorem length_inCodes : table.inCodes.length = table.domain := by
  rw [inCodes, List.length_map, List.length_range]

theorem entry_inCodes {c : ℕ} (h : c < table.domain) : entry table.inCodes c = (c : ZMod p) := by
  rw [inCodes, entry_map_range _ h]

theorem row_iff {c v : ZMod p} : (∃ k < table.domain, c = entry table.inCodes k ∧ v = entry table.outCodes k)
      ↔ table.InDomain c ∧ v = table.value c := by
  constructor
  · rintro ⟨k, hk, rfl, rfl⟩
    rw [InDomain, value, table.entry_inCodes hk, ZMod.val_natCast_of_lt (lt_of_lt_of_le hk table.small)]
    exact ⟨hk, rfl⟩
  · rintro ⟨hc, rfl⟩
    refine ⟨c.val, hc, ?_, rfl⟩
    rw [table.entry_inCodes hc, ZMod.natCast_zmod_val]

end CodeTable

end Codes

end Tensor
