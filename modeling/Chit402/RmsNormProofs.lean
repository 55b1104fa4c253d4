import Chit402.CausalSoftmaxProofs

/-! # RMSNorm, on tables and on commitments

    `prove_rmsnorm`, `verify_rmsnorm` and their committed forms: the squares,
    their row sums, the reciprocal-root codes of those, and the scaling by row
    and by channel.  The plain verifier holds the tensors between the steps and
    sums the rows itself; the committed one holds only commitments.  With ideal
    parts both accept exactly the norm of `x`. -/

namespace RmsNorm

open ExceptFlow Mle Tensor SubArgument MatMulSound Finset CausalSoftmax
open Lookup (IsPowerOfTwo)

variable {p : ℕ} [Fact p.Prime]

/-! ## The code -/

section Code

variable (P : Parts p) (table : CodeTable p) (seq d : ℕ)

structure RmsNormProof where
  seq : ℕ
  d : ℕ
  xsq : Table p
  ss : Table p
  invRms : Table p
  t : Table p
  pSq : P.hadamard.Proof
  pRsqrt : P.lookup.Proof
  pScale1 : P.hadamard.Proof
  pScale2 : P.hadamard.Proof

def proveRmsnorm (x w : Table p) (tr : P.T) : Except Abort ((RmsNormProof P × Table p) × P.T) := do
  revertIf (¬ (IsPowerOfTwo seq ∧ IsPowerOfTwo d)) .panic
  revertIf (x.length ≠ seq * d) .panic
  revertIf (w.length ≠ d) .panic
  let xsq := hadamard x x
  let pSq ← P.hadamard.prove ⟨x.length, x, x, xsq⟩ tr
  let ss := rowSums xsq seq d
  let invRms ← table.apply ss
  let pRsqrt ← P.lookup.prove (tableLookup table ss.length ss invRms) pSq.2
  let t := hadamard x (broadcastRows invRms d)
  let pScale1 ← P.hadamard.prove ⟨x.length, x, broadcastRows invRms d, t⟩ pRsqrt.2
  let y := hadamard t (broadcastCols w seq)
  let pScale2 ← P.hadamard.prove ⟨t.length, t, broadcastCols w seq, y⟩ pScale1.2
  .ok ((⟨seq, d, xsq, ss, invRms, t, pSq.1, pRsqrt.1, pScale1.1, pScale2.1⟩, y), pScale2.2)

def verifyRmsnorm (x w y : Table p) (proof : RmsNormProof P) (tr : P.T) : Except Abort P.T := do
  revertIf (¬ IsPowerOfTwo seq ∨ ¬ IsPowerOfTwo d) .reject
  revertIf (proof.seq ≠ seq ∨ proof.d ≠ d) .reject
  revertIf (¬ (x.length = seq * d ∧ w.length = d ∧ y.length = seq * d ∧ proof.xsq.length = seq * d
    ∧ proof.ss.length = seq ∧ proof.invRms.length = seq ∧ proof.t.length = seq * d)) .reject
  let tr ← P.hadamard.verify ⟨x.length, x, x, proof.xsq⟩ proof.pSq tr
  -- the row sums are linear, and are checked in the clear
  revertIf (rowSums proof.xsq seq d ≠ proof.ss) .reject
  let tr ← P.lookup.verify (tableLookup table proof.ss.length proof.ss proof.invRms) proof.pRsqrt tr
  let tr ← P.hadamard.verify ⟨x.length, x, broadcastRows proof.invRms d, proof.t⟩ proof.pScale1 tr
  P.hadamard.verify ⟨proof.t.length, proof.t, broadcastCols w seq, y⟩ proof.pScale2 tr

/-- The fused scaling's sumcheck and openings are one proof. -/
structure CommittedRmsNormProof where
  commXsq : P.Comm
  commSs : P.Comm
  pSq : P.hadamardIo.Proof
  pRowsum : P.rowSum.Proof
  pLookup : CommittedLookupProof P
  scale : P.normScale.Proof

/-- What the committed prover returns. -/
structure Proved where
  proof : CommittedRmsNormProof P
  commX : P.Comm
  commY : P.Comm
  y : Table p

def proveCommittedRmsnorm (x w : Table p) (tr : P.T) : Except Abort (Proved P × P.T) := do
  revertIf (¬ (IsPowerOfTwo seq ∧ IsPowerOfTwo d)) .panic
  revertIf (x.length ≠ seq * d) .panic
  revertIf (w.length ≠ d) .panic
  let xsq := hadamard x x
  let pSq ← P.hadamardIo.prove ⟨seq * d, x, x, xsq⟩ tr
  let ss := rowSums xsq seq d
  let pRowsum ← P.rowSum.prove ⟨seq, d, xsq, ss⟩ pSq.2
  let inv ← table.apply ss
  let pLookup ← proveTableLookup P table seq ss inv pRowsum.2
  let y := hadamard (hadamard x (broadcastRows inv d)) (broadcastCols w seq)
  let scale ← P.normScale.prove ⟨seq, d, w, x, inv, y⟩ pLookup.2
  .ok ({
    proof := {
      commXsq := P.commit xsq
      commSs := P.commit ss
      pSq := pSq.1
      pRowsum := pRowsum.1
      pLookup := pLookup.1
      scale := scale.1 }
    commX := P.commit x
    commY := P.commit y
    y }, scale.2)

def verifyCommittedRmsnorm (w : Table p) (commX commY : P.Comm) (proof : CommittedRmsNormProof P) (tr : P.T) :
    Except Abort P.T := do
  revertIf (¬ IsPowerOfTwo seq ∨ ¬ IsPowerOfTwo d ∨ w.length ≠ d) .reject
  let tr ← P.hadamardIo.verify ⟨seq * d, commX, commX, proof.commXsq⟩ proof.pSq tr
  let tr ← P.rowSum.verify ⟨seq, d, proof.commXsq, proof.commSs⟩ proof.pRowsum tr
  let columns ← twoColumns proof.pLookup.commQuery
  revertIf (P.bytes columns.1 ≠ P.bytes proof.commSs) .reject
  let tr ← verifyTableLookup P table seq proof.pLookup tr
  P.normScale.verify ⟨seq, d, w, commX, columns.2, commY⟩ proof.scale tr

end Code

/-! ## The relation -/

variable {table : CodeTable p} {seq d : ℕ} {x w y : Table p}

/-- The sum of squares of a row. -/
def squares (d : ℕ) (x : Table p) (r : ℕ) : ZMod p := ∑ j ∈ range d, entry x (r * d + j) ^ 2

/-- `y` is the RMSNorm of `x` with channel weights `w`. -/
structure IsNorm (table : CodeTable p) (seq d : ℕ) (x w y : Table p) : Prop where
  lengths : x.length = seq * d ∧ w.length = d ∧ y.length = seq * d
  codes : ∀ r < seq, table.InDomain (squares d x r)
  normed : ∀ r < seq, ∀ j < d,
    entry y (r * d + j) = entry x (r * d + j) * table.value (squares d x r) * entry w j

theorem length_square : (hadamard x x).length = x.length := length_hadamard rfl

theorem entry_squares (hx : x.length = seq * d) {r : ℕ} (hr : r < seq) :
    entry (rowSums (hadamard x x) seq d) r = squares d x r := by
  rw [entry_rowSums hr, squares]
  refine sum_congr rfl fun j hj => ?_
  have hlt : r * d + j < x.length := grid_lt hx hr (mem_range.mp hj)
  rw [entry_hadamard hlt hlt, sq]

/-- The lookup and the two scalings make the relation. -/
theorem isNorm_of_steps {inv : Table p} (hx : x.length = seq * d) (hw : w.length = d)
    (hlookup : (tableLookup table seq (rowSums (hadamard x x) seq d) inv).Holds)
    (hy : y = hadamard (hadamard x (broadcastRows inv d)) (broadcastCols w seq)) : IsNorm table seq d x w y := by
  obtain ⟨-, -, hinv, hrows⟩ := tableLookup_iff.mp hlookup
  have hrowsLen : (broadcastRows inv d).length = seq * d := by rw [length_broadcastRows, hinv]
  have hcolsLen : (broadcastCols w seq).length = seq * d := by rw [length_broadcastCols, hw]
  have hscaled : (hadamard x (broadcastRows inv d)).length = seq * d := by
    rw [length_hadamard (hx.trans hrowsLen.symm), hx]
  constructor
  case lengths =>
    refine ⟨hx, hw, ?_⟩
    rw [hy, length_hadamard (hscaled.trans hcolsLen.symm), hscaled]
  case codes =>
    intro r hr
    rw [← entry_squares hx hr]
    exact (hrows r hr).1
  case normed =>
    intro r hr j hj
    have hwj : j < w.length := by
      rw [hw]
      exact hj
    have hcol : entry (broadcastCols w seq) (r * d + j) = entry w j := by
      rw [← hw]
      exact entry_broadcastCols hr hwj
    rw [hy, entry_hadamard (grid_lt hscaled hr hj) (grid_lt hcolsLen hr hj), hcol,
      entry_hadamard (grid_lt hx hr hj) (grid_lt hrowsLen hr hj), entry_broadcastRows (by rw [hinv]; exact hr) hj,
      (hrows r hr).2, entry_squares hx hr]

/-! ## The norm of a tensor -/

/-- The reciprocal roots of the rows. -/
def inverses (table : CodeTable p) (seq d : ℕ) (x : Table p) : Table p :=
  (rowSums (hadamard x x) seq d).map table.value

def normOf (table : CodeTable p) (seq d : ℕ) (x w : Table p) : Table p :=
  hadamard (hadamard x (broadcastRows (inverses table seq d x) d)) (broadcastCols w seq)

theorem length_inverses : (inverses table seq d x).length = seq := by
  rw [inverses, List.length_map, length_rowSums]

theorem inverses_lookup (hseq : IsPowerOfTwo seq) (hx : x.length = seq * d)
    (hcodes : ∀ r < seq, table.InDomain (squares d x r)) :
    table.apply (rowSums (hadamard x x) seq d) = .ok (inverses table seq d x)
      ∧ (tableLookup table seq (rowSums (hadamard x x) seq d) (inverses table seq d x)).Holds := by
  refine tableLookup_apply hseq (length_rowSums _ seq d) fun r hr => ?_
  rw [entry_squares hx hr]
  exact hcodes r hr

/-- A tensor with codes for its rows has one norm. -/
theorem isNorm_iff (hseq : IsPowerOfTwo seq) : IsNorm table seq d x w y ↔
    x.length = seq * d ∧ w.length = d ∧ (∀ r < seq, table.InDomain (squares d x r)) ∧ y = normOf table seq d x w := by
  constructor
  · intro hnorm
    obtain ⟨hx, hw, hy⟩ := hnorm.lengths
    have hof := isNorm_of_steps hx hw (inverses_lookup hseq hx hnorm.codes).2 rfl
    refine ⟨hx, hw, hnorm.codes, grid_ext hy hof.lengths.2.2 fun r hr j hj => ?_⟩
    rw [hnorm.normed r hr j hj]
    exact (hof.normed r hr j hj).symm
  · rintro ⟨hx, hw, hcodes, rfl⟩
    exact isNorm_of_steps hx hw (inverses_lookup hseq hx hcodes).2 rfl

/-! ## Soundness -/

section Ideal

variable {P : Parts p} {committed : P.Comm → Table p}

theorem verifyRmsnorm_sound (h : P.Ideal committed) {proof : RmsNormProof P} {tr tr' : P.T}
    (hverify : verifyRmsnorm P table seq d x w y proof tr = .ok tr') :
    IsPowerOfTwo seq ∧ IsPowerOfTwo d ∧ IsNorm table seq d x w y := by
  obtain ⟨hshape, hverify⟩ := guarded_iff.mp hverify
  obtain ⟨hseq, hd⟩ := not_or.mp hshape
  obtain ⟨-, hverify⟩ := guarded_iff.mp hverify
  obtain ⟨hlengths, hverify⟩ := guarded_iff.mp hverify
  obtain ⟨hx, hw, -, -, hss, -, -⟩ := not_not.mp hlengths
  obtain ⟨tr1, hsquare, hverify⟩ := bind_iff.mp hverify
  obtain ⟨hsums, hverify⟩ := guarded_iff.mp hverify
  obtain ⟨tr2, hlookup, hverify⟩ := bind_iff.mp hverify
  obtain ⟨tr3, hrows, hcols⟩ := bind_iff.mp hverify
  obtain ⟨-, -, -, hxsq⟩ := h.hadamard.sound _ _ _ _ hsquare
  have hxsq : proof.xsq = hadamard x x := hxsq
  obtain ⟨-, -, -, ht⟩ := h.hadamard.sound _ _ _ _ hrows
  have ht : proof.t = hadamard x (broadcastRows proof.invRms d) := ht
  obtain ⟨-, -, -, hy⟩ := h.hadamard.sound _ _ _ _ hcols
  have hy : y = hadamard proof.t (broadcastCols w seq) := hy
  have hlookup := h.lookup.sound _ _ _ _ hlookup
  rw [id, hss, ← not_not.mp hsums, hxsq] at hlookup
  rw [ht] at hy
  exact ⟨not_not.mp hseq, not_not.mp hd, isNorm_of_steps hx hw hlookup hy⟩

theorem verifyCommittedRmsnorm_sound (h : P.Ideal committed) {commX commY : P.Comm}
    {proof : CommittedRmsNormProof P} {tr tr' : P.T}
    (hverify : verifyCommittedRmsnorm P table seq d w commX commY proof tr = .ok tr') :
    IsPowerOfTwo seq ∧ IsPowerOfTwo d ∧ IsNorm table seq d (committed commX) w (committed commY) := by
  obtain ⟨hshape, hverify⟩ := guarded_iff.mp hverify
  obtain ⟨hseq, hshape⟩ := not_or.mp hshape
  obtain ⟨hd, hw⟩ := not_or.mp hshape
  obtain ⟨tr1, hsquare, hverify⟩ := bind_iff.mp hverify
  obtain ⟨tr2, hrowsum, hverify⟩ := bind_iff.mp hverify
  obtain ⟨columns, htwo, hverify⟩ := bind_iff.mp hverify
  obtain ⟨hss, hverify⟩ := guarded_iff.mp hverify
  obtain ⟨tr3, hlookup, hscale⟩ := bind_iff.mp hverify
  obtain ⟨-, hx, -, hxsq⟩ := h.hadamardIo.sound _ _ _ _ hsquare
  have hxsq : committed proof.commXsq = hadamard (committed commX) (committed commX) := hxsq
  obtain ⟨-, -, -, hsums⟩ := h.rowSum.sound _ _ _ _ hrowsum
  have hsums : committed proof.commSs = rowSums (committed proof.commXsq) seq d := hsums
  -- the column looked up is the row sums of the squares
  have hlookup := verifyTableLookup_sound h (twoColumns_ok_iff.mp htwo) hlookup
  rw [h.bytes (not_not.mp hss), hsums, hxsq] at hlookup
  obtain ⟨-, -, -, -, -, hy⟩ := h.normScale.sound _ _ _ _ hscale
  exact ⟨not_not.mp hseq, not_not.mp hd, isNorm_of_steps hx (not_not.mp hw) hlookup hy⟩

/-! ## Completeness -/

theorem square_holds (hseq : IsPowerOfTwo seq) (hd : IsPowerOfTwo d) (hx : x.length = seq * d) :
    (Hadamard.mk (seq * d) x x (hadamard x x)).Holds :=
  ⟨pow2_mul hseq hd, hx, hx, rfl⟩

theorem rowScale_holds (table : CodeTable p) (hseq : IsPowerOfTwo seq) (hd : IsPowerOfTwo d) (hx : x.length = seq * d) :
    (Hadamard.mk (seq * d) x (broadcastRows (inverses table seq d x) d)
      (hadamard x (broadcastRows (inverses table seq d x) d))).Holds :=
  ⟨pow2_mul hseq hd, hx, by rw [length_broadcastRows, length_inverses], rfl⟩

theorem length_rowScale (table : CodeTable p) (hx : x.length = seq * d) :
    (hadamard x (broadcastRows (inverses table seq d x) d)).length = seq * d := by
  rw [length_hadamard (by rw [hx, length_broadcastRows, length_inverses]), hx]

theorem colScale_holds (table : CodeTable p) (hseq : IsPowerOfTwo seq) (hd : IsPowerOfTwo d)
    (hx : x.length = seq * d) (hw : w.length = d) :
    (Hadamard.mk (seq * d) (hadamard x (broadcastRows (inverses table seq d x) d)) (broadcastCols w seq)
      (normOf table seq d x w)).Holds :=
  ⟨pow2_mul hseq hd, length_rowScale table hx, by rw [length_broadcastCols, hw], rfl⟩

/-- **COMPLETE**: the honest plain proof is accepted. -/
theorem proveRmsnorm_complete (h : P.Ideal committed) (hseq : IsPowerOfTwo seq) (hd : IsPowerOfTwo d)
    (hx : x.length = seq * d) (hw : w.length = d) (hcodes : ∀ r < seq, table.InDomain (squares d x r)) (tr : P.T) :
    ∃ out, proveRmsnorm P table seq d x w tr = .ok out ∧ out.1.2 = normOf table seq d x w
      ∧ verifyRmsnorm P table seq d x w out.1.2 out.1.1 tr = .ok out.2 := by
  obtain ⟨happly, hlookup⟩ := inverses_lookup hseq hx hcodes
  have hss : (rowSums (hadamard x x) seq d).length = seq := length_rowSums _ seq d
  have ht := length_rowScale table hx
  have hnorm := isNorm_of_steps hx hw hlookup rfl
  obtain ⟨square, hproveSq, hverifySq⟩ := h.hadamard.complete _ tr (square_holds hseq hd hx)
  obtain ⟨rsqrt, hproveRsqrt, hverifyRsqrt⟩ := h.lookup.complete _ square.2 hlookup
  obtain ⟨scale1, hprove1, hverify1⟩ := h.hadamard.complete _ rsqrt.2 (rowScale_holds table hseq hd hx)
  obtain ⟨scale2, hprove2, hverify2⟩ := h.hadamard.complete _ scale1.2 (colScale_holds table hseq hd hx hw)
  refine ⟨((⟨seq, d, hadamard x x, rowSums (hadamard x x) seq d, inverses table seq d x,
    hadamard x (broadcastRows (inverses table seq d x) d), square.1, rsqrt.1, scale1.1, scale2.1⟩,
    normOf table seq d x w), scale2.2), ?_, rfl, ?_⟩
  · rw [proveRmsnorm, guarded_of_not (not_not.mpr ⟨hseq, hd⟩), guarded_of_not (not_not.mpr hx),
      guarded_of_not (not_not.mpr hw)]
    dsimp only
    rw [hss, hx, hproveSq, ok_bind, happly, ok_bind, hproveRsqrt, ok_bind, hprove1, ok_bind, ht,
      ← normOf, hprove2, ok_bind]
  · rw [verifyRmsnorm]
    refine guarded_iff.mpr ⟨not_or.mpr ⟨not_not.mpr hseq, not_not.mpr hd⟩, ?_⟩
    refine guarded_iff.mpr ⟨not_or.mpr ⟨not_not.mpr rfl, not_not.mpr rfl⟩, ?_⟩
    refine guarded_iff.mpr ⟨not_not.mpr ⟨hx, hw, hnorm.lengths.2.2, length_square.trans hx, hss,
      length_inverses, ht⟩, ?_⟩
    rw [hx, hss, ht]
    refine bind_iff.mpr ⟨square.2, hverifySq, guarded_iff.mpr ⟨not_not.mpr rfl, ?_⟩⟩
    exact bind_iff.mpr ⟨rsqrt.2, hverifyRsqrt, bind_iff.mpr ⟨scale1.2, hverify1, hverify2⟩⟩

/-- **COMPLETE**: the honest committed proof is accepted. -/
theorem proveCommittedRmsnorm_complete (h : P.Ideal committed) (hseq : IsPowerOfTwo seq) (hd : IsPowerOfTwo d)
    (hx : x.length = seq * d) (hw : w.length = d) (hcodes : ∀ r < seq, table.InDomain (squares d x r)) (tr : P.T) :
    ∃ out, proveCommittedRmsnorm P table seq d x w tr = .ok out ∧ out.1.commX = P.commit x
      ∧ out.1.commY = P.commit out.1.y ∧ out.1.y = normOf table seq d x w
      ∧ verifyCommittedRmsnorm P table seq d w out.1.commX out.1.commY out.1.proof tr = .ok out.2 := by
  obtain ⟨happly, hlookup⟩ := inverses_lookup hseq hx hcodes
  obtain ⟨square, hproveSq, hverifySq⟩ := h.hadamardIo.complete _ tr (square_holds hseq hd hx)
  obtain ⟨sum, hproveSum, hverifySum⟩ := h.rowSum.complete
    ⟨seq, d, hadamard x x, rowSums (hadamard x x) seq d⟩ square.2 ⟨hseq, hd, length_square.trans hx, rfl⟩
  obtain ⟨lookup, hproveLookup, hquery, hverifyLookup⟩ := proveTableLookup_complete h sum.2 hlookup
  obtain ⟨scale, hproveScale, hverifyScale⟩ := h.normScale.complete
    ⟨seq, d, w, x, inverses table seq d x, normOf table seq d x w⟩ lookup.2 ⟨hseq, hd, hw, hx, length_inverses, rfl⟩
  refine ⟨(⟨⟨P.commit (hadamard x x), P.commit (rowSums (hadamard x x) seq d), square.1, sum.1, lookup.1, scale.1⟩,
    P.commit x, P.commit (normOf table seq d x w), normOf table seq d x w⟩, scale.2), ?_, rfl, rfl, rfl, ?_⟩
  · rw [proveCommittedRmsnorm, guarded_of_not (not_not.mpr ⟨hseq, hd⟩),
      guarded_of_not (not_not.mpr hx), guarded_of_not (not_not.mpr hw)]
    dsimp only
    rw [hproveSq, ok_bind, hproveSum, ok_bind, happly, ok_bind, hproveLookup, ok_bind, ← normOf, hproveScale, ok_bind]
  · rw [verifyCommittedRmsnorm]
    refine guarded_iff.mpr
      ⟨not_or.mpr ⟨not_not.mpr hseq, not_or.mpr ⟨not_not.mpr hd, not_not.mpr hw⟩⟩, ?_⟩
    refine bind_iff.mpr ⟨square.2, hverifySq, bind_iff.mpr ⟨sum.2, hverifySum, ?_⟩⟩
    refine bind_iff.mpr ⟨(_, _), twoColumns_ok_iff.mpr hquery, guarded_iff.mpr ⟨not_not.mpr rfl, ?_⟩⟩
    exact bind_iff.mpr ⟨lookup.2, hverifyLookup, hverifyScale⟩

end Ideal

end RmsNorm
