import Chit402.SubArgumentProofs

/-! # Committed causal softmax

    `prove_committed_softmax` and `verify_committed_softmax`: a masked copy
    of the scores, its `exp` codes, their row sums, the reciprocal codes of
    those, and the scaling, tied by commitment bytes.  With ideal parts the
    verifier accepts exactly the causal softmax of what is behind `comm_s`. -/

namespace CausalSoftmax

open ExceptFlow Mle Tensor SubArgument MatMulSound Finset
open Lookup (IsPowerOfTwo)

variable {p : ℕ} [Fact p.Prime]

/-! ## The code -/

section Code

variable (P : Parts p) (expTable recipTable : CodeTable p) (seq : ℕ)

/-- The scaling step's point, sumcheck and openings are one proof. -/
structure CommittedSoftmaxProof where
  commMask : P.Comm
  commMasked : P.Comm
  commZ : P.Comm
  pMask : P.hadamardIo.Proof
  pExp : CommittedLookupProof P
  pRowsum : P.rowSum.Proof
  pRecip : CommittedLookupProof P
  scale : P.softmaxScale.Proof

/-- What the prover returns. -/
structure Proved where
  proof : CommittedSoftmaxProof P
  commS : P.Comm
  commP : P.Comm
  probs : Table p

def proveCommittedSoftmax (scores : Table p) (tr : P.T) : Except Abort (Proved P × P.T) := do
  revertIf (¬ IsPowerOfTwo seq) .panic
  revertIf (scores.length ≠ seq * seq) .panic
  revertIf (entry expTable.outCodes 0 ≠ 0) .panic
  let mask := causalSelector seq
  let masked := hadamard scores mask
  let pMask ← P.hadamardIo.prove ⟨seq * seq, scores, mask, masked⟩ tr
  let exps ← expTable.apply masked
  let pExp ← proveTableLookup P expTable (seq * seq) masked exps pMask.2
  let rowsum := rowSums exps seq seq
  let pRowsum ← P.rowSum.prove ⟨seq, seq, exps, rowsum⟩ pExp.2
  let recip ← recipTable.apply rowsum
  let pRecip ← proveTableLookup P recipTable seq rowsum recip pRowsum.2
  let probs := hadamard exps (broadcastRows recip seq)
  let scale ← P.softmaxScale.prove ⟨seq, exps, recip, probs⟩ pRecip.2
  .ok ({
    proof := {
      commMask := P.commit mask
      commMasked := P.commit masked
      commZ := P.commit rowsum
      pMask := pMask.1
      pExp := pExp.1
      pRowsum := pRowsum.1
      pRecip := pRecip.1
      scale := scale.1 }
    commS := P.commit scores
    commP := P.commit probs
    probs }, scale.2)

def verifyCommittedSoftmax (commS commP : P.Comm) (proof : CommittedSoftmaxProof P) (tr : P.T) : Except Abort P.T := do
  revertIf (¬ IsPowerOfTwo seq ∨ entry expTable.outCodes 0 ≠ 0) .reject
  -- the mask is the canonical selector
  revertIf (P.bytes proof.commMask ≠ P.bytes (P.commit (causalSelector seq))) .reject
  let tr ← P.hadamardIo.verify ⟨seq * seq, commS, proof.commMask, proof.commMasked⟩ proof.pMask tr
  let expColumns ← twoColumns proof.pExp.commQuery
  revertIf (P.bytes expColumns.1 ≠ P.bytes proof.commMasked) .reject
  let tr ← verifyTableLookup P expTable (seq * seq) proof.pExp tr
  let tr ← P.rowSum.verify ⟨seq, seq, expColumns.2, proof.commZ⟩ proof.pRowsum tr
  let recipColumns ← twoColumns proof.pRecip.commQuery
  revertIf (P.bytes recipColumns.1 ≠ P.bytes proof.commZ) .reject
  let tr ← verifyTableLookup P recipTable seq proof.pRecip tr
  P.softmaxScale.verify ⟨seq, expColumns.2, recipColumns.2, commP⟩ proof.scale tr

end Code

/-! ## The relation -/

variable {expTable recipTable : CodeTable p} {seq : ℕ} {scores probs exps : Table p}

/-- The causal softmax of `scores` is `probs`, with `exps` on the way. -/
structure IsSoftmax (expTable recipTable : CodeTable p) (seq : ℕ) (scores probs exps : Table p) : Prop where
  lengths : scores.length = seq * seq ∧ probs.length = seq * seq ∧ exps.length = seq * seq
  codes : ∀ i < seq, ∀ j < seq, expTable.InDomain (if j ≤ i then entry scores (i * seq + j) else 0)
  values : ∀ i < seq, ∀ j < seq,
    entry exps (i * seq + j) = if j ≤ i then expTable.value (entry scores (i * seq + j)) else 0
  sums : ∀ i < seq, recipTable.InDomain (∑ j ∈ range seq, entry exps (i * seq + j))
  scaled : ∀ i < seq, ∀ j < seq, entry probs (i * seq + j)
    = entry exps (i * seq + j) * recipTable.value (∑ j ∈ range seq, entry exps (i * seq + j))

omit [Fact p.Prime] in
theorem grid_lt {t : Table p} {m n i j : ℕ} (ht : t.length = m * n) (hi : i < m) (hj : j < n) :
    i * n + j < t.length := by
  rw [ht]
  exact row_major_lt hi hj

theorem pow2_mul {m n : ℕ} (hm : IsPowerOfTwo m) (hn : IsPowerOfTwo n) : IsPowerOfTwo (m * n) := by
  rw [IsPowerOfTwo, ← hm, ← hn, ← pow_add, Nat.log2_two_pow]

/-- The lookups and the scaling make the relation. -/
theorem isSoftmax_of_steps {z recip : Table p} (hzero : entry expTable.outCodes 0 = 0)
    (hscores : scores.length = seq * seq)
    (hexp : (tableLookup expTable (seq * seq) (causalMask scores seq) exps).Holds) (hsum : z = rowSums exps seq seq)
    (hrecip : (tableLookup recipTable seq z recip).Holds)
    (hscale : (SoftmaxScale.mk seq exps recip probs).Holds) : IsSoftmax expTable recipTable seq scores probs exps := by
  obtain ⟨-, -, hexps, hexp⟩ := tableLookup_iff.mp hexp
  obtain ⟨-, -, hr, hrecip⟩ := tableLookup_iff.mp hrecip
  have hprobs : probs = hadamard exps (broadcastRows recip seq) := hscale.2.2.2
  have hbroadcast : (broadcastRows recip seq).length = seq * seq := by rw [length_broadcastRows, hr]
  have hz : ∀ i < seq, entry z i = ∑ j ∈ range seq, entry exps (i * seq + j) := by
    intro i hi
    rw [hsum, entry_rowSums hi]
  constructor
  case lengths =>
    refine ⟨hscores, ?_, hexps⟩
    rw [hprobs, length_hadamard (hexps.trans hbroadcast.symm), hexps]
  case codes =>
    intro i hi j hj
    rw [← entry_causalMask hi hj]
    exact (hexp _ (row_major_lt hi hj)).1
  case values =>
    intro i hi j hj
    rw [(hexp _ (row_major_lt hi hj)).2, entry_causalMask hi hj]
    split
    · rfl
    · -- a masked-out score has code 0, and code 0 has value 0
      rw [CodeTable.value, ZMod.val_zero, hzero]
  case sums =>
    intro i hi
    rw [← hz i hi]
    exact (hrecip i hi).1
  case scaled =>
    intro i hi j hj
    rw [hprobs, entry_hadamard (grid_lt hexps hi hj) (grid_lt hbroadcast hi hj),
      entry_broadcastRows (by rw [hr]; exact hi) hj, (hrecip i hi).2, hz i hi]

/-! ## Soundness -/

section Ideal

variable {P : Parts p} {committed : P.Comm → Table p}

theorem verifyCommittedSoftmax_sound (h : P.Ideal committed) {commS commP : P.Comm}
    {proof : CommittedSoftmaxProof P} {tr tr' : P.T}
    (hverify : verifyCommittedSoftmax P expTable recipTable seq commS commP proof tr = .ok tr') :
    IsPowerOfTwo seq ∧ entry expTable.outCodes 0 = 0
      ∧ ∃ exps, IsSoftmax expTable recipTable seq (committed commS) (committed commP) exps := by
  obtain ⟨hshape, hverify⟩ := guarded_iff.mp hverify
  obtain ⟨hseq, hzero⟩ := not_or.mp hshape
  have hseq : IsPowerOfTwo seq := not_not.mp hseq
  have hzero : entry expTable.outCodes 0 = 0 := not_not.mp hzero
  obtain ⟨hmask, hverify⟩ := guarded_iff.mp hverify
  obtain ⟨tr1, hhad, hverify⟩ := bind_iff.mp hverify
  obtain ⟨expColumns, hexpTwo, hverify⟩ := bind_iff.mp hverify
  obtain ⟨hmasked, hverify⟩ := guarded_iff.mp hverify
  obtain ⟨tr2, hexp, hverify⟩ := bind_iff.mp hverify
  obtain ⟨tr3, hrowsum, hverify⟩ := bind_iff.mp hverify
  obtain ⟨recipColumns, hrecipTwo, hverify⟩ := bind_iff.mp hverify
  obtain ⟨hz, hverify⟩ := guarded_iff.mp hverify
  obtain ⟨tr4, hrecip, hscale⟩ := bind_iff.mp hverify
  refine ⟨hseq, hzero, committed expColumns.2, ?_⟩
  -- the masked scores are a masked copy
  have hselector : committed proof.commMask = causalSelector seq := by
    rw [h.bytes (not_not.mp hmask)]
    exact h.commits _ (by rw [length_causalSelector]; exact pow2_mul hseq hseq)
  obtain ⟨-, hscores, -, hcopy⟩ := h.hadamardIo.sound _ _ _ _ hhad
  have hscores : (committed commS).length = seq * seq := hscores
  have hcopy : committed proof.commMasked = causalMask (committed commS) seq := by
    rw [← hadamard_causalSelector hscores, ← hselector]
    exact hcopy
  -- the seams of the lookups
  have hexp := verifyTableLookup_sound h (twoColumns_ok_iff.mp hexpTwo) hexp
  rw [h.bytes (not_not.mp hmasked), hcopy] at hexp
  have hrecip := verifyTableLookup_sound h (twoColumns_ok_iff.mp hrecipTwo) hrecip
  rw [h.bytes (not_not.mp hz)] at hrecip
  obtain ⟨-, -, -, hsum⟩ := h.rowSum.sound _ _ _ _ hrowsum
  exact isSoftmax_of_steps hzero hscores hexp hsum hrecip (h.softmaxScale.sound _ _ _ _ hscale)

/-! ## Completeness -/

/-- The `exp` values of the masked scores. -/
def expsOf (expTable : CodeTable p) (seq : ℕ) (scores : Table p) : Table p := (causalMask scores seq).map expTable.value

/-- The reciprocals of their row sums. -/
def recipsOf (expTable recipTable : CodeTable p) (seq : ℕ) (scores : Table p) : Table p :=
  (rowSums (expsOf expTable seq scores) seq seq).map recipTable.value

def probsOf (expTable recipTable : CodeTable p) (seq : ℕ) (scores : Table p) : Table p :=
  hadamard (expsOf expTable seq scores) (broadcastRows (recipsOf expTable recipTable seq scores) seq)

/-- The scores of the prover have codes, and so do their row sums. -/
structure Lookable (expTable recipTable : CodeTable p) (seq : ℕ) (scores : Table p) : Prop where
  length : scores.length = seq * seq
  codes : ∀ i < seq, ∀ j < seq, expTable.InDomain (if j ≤ i then entry scores (i * seq + j) else 0)
  sums : ∀ i < seq, recipTable.InDomain (∑ j ∈ range seq, entry (expsOf expTable seq scores) (i * seq + j))

theorem codes_by_index (hcodes : ∀ i < seq, ∀ j < seq,
    expTable.InDomain (if j ≤ i then entry scores (i * seq + j) else 0))
    {x : ℕ} (hx : x < seq * seq) : expTable.InDomain (entry (causalMask scores seq) x) := by
  have hseq : 0 < seq := Nat.pos_of_ne_zero fun h0 => Nat.not_lt_zero x (by rw [h0, Nat.mul_zero] at hx; exact hx)
  have hi : x / seq < seq := Nat.div_lt_of_lt_mul hx
  have hj : x % seq < seq := Nat.mod_lt x hseq
  rw [← Nat.div_add_mod' x seq, entry_causalMask hi hj]
  exact hcodes _ hi _ hj

theorem length_expsOf : (expsOf expTable seq scores).length = seq * seq := by
  rw [expsOf, List.length_map, length_causalMask]

theorem length_recipsOf : (recipsOf expTable recipTable seq scores).length = seq := by
  rw [recipsOf, List.length_map, length_rowSums]

theorem length_probsOf : (probsOf expTable recipTable seq scores).length = seq * seq := by
  rw [probsOf, length_hadamard (by rw [length_expsOf, length_broadcastRows, length_recipsOf]), length_expsOf]

theorem lookable_exps (hseq : IsPowerOfTwo seq) (hlook : Lookable expTable recipTable seq scores) :
    expTable.apply (causalMask scores seq) = .ok (expsOf expTable seq scores)
      ∧ (tableLookup expTable (seq * seq) (causalMask scores seq) (expsOf expTable seq scores)).Holds :=
  tableLookup_apply (pow2_mul hseq hseq) (length_causalMask scores seq) fun _ hx => codes_by_index hlook.codes hx

theorem lookable_recips (hseq : IsPowerOfTwo seq) (hlook : Lookable expTable recipTable seq scores) :
    recipTable.apply (rowSums (expsOf expTable seq scores) seq seq) = .ok (recipsOf expTable recipTable seq scores)
      ∧ (tableLookup recipTable seq (rowSums (expsOf expTable seq scores) seq seq)
        (recipsOf expTable recipTable seq scores)).Holds := by
  refine tableLookup_apply hseq (length_rowSums _ seq seq) fun i hi => ?_
  rw [entry_rowSums hi]
  exact hlook.sums i hi

theorem probsOf_scale (hseq : IsPowerOfTwo seq) :
    (SoftmaxScale.mk seq (expsOf expTable seq scores) (recipsOf expTable recipTable seq scores)
      (probsOf expTable recipTable seq scores)).Holds :=
  ⟨hseq, length_expsOf, length_recipsOf, rfl⟩

theorem IsSoftmax.lookable (h : IsSoftmax expTable recipTable seq scores probs exps) (hseq : IsPowerOfTwo seq)
    (hzero : entry expTable.outCodes 0 = 0) :
    Lookable expTable recipTable seq scores ∧ probs = probsOf expTable recipTable seq scores := by
  obtain ⟨hscores, hprobs, hexps⟩ := h.lengths
  have hexpsEq : exps = expsOf expTable seq scores := by
    refine grid_ext hexps length_expsOf fun i hi j hj => ?_
    rw [h.values i hi j hj, expsOf, entry_map_of_lt (grid_lt (length_causalMask scores seq) hi hj),
      entry_causalMask hi hj]
    split
    · rfl
    · rw [CodeTable.value, ZMod.val_zero, hzero]
  have hlook : Lookable expTable recipTable seq scores := by
    refine ⟨hscores, h.codes, ?_⟩
    rw [← hexpsEq]
    exact h.sums
  have hof := isSoftmax_of_steps hzero hscores (lookable_exps hseq hlook).2 rfl (lookable_recips hseq hlook).2
    (probsOf_scale hseq)
  refine ⟨hlook, grid_ext hprobs length_probsOf fun i hi j hj => ?_⟩
  rw [h.scaled i hi j hj, hof.scaled i hi j hj, hexpsEq]

/-- **COMPLETE**: the honest proof is accepted, and is of the softmax of the scores. -/
theorem proveCommittedSoftmax_complete (h : P.Ideal committed) (hseq : IsPowerOfTwo seq)
    (hzero : entry expTable.outCodes 0 = 0) (hlook : Lookable expTable recipTable seq scores) (tr : P.T) :
    ∃ out, proveCommittedSoftmax P expTable recipTable seq scores tr = .ok out ∧ out.1.commS = P.commit scores
      ∧ out.1.commP = P.commit out.1.probs ∧ out.1.probs = probsOf expTable recipTable seq scores
      ∧ verifyCommittedSoftmax P expTable recipTable seq out.1.commS out.1.commP out.1.proof tr = .ok out.2 := by
  have hsq : IsPowerOfTwo (seq * seq) := pow2_mul hseq hseq
  have hmasked : hadamard scores (causalSelector seq) = causalMask scores seq := hadamard_causalSelector hlook.length
  obtain ⟨hexpApply, hexpHolds⟩ := lookable_exps hseq hlook
  obtain ⟨hrecipApply, hrecipHolds⟩ := lookable_recips hseq hlook
  obtain ⟨mask, hproveMask, hverifyMask⟩ := h.hadamardIo.complete
    ⟨seq * seq, scores, causalSelector seq, causalMask scores seq⟩ tr
    ⟨hsq, hlook.length, length_causalSelector seq, hmasked.symm⟩
  obtain ⟨exp, hproveExp, hexpQuery, hverifyExp⟩ := proveTableLookup_complete h mask.2 hexpHolds
  obtain ⟨sum, hproveSum, hverifySum⟩ := h.rowSum.complete
    ⟨seq, seq, expsOf expTable seq scores, rowSums (expsOf expTable seq scores) seq seq⟩ exp.2
    ⟨hseq, hseq, length_expsOf, rfl⟩
  obtain ⟨recip, hproveRecip, hrecipQuery, hverifyRecip⟩ := proveTableLookup_complete h sum.2 hrecipHolds
  obtain ⟨scale, hproveScale, hverifyScale⟩ := h.softmaxScale.complete
    ⟨seq, expsOf expTable seq scores, recipsOf expTable recipTable seq scores, probsOf expTable recipTable seq scores⟩
    recip.2 (probsOf_scale hseq)
  refine ⟨(⟨⟨P.commit (causalSelector seq), P.commit (causalMask scores seq),
    P.commit (rowSums (expsOf expTable seq scores) seq seq), mask.1, exp.1, sum.1, recip.1, scale.1⟩,
    P.commit scores, P.commit (probsOf expTable recipTable seq scores),
      probsOf expTable recipTable seq scores⟩, scale.2),
    ?_, rfl, rfl, rfl, ?_⟩
  · rw [proveCommittedSoftmax, guarded_of_not (not_not.mpr hseq),
      guarded_of_not (not_not.mpr hlook.length), guarded_of_not (not_not.mpr hzero)]
    dsimp only
    rw [hmasked, hproveMask, ok_bind, hexpApply, ok_bind, hproveExp, ok_bind, hproveSum, ok_bind, hrecipApply,
      ok_bind, hproveRecip, ok_bind, ← probsOf, hproveScale, ok_bind]
  · rw [verifyCommittedSoftmax]
    refine guarded_iff.mpr ⟨not_or.mpr ⟨not_not.mpr hseq, not_not.mpr hzero⟩, ?_⟩
    refine guarded_iff.mpr ⟨not_not.mpr rfl, bind_iff.mpr ⟨mask.2, hverifyMask, ?_⟩⟩
    refine bind_iff.mpr ⟨(_, _), twoColumns_ok_iff.mpr hexpQuery, guarded_iff.mpr ⟨not_not.mpr rfl, ?_⟩⟩
    refine bind_iff.mpr ⟨exp.2, hverifyExp, bind_iff.mpr ⟨sum.2, hverifySum, ?_⟩⟩
    refine bind_iff.mpr ⟨(_, _), twoColumns_ok_iff.mpr hrecipQuery, guarded_iff.mpr ⟨not_not.mpr rfl, ?_⟩⟩
    exact bind_iff.mpr ⟨recip.2, hverifyRecip, hverifyScale⟩

end Ideal

end CausalSoftmax
