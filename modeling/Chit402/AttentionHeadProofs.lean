import Chit402.RmsNormProofs

/-! # One attention head

    What the single-head and the multi-head verifiers share: the norm in
    front, and for a head its scores `Q·Kᵀ`, their causal softmax and the
    context `P·V`.  The parts are those of the norm and softmax, with the
    matrix products and the committed addition. -/

namespace AttentionHead

open ExceptFlow Mle IdealArgument Tensor SubArgument MatMul MatMulSound CausalSoftmax RmsNorm Finset
open Lookup (IsPowerOfTwo)

variable {p : ℕ} [Fact p.Prime]

/-! ## Statements -/

/-- `C = A·B`, each behind an `α`. -/
structure Product (α : Type) where
  m : ℕ
  k : ℕ
  n : ℕ
  a : α
  b : α
  c : α

def Product.of {α : Type} (f : Table p → α) (mm : Instance (ZMod p)) : Product α :=
  ⟨mm.m, mm.k, mm.n, f mm.a, f mm.b, f mm.c⟩

def Product.behind {α : Type} (f : α → Table p) (s : Product α) : Instance (ZMod p) :=
  ⟨s.m, s.k, s.n, f s.a, f s.b, f s.c⟩

def Multiplies (mm : Instance (ZMod p)) : Prop :=
  (IsPowerOfTwo mm.m ∧ IsPowerOfTwo mm.k ∧ IsPowerOfTwo mm.n) ∧ mm.a.length = mm.m * mm.k ∧ mm.b.length = mm.k * mm.n
    ∧ mm.c = product mm.m mm.k mm.n mm.a mm.b

/-- With `B` given by columns. -/
def MultipliesT (mm : Instance (ZMod p)) : Prop :=
  (IsPowerOfTwo mm.m ∧ IsPowerOfTwo mm.k ∧ IsPowerOfTwo mm.n) ∧ mm.a.length = mm.m * mm.k ∧ mm.b.length = mm.n * mm.k
    ∧ mm.c = productT mm.m mm.k mm.n mm.a mm.b

instance : DecidablePred (Multiplies (p := p)) := fun _ => inferInstanceAs (Decidable (_ ∧ _))

instance : DecidablePred (MultipliesT (p := p)) := fun _ => inferInstanceAs (Decidable (_ ∧ _))

/-- `c = a + b` -/
structure Add (α : Type) where
  len : ℕ
  a : α
  b : α
  c : α

def Add.map {α β : Type} (f : α → β) (s : Add α) : Add β := ⟨s.len, f s.a, f s.b, f s.c⟩

def Add.Holds (s : Add (Table p)) : Prop :=
  IsPowerOfTwo s.len ∧ s.a.length = s.len ∧ s.b.length = s.len ∧ s.c = add s.a s.b

instance : DecidablePred (Add.Holds (p := p)) := fun _ => inferInstanceAs (Decidable (_ ∧ _))

/-- The parts of the attention verifiers, and the digest of a table. -/
structure AttnParts (p : ℕ) extends Parts p where
  digest : Table p → List UInt8
  matmul : Argument Abort T (Instance (ZMod p)) (Instance (ZMod p))
  matmulIo : Argument Abort T (Product Comm) (Instance (ZMod p))
  matmulIoBt : Argument Abort T (Product Comm) (Instance (ZMod p))
  committedAdd : Argument Abort T (Add Comm) (Add (Table p))

/-- **IDEAL PARTS** -/
structure AttnParts.Ideal (P : AttnParts p) (committed : P.Comm → Table p) : Prop where
  parts : P.toParts.Ideal committed
  matmul : P.matmul.Ideal id id Multiplies
  matmulIo : P.matmulIo.Ideal (Product.of P.commit) (Product.behind committed) Multiplies
  matmulIoBt : P.matmulIoBt.Ideal (Product.of P.commit) (Product.behind committed) MultipliesT
  committedAdd : P.committedAdd.Ideal (Add.map P.commit) (Add.map committed) Add.Holds

/-! ## The code -/

structure NormParams (p : ℕ) where
  weight : Table p
  table : CodeTable p

/-- A step whose argument is pending. -/
structure LookupObligation where
  op : String
  inputCommit : List UInt8
  outputCommit : List UInt8
  len : ℕ
deriving DecidableEq

def LookupObligation.new (digest : Table p → List UInt8) (op : String) (input output : Table p) : LookupObligation :=
  ⟨op, digest input, digest output, input.length⟩

def normOp (name : String) : String := if name = "layernorm" then "layernorm" else "rmsnorm"

structure HeadProof (P : AttnParts p) where
  scores : Table p
  exps : Table p
  rowsum : Table p
  recip : Table p
  probs : Table p
  ctx : Table p
  pScores : P.matmul.Proof
  pExp : P.lookup.Proof
  pRecip : P.lookup.Proof
  pProb : P.hadamard.Proof
  pCtx : P.matmul.Proof

def HeadProof.Shaped {P : AttnParts p} (seq dHead : ℕ) (hp : HeadProof P) : Prop :=
  hp.scores.length = seq * seq ∧ hp.exps.length = seq * seq ∧ hp.rowsum.length = seq ∧ hp.recip.length = seq
    ∧ hp.probs.length = seq * seq ∧ hp.ctx.length = seq * dHead

instance {P : AttnParts p} (seq dHead : ℕ) (hp : HeadProof P) : Decidable (hp.Shaped seq dHead) :=
  inferInstanceAs (Decidable (_ ∧ _))

section Code

variable (P : AttnParts p)

/-- The norm in front, or its placeholder. -/
def proveNorm (normName : String) (seq dModel : ℕ) (norm : Option (NormParams p)) (x : Table p) (tr : P.T) :
    Except Abort ((Table p × Option (RmsNormProof P.toParts) × List LookupObligation) × P.T) :=
  match norm with
  | some np => do
    let out ← proveRmsnorm P.toParts np.table seq dModel x np.weight tr
    .ok ((out.1.2, some out.1.1, []), out.2)
  | none => .ok ((x, none, [LookupObligation.new P.digest (normOp normName) x x]), tr)

/-- The obligations that are left, when the mode is that of the proof. -/
def verifyNorm (normName : String) (seq dModel : ℕ) (norm : Option (NormParams p)) (x xn : Table p)
    (pNorm : Option (RmsNormProof P.toParts)) (tr : P.T) : Except Abort (List LookupObligation × P.T) :=
  match norm, pNorm with
  | some np, some pn => do
    let tr ← verifyRmsnorm P.toParts np.table seq dModel x np.weight xn pn tr
    .ok ([], tr)
  | none, none => .ok ([LookupObligation.new P.digest (normOp normName) x xn], tr)
  | _, _ => .error .reject

/-- `MatMul::new` and `prove`: the product and its proof. -/
def proveMm (m k n : ℕ) (a b : Table p) (tr : P.T) : Except Abort ((Table p × P.matmul.Proof) × P.T) := do
  let mm ← Instance.new m k n a b
  let out ← P.matmul.prove mm tr
  .ok ((mm.c, out.1), out.2)

/-- The residual, element by element. -/
def checkResidual (x o out : Table p) : Except Abort Unit :=
  (List.range out.length).forM fun i => do
    revertIf (x.length ≤ i ∨ o.length ≤ i) .panic
    revertIf (entry out i ≠ entry x i + entry o i) .reject

variable (expTable recipTable : CodeTable p) (seq dHead : ℕ)

def proveHead (q k v : Table p) (tr : P.T) : Except Abort (HeadProof P × P.T) := do
  let mms ← proveMm P seq dHead seq q (transposeRm k seq dHead) tr
  let scores := mms.1.1
  let masked := causalMask scores seq
  let exps ← expTable.apply masked
  let pExp ← P.lookup.prove (tableLookup expTable masked.length masked exps) mms.2
  let rowsum := rowSums exps seq seq
  let recip ← recipTable.apply rowsum
  let pRecip ← P.lookup.prove (tableLookup recipTable rowsum.length rowsum recip) pExp.2
  let probs := hadamard exps (broadcastRows recip seq)
  let pProb ← P.hadamard.prove ⟨exps.length, exps, broadcastRows recip seq, probs⟩ pRecip.2
  let mmc ← proveMm P seq seq dHead probs v pProb.2
  .ok ({
    scores, exps, rowsum, recip, probs
    ctx := mmc.1.1
    pScores := mms.1.2
    pExp := pExp.1
    pRecip := pRecip.1
    pProb := pProb.1
    pCtx := mmc.1.2 }, mmc.2)

def verifyHead (q k v : Table p) (hp : HeadProof P) (tr : P.T) : Except Abort P.T := do
  let tr ← P.matmul.verify ⟨seq, dHead, seq, q, transposeRm k seq dHead, hp.scores⟩ hp.pScores tr
  -- the masked scores are the verifier's own
  let masked := causalMask hp.scores seq
  let tr ← P.lookup.verify (tableLookup expTable masked.length masked hp.exps) hp.pExp tr
  revertIf (rowSums hp.exps seq seq ≠ hp.rowsum) .reject
  let tr ← P.lookup.verify (tableLookup recipTable hp.rowsum.length hp.rowsum hp.recip) hp.pRecip tr
  let tr ← P.hadamard.verify ⟨hp.exps.length, hp.exps, broadcastRows hp.recip seq, hp.probs⟩ hp.pProb tr
  P.matmul.verify ⟨seq, seq, dHead, hp.probs, v, hp.ctx⟩ hp.pCtx tr

end Code

/-! ## What a head computes -/

variable {expTable recipTable : CodeTable p} {seq dHead m k n : ℕ} {a b q kt v x o out : Table p}

def scoresOf (seq dHead : ℕ) (q k : Table p) : Table p := product seq dHead seq q (transposeRm k seq dHead)

def contextOf (expTable recipTable : CodeTable p) (seq dHead : ℕ) (q k v : Table p) : Table p :=
  product seq seq dHead (probsOf expTable recipTable seq (scoresOf seq dHead q k)) v

theorem length_contextOf : (contextOf expTable recipTable seq dHead q kt v).length = seq * dHead := length_product ..

theorem checkResidual_iff : checkResidual x o out = .ok () ↔
    ∀ i < out.length, (i < x.length ∧ i < o.length) ∧ entry out i = entry x i + entry o i := by
  rw [checkResidual, forM_ok_iff]
  refine forall_congr' fun i => imp_congr List.mem_range ?_
  rw [guarded_iff, revertIf_ok_iff, not_not, not_or, not_le, not_le]

/-- With tables of one length the residual is a sum of tables. -/
theorem checkResidual_add (hx : x.length = out.length) (ho : o.length = out.length) :
    checkResidual x o out = .ok () ↔ out = add x o := by
  have hadd : (add x o).length = out.length := by rw [length_add (hx.trans ho.symm), hx]
  rw [checkResidual_iff]
  constructor
  · intro h
    refine table_ext hadd.symm fun i hi => ?_
    rw [(h i hi).2, entry_add (by rw [hx]; exact hi) (by rw [ho]; exact hi)]
  · intro h i hi
    have hxi : i < x.length := by rw [hx]; exact hi
    have hoi : i < o.length := by rw [ho]; exact hi
    refine ⟨⟨hxi, hoi⟩, ?_⟩
    rw [← entry_add hxi hoi, ← h]

section Ideal

variable {P : AttnParts p} {committed : P.Comm → Table p}

theorem proveMm_complete (h : P.Ideal committed) (hm : IsPowerOfTwo m) (hk : IsPowerOfTwo k) (hn : IsPowerOfTwo n)
    (ha : a.length = m * k) (hb : b.length = k * n) (tr : P.T) :
    ∃ proof tr', proveMm P m k n a b tr = .ok ((product m k n a b, proof), tr')
      ∧ P.matmul.verify ⟨m, k, n, a, b, product m k n a b⟩ proof tr = .ok tr' := by
  obtain ⟨out, hprove, hverify⟩ := h.matmul.complete ⟨m, k, n, a, b, product m k n a b⟩ tr
    ⟨⟨hm, hk, hn⟩, ha, hb, rfl⟩
  refine ⟨out.1, out.2, ?_, hverify⟩
  rw [proveMm, instance_new ha hb, ok_bind, hprove, ok_bind]

/-- What an accepted head has computed. -/
theorem verifyHead_sound (h : P.Ideal committed) {hp : HeadProof P} {tr tr' : P.T} (hshaped : hp.Shaped seq dHead)
    (hverify : verifyHead P expTable recipTable seq dHead q kt v hp tr = .ok tr') :
    (IsPowerOfTwo seq ∧ IsPowerOfTwo dHead) ∧ Lookable expTable recipTable seq (scoresOf seq dHead q kt)
      ∧ hp.ctx = contextOf expTable recipTable seq dHead q kt v := by
  obtain ⟨-, -, hrowsumLen, -, -, -⟩ := hshaped
  obtain ⟨tr1, hscores, hverify⟩ := bind_iff.mp hverify
  obtain ⟨tr2, hexp, hverify⟩ := bind_iff.mp hverify
  obtain ⟨hrowsum, hverify⟩ := guarded_iff.mp hverify
  obtain ⟨tr3, hrecip, hverify⟩ := bind_iff.mp hverify
  obtain ⟨tr4, hprob, hctx⟩ := bind_iff.mp hverify
  obtain ⟨⟨hseq, hdHead, -⟩, -, -, hscores⟩ := h.matmul.sound _ _ _ _ hscores
  have hscores : hp.scores = scoresOf seq dHead q kt := hscores
  have hexp := h.parts.lookup.sound _ _ _ _ hexp
  rw [id, length_causalMask, hscores] at hexp
  have hexps : hp.exps = expsOf expTable seq (scoresOf seq dHead q kt) := tableLookup_map hexp
  have hrecip := h.parts.lookup.sound _ _ _ _ hrecip
  rw [id, hrowsumLen, ← not_not.mp hrowsum, hexps] at hrecip
  have hrecips : hp.recip = recipsOf expTable recipTable seq (scoresOf seq dHead q kt) := tableLookup_map hrecip
  obtain ⟨-, -, -, hprobs⟩ := h.parts.hadamard.sound _ _ _ _ hprob
  have hprobs : hp.probs = hadamard hp.exps (broadcastRows hp.recip seq) := hprobs
  obtain ⟨-, -, -, hctx⟩ := h.matmul.sound _ _ _ _ hctx
  have hctx : hp.ctx = product seq seq dHead hp.probs v := hctx
  rw [hprobs, hexps, hrecips] at hctx
  refine ⟨⟨hseq, hdHead⟩, ⟨length_product .., ?_, ?_⟩, hctx⟩
  · intro i hi j hj
    rw [← entry_causalMask hi hj]
    exact ((tableLookup_iff.mp hexp).2.2.2 _ (row_major_lt hi hj)).1
  · intro i hi
    rw [← entry_rowSums hi]
    exact ((tableLookup_iff.mp hrecip).2.2.2 i hi).1

/-- **COMPLETE**: the honest proof of a head is accepted. -/
theorem proveHead_complete (h : P.Ideal committed) (hseq : IsPowerOfTwo seq) (hdHead : IsPowerOfTwo dHead)
    (hq : q.length = seq * dHead) (hv : v.length = seq * dHead)
    (hlook : Lookable expTable recipTable seq (scoresOf seq dHead q kt)) (tr : P.T) :
    ∃ out, proveHead P expTable recipTable seq dHead q kt v tr = .ok out ∧ out.1.Shaped seq dHead
      ∧ out.1.ctx = contextOf expTable recipTable seq dHead q kt v
      ∧ verifyHead P expTable recipTable seq dHead q kt v out.1 tr = .ok out.2 := by
  obtain ⟨hexpApply, hexpHolds⟩ := lookable_exps hseq hlook
  obtain ⟨hrecipApply, hrecipHolds⟩ := lookable_recips hseq hlook
  have hprobs : (probsOf expTable recipTable seq (scoresOf seq dHead q kt)).length = seq * seq := length_probsOf
  have hkt : (transposeRm kt seq dHead).length = dHead * seq := by rw [length_transposeRm, Nat.mul_comm]
  obtain ⟨pScores, trS, hproveS, hverifyS⟩ := proveMm_complete h hseq hdHead hseq hq hkt tr
  obtain ⟨exp, hproveExp, hverifyExp⟩ := h.parts.lookup.complete _ trS hexpHolds
  obtain ⟨recip, hproveRecip, hverifyRecip⟩ := h.parts.lookup.complete _ exp.2 hrecipHolds
  obtain ⟨prob, hproveProb, hverifyProb⟩ := h.parts.hadamard.complete
    ⟨seq * seq, expsOf expTable seq (scoresOf seq dHead q kt),
      broadcastRows (recipsOf expTable recipTable seq (scoresOf seq dHead q kt)) seq,
      probsOf expTable recipTable seq (scoresOf seq dHead q kt)⟩ recip.2
    ⟨pow2_mul hseq hseq, length_expsOf, by rw [length_broadcastRows, length_recipsOf], rfl⟩
  obtain ⟨pCtx, trC, hproveC, hverifyC⟩ := proveMm_complete h hseq hseq hdHead hprobs hv prob.2
  refine ⟨(⟨scoresOf seq dHead q kt, expsOf expTable seq (scoresOf seq dHead q kt),
    rowSums (expsOf expTable seq (scoresOf seq dHead q kt)) seq seq,
    recipsOf expTable recipTable seq (scoresOf seq dHead q kt),
    probsOf expTable recipTable seq (scoresOf seq dHead q kt), contextOf expTable recipTable seq dHead q kt v,
    pScores, exp.1, recip.1, prob.1, pCtx⟩, trC), ?_, ?_, rfl, ?_⟩
  · rw [proveHead, hproveS, ok_bind]
    dsimp only
    rw [← scoresOf, hexpApply, ok_bind, length_causalMask, hproveExp, ok_bind, hrecipApply, ok_bind, length_rowSums,
      hproveRecip, ok_bind, length_expsOf, ← probsOf, hproveProb, ok_bind, hproveC, ok_bind, ← contextOf]
  · exact ⟨length_product .., length_expsOf, length_rowSums _ seq seq, length_recipsOf,
      length_probsOf, length_contextOf⟩
  · rw [verifyHead]
    dsimp only
    rw [length_causalMask, length_rowSums, length_expsOf]
    refine bind_iff.mpr ⟨trS, hverifyS, bind_iff.mpr ⟨exp.2, hverifyExp, ?_⟩⟩
    refine guarded_iff.mpr ⟨not_not.mpr rfl, bind_iff.mpr ⟨recip.2, hverifyRecip, ?_⟩⟩
    exact bind_iff.mpr ⟨prob.2, hverifyProb, hverifyC⟩

/-! ## The norm in front -/

variable {normName : String} {dModel : ℕ} {np : NormParams p} {xn : Table p}

theorem verifyNorm_sound (h : P.Ideal committed) {pNorm : Option (RmsNormProof P.toParts)} {tr : P.T}
    {out : List LookupObligation × P.T} (hverify : verifyNorm P normName seq dModel (some np) x xn pNorm tr = .ok out) :
    out.1 = [] ∧ IsPowerOfTwo seq ∧ IsPowerOfTwo dModel ∧ IsNorm np.table seq dModel x np.weight xn := by
  cases pNorm with
  | none => cases hverify
  | some pn =>
    obtain ⟨tr', hnorm, hout⟩ := bind_iff.mp hverify
    cases hout
    exact ⟨rfl, verifyRmsnorm_sound h.parts hnorm⟩

theorem proveNorm_complete (h : P.Ideal committed) (normName : String) (hseq : IsPowerOfTwo seq)
    (hdModel : IsPowerOfTwo dModel) (hx : x.length = seq * dModel) (hw : np.weight.length = dModel)
    (hcodes : ∀ r < seq, np.table.InDomain (squares dModel x r)) (tr : P.T) :
    ∃ pn tr', proveNorm P normName seq dModel (some np) x tr
        = .ok ((normOf np.table seq dModel x np.weight, some pn, []), tr')
      ∧ verifyNorm P normName seq dModel (some np) x (normOf np.table seq dModel x np.weight) (some pn) tr
        = .ok ([], tr') := by
  obtain ⟨out, hprove, hnorm, hverify⟩ := proveRmsnorm_complete h.parts hseq hdModel hx hw hcodes tr
  refine ⟨out.1.1, out.2, ?_, ?_⟩
  · rw [proveNorm, hprove, ok_bind, hnorm]
  · rw [hnorm] at hverify
    rw [verifyNorm, hverify, ok_bind]

end Ideal

end AttentionHead
