import Chit402.AttentionHeadProofs

/-! # Single-head causal attention

    `prove_attention` and `verify_attention` on tables, and their committed
    forms: the norm, three projections, one head, the output projection and
    the residual.  Both are ideal stages for one function of the input. -/

namespace Attention

open ExceptFlow Mle Tensor SubArgument MatMul MatMulSound CausalSoftmax RmsNorm AttentionHead
open Lookup (IsPowerOfTwo)

variable {p : ℕ} [Fact p.Prime]

/-! ## The code -/

structure AttnConfig where
  seq : ℕ
  dModel : ℕ
  dHead : ℕ
  normName : String

/-- The four weight matrices. -/
structure Weights (p : ℕ) where
  wq : Table p
  wk : Table p
  wv : Table p
  wo : Table p

/-- The advice and the sub-proofs; those of the head are its head proof. -/
structure AttnProof (P : AttnParts p) extends HeadProof P where
  seq : ℕ
  dModel : ℕ
  dHead : ℕ
  xn : Table p
  q : Table p
  k : Table p
  v : Table p
  o : Table p
  pNorm : Option (RmsNormProof P.toParts)
  pQ : P.matmul.Proof
  pK : P.matmul.Proof
  pV : P.matmul.Proof
  pO : P.matmul.Proof
  obligations : List LookupObligation

section Code

variable (P : AttnParts p) (cfg : AttnConfig) (W : Weights p) (expTable recipTable : CodeTable p)

def proveAttention (norm : Option (NormParams p)) (x : Table p) (tr : P.T) :
    Except Abort ((AttnProof P × Table p) × P.T) := do
  revertIf (x.length ≠ cfg.seq * cfg.dModel) .panic
  revertIf (W.wq.length ≠ cfg.dModel * cfg.dHead) .panic
  revertIf (W.wk.length ≠ cfg.dModel * cfg.dHead) .panic
  revertIf (W.wv.length ≠ cfg.dModel * cfg.dHead) .panic
  revertIf (W.wo.length ≠ cfg.dHead * cfg.dModel) .panic
  revertIf (entry expTable.outCodes 0 ≠ 0) .panic
  let normed ← proveNorm P cfg.normName cfg.seq cfg.dModel norm x tr
  let xn := normed.1.1
  let q ← proveMm P cfg.seq cfg.dModel cfg.dHead xn W.wq normed.2
  let k ← proveMm P cfg.seq cfg.dModel cfg.dHead xn W.wk q.2
  let v ← proveMm P cfg.seq cfg.dModel cfg.dHead xn W.wv k.2
  let head ← proveHead P expTable recipTable cfg.seq cfg.dHead q.1.1 k.1.1 v.1.1 v.2
  let o ← proveMm P cfg.seq cfg.dHead cfg.dModel head.1.ctx W.wo head.2
  .ok (({
    toHeadProof := head.1
    seq := cfg.seq
    dModel := cfg.dModel
    dHead := cfg.dHead
    xn
    q := q.1.1
    k := k.1.1
    v := v.1.1
    o := o.1.1
    pNorm := normed.1.2.1
    pQ := q.1.2
    pK := k.1.2
    pV := v.1.2
    pO := o.1.2
    obligations := normed.1.2.2 }, add x o.1.1), o.2)

def verifyAttention (norm : Option (NormParams p)) (x out : Table p) (proof : AttnProof P) (tr : P.T) :
    Except Abort P.T := do
  revertIf (proof.seq ≠ cfg.seq ∨ proof.dModel ≠ cfg.dModel ∨ proof.dHead ≠ cfg.dHead) .reject
  revertIf (¬ (proof.xn.length = cfg.seq * cfg.dModel ∧ proof.q.length = cfg.seq * cfg.dHead
    ∧ proof.k.length = cfg.seq * cfg.dHead ∧ proof.v.length = cfg.seq * cfg.dHead
    ∧ proof.toHeadProof.Shaped cfg.seq cfg.dHead ∧ proof.o.length = cfg.seq * cfg.dModel
    ∧ out.length = cfg.seq * cfg.dModel)) .reject
  revertIf (entry expTable.outCodes 0 ≠ 0) .reject
  let normed ← verifyNorm P cfg.normName cfg.seq cfg.dModel norm x proof.xn proof.pNorm tr
  let tr ← P.matmul.verify ⟨cfg.seq, cfg.dModel, cfg.dHead, proof.xn, W.wq, proof.q⟩ proof.pQ normed.2
  let tr ← P.matmul.verify ⟨cfg.seq, cfg.dModel, cfg.dHead, proof.xn, W.wk, proof.k⟩ proof.pK tr
  let tr ← P.matmul.verify ⟨cfg.seq, cfg.dModel, cfg.dHead, proof.xn, W.wv, proof.v⟩ proof.pV tr
  let tr ← verifyHead P expTable recipTable cfg.seq cfg.dHead proof.q proof.k proof.v proof.toHeadProof tr
  let tr ← P.matmul.verify ⟨cfg.seq, cfg.dHead, cfg.dModel, proof.ctx, W.wo, proof.o⟩ proof.pO tr
  checkResidual x proof.o out
  revertIf (proof.obligations ≠ normed.1) .reject
  .ok tr

/-- The commitments between the steps, and the sub-proofs. -/
structure CommittedAttnProof where
  commXn : P.Comm
  commQ : P.Comm
  commK : P.Comm
  commV : P.Comm
  commS : P.Comm
  commP : P.Comm
  commCtx : P.Comm
  commO : P.Comm
  pNorm : CommittedRmsNormProof P.toParts
  pQ : P.matmulIo.Proof
  pK : P.matmulIo.Proof
  pV : P.matmulIo.Proof
  pScores : P.matmulIoBt.Proof
  pSoftmax : CommittedSoftmaxProof P.toParts
  pCtx : P.matmulIo.Proof
  pO : P.matmulIo.Proof
  pResid : P.committedAdd.Proof

/-- `MatMul::new` and `prove_committed_io`. -/
def proveMmIo (m k n : ℕ) (a b : Table p) (tr : P.T) : Except Abort ((Table p × P.matmulIo.Proof) × P.T) := do
  let mm ← Instance.new m k n a b
  let out ← P.matmulIo.prove mm tr
  .ok ((mm.c, out.1), out.2)

def proveCommittedAttention (norm : NormParams p) (x : Table p) (tr : P.T) :
    Except Abort ((CommittedAttnProof P × P.Comm × P.Comm × Table p) × P.T) := do
  revertIf (x.length ≠ cfg.seq * cfg.dModel) .panic
  revertIf (W.wq.length ≠ cfg.dModel * cfg.dHead) .panic
  revertIf (W.wk.length ≠ cfg.dModel * cfg.dHead) .panic
  revertIf (W.wv.length ≠ cfg.dModel * cfg.dHead) .panic
  revertIf (W.wo.length ≠ cfg.dHead * cfg.dModel) .panic
  revertIf (entry expTable.outCodes 0 ≠ 0) .panic
  let normed ← proveCommittedRmsnorm P.toParts norm.table cfg.seq cfg.dModel x norm.weight tr
  let xn := normed.1.y
  let q ← proveMmIo P cfg.seq cfg.dModel cfg.dHead xn W.wq normed.2
  let k ← proveMmIo P cfg.seq cfg.dModel cfg.dHead xn W.wk q.2
  let v ← proveMmIo P cfg.seq cfg.dModel cfg.dHead xn W.wv k.2
  let mms ← Instance.new cfg.seq cfg.dHead cfg.seq q.1.1 (transposeRm k.1.1 cfg.seq cfg.dHead)
  let scores := mms.c
  let pScores ← P.matmulIoBt.prove ⟨cfg.seq, cfg.dHead, cfg.seq, q.1.1, k.1.1, scores⟩ v.2
  let softmax ← proveCommittedSoftmax P.toParts expTable recipTable cfg.seq scores pScores.2
  let ctx ← proveMmIo P cfg.seq cfg.seq cfg.dHead softmax.1.probs v.1.1 softmax.2
  let o ← proveMmIo P cfg.seq cfg.dHead cfg.dModel ctx.1.1 W.wo ctx.2
  let out := add x o.1.1
  let pResid ← P.committedAdd.prove ⟨cfg.seq * cfg.dModel, x, o.1.1, out⟩ o.2
  .ok (({
    commXn := normed.1.commY
    commQ := P.commit q.1.1
    commK := P.commit k.1.1
    commV := P.commit v.1.1
    commS := P.commit scores
    commP := softmax.1.commP
    commCtx := P.commit ctx.1.1
    commO := P.commit o.1.1
    pNorm := normed.1.proof
    pQ := q.1.2
    pK := k.1.2
    pV := v.1.2
    pScores := pScores.1
    pSoftmax := softmax.1.proof
    pCtx := ctx.1.2
    pO := o.1.2
    pResid := pResid.1 }, normed.1.commX, P.commit out, out), pResid.2)

def verifyCommittedAttention (norm : NormParams p) (commX commOut : P.Comm) (proof : CommittedAttnProof P) (tr : P.T) :
    Except Abort P.T := do
  revertIf (W.wq.length ≠ cfg.dModel * cfg.dHead ∨ W.wk.length ≠ cfg.dModel * cfg.dHead
    ∨ W.wv.length ≠ cfg.dModel * cfg.dHead ∨ W.wo.length ≠ cfg.dHead * cfg.dModel
      ∨ entry expTable.outCodes 0 ≠ 0) .reject
  let tr ← verifyCommittedRmsnorm P.toParts norm.table cfg.seq cfg.dModel norm.weight commX proof.commXn proof.pNorm tr
  let tr ← P.matmulIo.verify ⟨cfg.seq, cfg.dModel, cfg.dHead, proof.commXn, P.commit W.wq, proof.commQ⟩ proof.pQ tr
  let tr ← P.matmulIo.verify ⟨cfg.seq, cfg.dModel, cfg.dHead, proof.commXn, P.commit W.wk, proof.commK⟩ proof.pK tr
  let tr ← P.matmulIo.verify ⟨cfg.seq, cfg.dModel, cfg.dHead, proof.commXn, P.commit W.wv, proof.commV⟩ proof.pV tr
  -- the key projection is the transposed operand, under its own commitment
  let tr ← P.matmulIoBt.verify ⟨cfg.seq, cfg.dHead, cfg.seq, proof.commQ, proof.commK, proof.commS⟩ proof.pScores tr
  let tr ← verifyCommittedSoftmax P.toParts expTable recipTable cfg.seq proof.commS proof.commP proof.pSoftmax tr
  let tr ← P.matmulIo.verify ⟨cfg.seq, cfg.seq, cfg.dHead, proof.commP, proof.commV, proof.commCtx⟩ proof.pCtx tr
  let tr ← P.matmulIo.verify ⟨cfg.seq, cfg.dHead, cfg.dModel, proof.commCtx, P.commit W.wo, proof.commO⟩ proof.pO tr
  P.committedAdd.verify ⟨cfg.seq * cfg.dModel, commX, proof.commO, commOut⟩ proof.pResid tr

end Code

/-! ## What attention computes -/

section Spec

variable (cfg : AttnConfig) (W : Weights p) (expTable recipTable : CodeTable p) (np : NormParams p)

/-- A projection of the normed input. -/
def projected (w : Table p) (x : Table p) : Table p :=
  product cfg.seq cfg.dModel cfg.dHead (normOf np.table cfg.seq cfg.dModel x np.weight) w

/-- The context of the one head. -/
def attended (x : Table p) : Table p :=
  contextOf expTable recipTable cfg.seq cfg.dHead (projected cfg np W.wq x) (projected cfg np W.wk x)
    (projected cfg np W.wv x)

/-- The output projection. -/
def attentionOut (x : Table p) : Table p :=
  product cfg.seq cfg.dHead cfg.dModel (attended cfg W expTable recipTable np x) W.wo

def attentionOf (x : Table p) : Table p := add x (attentionOut cfg W expTable recipTable np x)

/-- The sizes are powers of two, the lengths are those of the sizes, and every lookup has a code. -/
structure AttnDomain (x : Table p) : Prop where
  seq : IsPowerOfTwo cfg.seq
  dModel : IsPowerOfTwo cfg.dModel
  dHead : IsPowerOfTwo cfg.dHead
  input : x.length = cfg.seq * cfg.dModel
  weight : np.weight.length = cfg.dModel
  wq : W.wq.length = cfg.dModel * cfg.dHead
  wk : W.wk.length = cfg.dModel * cfg.dHead
  wv : W.wv.length = cfg.dModel * cfg.dHead
  wo : W.wo.length = cfg.dHead * cfg.dModel
  zero : entry expTable.outCodes 0 = 0
  codes : ∀ r < cfg.seq, np.table.InDomain (squares cfg.dModel x r)
  scores : Lookable expTable recipTable cfg.seq
    (scoresOf cfg.seq cfg.dHead (projected cfg np W.wq x) (projected cfg np W.wk x))

end Spec

variable {cfg : AttnConfig} {W : Weights p} {expTable recipTable : CodeTable p} {np : NormParams p} {x out xn : Table p}

theorem length_projected (w : Table p) : (projected cfg np w x).length = cfg.seq * cfg.dHead := length_product ..

theorem length_normOf (h : AttnDomain cfg W expTable recipTable np x) :
    (normOf np.table cfg.seq cfg.dModel x np.weight).length = cfg.seq * cfg.dModel :=
  ((isNorm_iff h.seq).mpr ⟨h.input, h.weight, h.codes, rfl⟩).lengths.2.2

theorem length_attentionOf (h : AttnDomain cfg W expTable recipTable np x) :
    (attentionOf cfg W expTable recipTable np x).length = cfg.seq * cfg.dModel := by
  rw [attentionOf, length_add (by rw [h.input, attentionOut, length_product]), h.input]

section Ideal

variable {P : AttnParts p} {committed : P.Comm → Table p}

/-! ## On tables -/

section

variable (h : P.Ideal committed)
include h

/-- **SOUND**: an accepted output is the attention of the input. -/
theorem verifyAttention_sound {proof : AttnProof P} {tr tr' : P.T}
    (hverify : verifyAttention P cfg W expTable recipTable (some np) x out proof tr = .ok tr') :
    AttnDomain cfg W expTable recipTable np x ∧ out = attentionOf cfg W expTable recipTable np x := by
  obtain ⟨-, hverify⟩ := guarded_iff.mp hverify
  obtain ⟨hlengths, hverify⟩ := guarded_iff.mp hverify
  obtain ⟨-, -, -, -, hshaped, ho, hout⟩ := not_not.mp hlengths
  obtain ⟨hzero, hverify⟩ := guarded_iff.mp hverify
  obtain ⟨normed, hnorm, hverify⟩ := bind_iff.mp hverify
  obtain ⟨tr1, hq, hverify⟩ := bind_iff.mp hverify
  obtain ⟨tr2, hk, hverify⟩ := bind_iff.mp hverify
  obtain ⟨tr3, hv, hverify⟩ := bind_iff.mp hverify
  obtain ⟨tr4, hhead, hverify⟩ := bind_iff.mp hverify
  obtain ⟨tr5, hproj, hverify⟩ := bind_iff.mp hverify
  obtain ⟨_, hresid, -⟩ := bind_iff.mp hverify
  obtain ⟨-, hseq, hdModel, hnorm⟩ := verifyNorm_sound h hnorm
  obtain ⟨hx, hw, hcodes, hxn⟩ := (isNorm_iff hseq).mp hnorm
  obtain ⟨⟨-, -, hdHead⟩, -, hwq, hq⟩ := h.matmul.sound _ _ _ _ hq
  obtain ⟨-, -, hwk, hk⟩ := h.matmul.sound _ _ _ _ hk
  obtain ⟨-, -, hwv, hv⟩ := h.matmul.sound _ _ _ _ hv
  obtain ⟨-, -, hwo, hproj⟩ := h.matmul.sound _ _ _ _ hproj
  -- every table of the proof is the one the input has
  have hq : proof.q = projected cfg np W.wq x := by
    rw [projected, ← hxn]
    exact hq
  have hk : proof.k = projected cfg np W.wk x := by
    rw [projected, ← hxn]
    exact hk
  have hv : proof.v = projected cfg np W.wv x := by
    rw [projected, ← hxn]
    exact hv
  obtain ⟨-, hlook, hctx⟩ := verifyHead_sound h hshaped hhead
  rw [hq, hk] at hlook
  rw [hq, hk, hv] at hctx
  have ho' : proof.o = product cfg.seq cfg.dHead cfg.dModel proof.ctx W.wo := hproj
  have hadd : out = add x proof.o := (checkResidual_add (hx.trans hout.symm) (ho.trans hout.symm)).mp hresid
  refine ⟨⟨hseq, hdModel, hdHead, hx, hw, hwq, hwk, hwv, hwo, not_not.mp hzero, hcodes, hlook⟩, ?_⟩
  rw [hadd, ho', hctx]
  rfl

/-- **COMPLETE**: the honest proof is accepted. -/
theorem proveAttention_complete (hx : AttnDomain cfg W expTable recipTable np x) (tr : P.T) :
    ∃ o, proveAttention P cfg W expTable recipTable (some np) x tr = .ok o
      ∧ o.1.2 = attentionOf cfg W expTable recipTable np x
      ∧ verifyAttention P cfg W expTable recipTable (some np) x (attentionOf cfg W expTable recipTable np x) o.1.1 tr
        = .ok o.2 := by
  have hxn := length_normOf hx
  have hctx : (attended cfg W expTable recipTable np x).length = cfg.seq * cfg.dHead := length_contextOf
  obtain ⟨pn, tr0, hproveN, hverifyN⟩ :=
    proveNorm_complete h cfg.normName hx.seq hx.dModel hx.input hx.weight hx.codes tr
  obtain ⟨pQ, tr1, hproveQ, hverifyQ⟩ := proveMm_complete h hx.seq hx.dModel hx.dHead hxn hx.wq tr0
  obtain ⟨pK, tr2, hproveK, hverifyK⟩ := proveMm_complete h hx.seq hx.dModel hx.dHead hxn hx.wk tr1
  obtain ⟨pV, tr3, hproveV, hverifyV⟩ := proveMm_complete h hx.seq hx.dModel hx.dHead hxn hx.wv tr2
  obtain ⟨head, hproveH, hshaped, hhead, hverifyH⟩ := proveHead_complete h hx.seq hx.dHead (length_projected W.wq)
    (length_projected W.wv) hx.scores tr3
  obtain ⟨pO, tr5, hproveO, hverifyO⟩ := proveMm_complete h hx.seq hx.dHead hx.dModel hctx hx.wo head.2
  refine ⟨((⟨head.1, cfg.seq, cfg.dModel, cfg.dHead, normOf np.table cfg.seq cfg.dModel x np.weight,
    projected cfg np W.wq x, projected cfg np W.wk x, projected cfg np W.wv x,
    attentionOut cfg W expTable recipTable np x, some pn, pQ, pK, pV, pO, []⟩,
      attentionOf cfg W expTable recipTable np x), tr5), ?_, rfl, ?_⟩
  · rw [proveAttention, guarded_of_not (not_not.mpr hx.input), guarded_of_not (not_not.mpr hx.wq),
      guarded_of_not (not_not.mpr hx.wk), guarded_of_not (not_not.mpr hx.wv),
      guarded_of_not (not_not.mpr hx.wo), guarded_of_not (not_not.mpr hx.zero), hproveN, ok_bind]
    dsimp only
    rw [hproveQ, ok_bind]
    dsimp only
    rw [hproveK, ok_bind]
    dsimp only
    rw [hproveV, ok_bind]
    dsimp only
    rw [← projected, ← projected, ← projected, hproveH, ok_bind, hhead, ← attended, hproveO, ok_bind, ← attentionOut,
      ← attentionOf]
  · rw [verifyAttention]
    refine guarded_iff.mpr ⟨not_or.mpr ⟨not_not.mpr rfl, not_or.mpr ⟨not_not.mpr rfl, not_not.mpr rfl⟩⟩, ?_⟩
    refine guarded_iff.mpr ⟨not_not.mpr ⟨hxn, length_projected W.wq, length_projected W.wk,
      length_projected W.wv, hshaped, length_product .., length_attentionOf hx⟩, ?_⟩
    refine guarded_iff.mpr ⟨not_not.mpr hx.zero, bind_iff.mpr ⟨_, hverifyN, ?_⟩⟩
    refine bind_iff.mpr ⟨tr1, hverifyQ, bind_iff.mpr ⟨tr2, hverifyK, bind_iff.mpr ⟨tr3, hverifyV, ?_⟩⟩⟩
    refine bind_iff.mpr ⟨head.2, hverifyH, bind_iff.mpr ⟨tr5, ?_, bind_iff.mpr ⟨(), ?_, ?_⟩⟩⟩
    · rw [hhead]
      exact hverifyO
    · have hlen := length_attentionOf hx
      exact (checkResidual_add (hx.input.trans hlen.symm) ((length_product ..).trans hlen.symm)).mpr rfl
    · exact guarded_iff.mpr ⟨not_not.mpr rfl, rfl⟩

/-! ## On commitments -/

theorem proveMmIo_complete {m k n : ℕ} {a b : Table p} (hm : IsPowerOfTwo m) (hk : IsPowerOfTwo k)
    (hn : IsPowerOfTwo n) (ha : a.length = m * k) (hb : b.length = k * n) (tr : P.T) :
    ∃ proof tr', proveMmIo P m k n a b tr = .ok ((product m k n a b, proof), tr')
      ∧ P.matmulIo.verify ⟨m, k, n, P.commit a, P.commit b, P.commit (product m k n a b)⟩ proof tr = .ok tr' := by
  obtain ⟨out, hprove, hverify⟩ := h.matmulIo.complete ⟨m, k, n, a, b, product m k n a b⟩ tr ⟨⟨hm, hk, hn⟩, ha, hb, rfl⟩
  refine ⟨out.1, out.2, ?_, hverify⟩
  rw [proveMmIo, instance_new ha hb, ok_bind, hprove, ok_bind]

/-- What an accepted product with a public matrix says. -/
theorem matmulIo_weight {m k n : ℕ} {commA commC : P.Comm} {w : Table p} {proof : P.matmulIo.Proof}
    {tr tr' : P.T} (hw : w.length = k * n)
    (hverify : P.matmulIo.verify ⟨m, k, n, commA, P.commit w, commC⟩ proof tr = .ok tr') :
    (IsPowerOfTwo m ∧ IsPowerOfTwo k ∧ IsPowerOfTwo n) ∧ committed commC = product m k n (committed commA) w := by
  obtain ⟨⟨hm, hk, hn⟩, -, -, hc⟩ := h.matmulIo.sound _ _ _ _ hverify
  have hc : committed commC = product m k n (committed commA) (committed (P.commit w)) := hc
  rw [h.parts.commits w (by rw [hw]; exact pow2_mul hk hn)] at hc
  exact ⟨⟨hm, hk, hn⟩, hc⟩

/-- **SOUND**: what is behind an accepted output commitment is the attention of what is behind the input's. -/
theorem verifyCommittedAttention_sound {commX commOut : P.Comm} {proof : CommittedAttnProof P} {tr tr' : P.T}
    (hverify : verifyCommittedAttention P cfg W expTable recipTable np commX commOut proof tr = .ok tr') :
    AttnDomain cfg W expTable recipTable np (committed commX)
      ∧ committed commOut = attentionOf cfg W expTable recipTable np (committed commX) := by
  obtain ⟨hlengths, hverify⟩ := guarded_iff.mp hverify
  simp only [not_or, not_not, ne_eq] at hlengths
  obtain ⟨hwq, hwk, hwv, hwo, hzero⟩ := hlengths
  obtain ⟨tr1, hnorm, hverify⟩ := bind_iff.mp hverify
  obtain ⟨tr2, hq, hverify⟩ := bind_iff.mp hverify
  obtain ⟨tr3, hk, hverify⟩ := bind_iff.mp hverify
  obtain ⟨tr4, hv, hverify⟩ := bind_iff.mp hverify
  obtain ⟨tr5, hscores, hverify⟩ := bind_iff.mp hverify
  obtain ⟨tr6, hsoftmax, hverify⟩ := bind_iff.mp hverify
  obtain ⟨tr7, hctx, hverify⟩ := bind_iff.mp hverify
  obtain ⟨tr8, ho, hresid⟩ := bind_iff.mp hverify
  obtain ⟨hseq, hdModel, hnorm⟩ := verifyCommittedRmsnorm_sound h.parts hnorm
  obtain ⟨hx, hw, hcodes, hxn⟩ := (isNorm_iff hseq).mp hnorm
  obtain ⟨⟨-, -, hdHead⟩, hq⟩ := matmulIo_weight h hwq hq
  obtain ⟨-, hk⟩ := matmulIo_weight h hwk hk
  obtain ⟨-, hv⟩ := matmulIo_weight h hwv hv
  rw [hxn] at hq hk hv
  -- the transposed key opening is the product with the transposed keys
  obtain ⟨-, -, -, hscores⟩ := h.matmulIoBt.sound _ _ _ _ hscores
  have hscores : committed proof.commS = scoresOf cfg.seq cfg.dHead (projected cfg np W.wq (committed commX))
      (projected cfg np W.wk (committed commX)) := by
    rw [scoresOf, product_transposeRm, projected, projected, ← hq, ← hk]
    exact hscores
  obtain ⟨-, -, exps, hsoftmax⟩ := verifyCommittedSoftmax_sound h.parts hsoftmax
  obtain ⟨hlook, hprobs⟩ := hsoftmax.lookable hseq hzero
  rw [hscores] at hlook hprobs
  obtain ⟨-, -, -, hctx⟩ := h.matmulIo.sound _ _ _ _ hctx
  have hctx : committed proof.commCtx
      = product cfg.seq cfg.seq cfg.dHead (committed proof.commP) (committed proof.commV) := hctx
  obtain ⟨-, ho⟩ := matmulIo_weight h hwo ho
  obtain ⟨-, -, -, hresid⟩ := h.committedAdd.sound _ _ _ _ hresid
  have hresid : committed commOut = add (committed commX) (committed proof.commO) := hresid
  refine ⟨⟨hseq, hdModel, hdHead, hx, hw, hwq, hwk, hwv, hwo, hzero, hcodes, hlook⟩, ?_⟩
  rw [hresid, ho, hctx, hprobs, hv]
  rfl

/-- **COMPLETE**: the honest committed proof is accepted. -/
theorem proveCommittedAttention_complete (hx : AttnDomain cfg W expTable recipTable np x)
    (tr : P.T) : ∃ o, proveCommittedAttention P cfg W expTable recipTable np x tr = .ok o ∧ o.1.2.1 = P.commit x
      ∧ o.1.2.2.1 = P.commit (attentionOf cfg W expTable recipTable np x)
      ∧ o.1.2.2.2 = attentionOf cfg W expTable recipTable np x
      ∧ verifyCommittedAttention P cfg W expTable recipTable np o.1.2.1 o.1.2.2.1 o.1.1 tr = .ok o.2 := by
  have hxn := length_normOf hx
  have hq : (projected cfg np W.wq x).length = cfg.seq * cfg.dHead := length_projected W.wq
  have hkt : (transposeRm (projected cfg np W.wk x) cfg.seq cfg.dHead).length = cfg.dHead * cfg.seq := by
    rw [length_transposeRm, Nat.mul_comm]
  have hprobs : (probsOf expTable recipTable cfg.seq (scoresOf cfg.seq cfg.dHead (projected cfg np W.wq x)
      (projected cfg np W.wk x))).length = cfg.seq * cfg.seq := length_probsOf
  have hctx : (attended cfg W expTable recipTable np x).length = cfg.seq * cfg.dHead := length_contextOf
  have hout : (attentionOut cfg W expTable recipTable np x).length = cfg.seq * cfg.dModel := length_product ..
  -- stage by stage, each from the transcript the last one left
  obtain ⟨normed, hproveN, hcommX, hcommXn, hxnEq, hverifyN⟩ :=
    proveCommittedRmsnorm_complete h.parts hx.seq hx.dModel hx.input hx.weight hx.codes tr
  rw [hcommX, hcommXn, hxnEq] at hverifyN
  obtain ⟨pQ, tr1, hproveQ, hverifyQ⟩ := proveMmIo_complete h hx.seq hx.dModel hx.dHead hxn hx.wq normed.2
  obtain ⟨pK, tr2, hproveK, hverifyK⟩ := proveMmIo_complete h hx.seq hx.dModel hx.dHead hxn hx.wk tr1
  obtain ⟨pV, tr3, hproveV, hverifyV⟩ := proveMmIo_complete h hx.seq hx.dModel hx.dHead hxn hx.wv tr2
  obtain ⟨scores, hproveS, hverifyS⟩ := h.matmulIoBt.complete ⟨cfg.seq, cfg.dHead, cfg.seq, projected cfg np W.wq x,
    projected cfg np W.wk x, scoresOf cfg.seq cfg.dHead (projected cfg np W.wq x) (projected cfg np W.wk x)⟩ tr3
    ⟨⟨hx.seq, hx.dHead, hx.seq⟩, hq, length_projected W.wk, product_transposeRm ..⟩
  obtain ⟨softmax, hproveP, hcommS, hcommP, hprobsEq, hverifyP⟩ :=
    proveCommittedSoftmax_complete h.parts hx.seq hx.zero hx.scores scores.2
  rw [hcommS, hcommP, hprobsEq] at hverifyP
  obtain ⟨pCtx, tr6, hproveC, hverifyC⟩ :=
    proveMmIo_complete h hx.seq hx.seq hx.dHead hprobs (length_projected W.wv) softmax.2
  obtain ⟨pO, tr7, hproveO, hverifyO⟩ := proveMmIo_complete h hx.seq hx.dHead hx.dModel hctx hx.wo tr6
  obtain ⟨resid, hproveR, hverifyR⟩ := h.committedAdd.complete ⟨cfg.seq * cfg.dModel, x,
    attentionOut cfg W expTable recipTable np x, attentionOf cfg W expTable recipTable np x⟩ tr7
    ⟨pow2_mul hx.seq hx.dModel, hx.input, hout, rfl⟩
  refine ⟨((⟨P.commit (normOf np.table cfg.seq cfg.dModel x np.weight), P.commit (projected cfg np W.wq x),
    P.commit (projected cfg np W.wk x), P.commit (projected cfg np W.wv x),
    P.commit (scoresOf cfg.seq cfg.dHead (projected cfg np W.wq x) (projected cfg np W.wk x)),
    P.commit (probsOf expTable recipTable cfg.seq (scoresOf cfg.seq cfg.dHead (projected cfg np W.wq x)
      (projected cfg np W.wk x))), P.commit (attended cfg W expTable recipTable np x),
    P.commit (attentionOut cfg W expTable recipTable np x), normed.1.proof, pQ, pK, pV, scores.1,
      softmax.1.proof, pCtx, pO,
    resid.1⟩, P.commit x, P.commit (attentionOf cfg W expTable recipTable np x),
    attentionOf cfg W expTable recipTable np x), resid.2), ?_, rfl, rfl, rfl, ?_⟩
  · rw [proveCommittedAttention, guarded_of_not (not_not.mpr hx.input), guarded_of_not
      (not_not.mpr hx.wq), guarded_of_not (not_not.mpr hx.wk), guarded_of_not (not_not.mpr hx.wv),
      guarded_of_not (not_not.mpr hx.wo), guarded_of_not (not_not.mpr hx.zero), hproveN, ok_bind]
    dsimp only
    rw [hxnEq, hproveQ, ok_bind]
    dsimp only
    rw [hproveK, ok_bind]
    dsimp only
    rw [hproveV, ok_bind]
    dsimp only
    rw [← projected, ← projected, ← projected, instance_new hq hkt, ok_bind]
    dsimp only
    rw [← scoresOf, hproveS, ok_bind, hproveP, ok_bind, hprobsEq, hproveC, ok_bind]
    dsimp only
    rw [← contextOf, ← attended, hproveO, ok_bind]
    dsimp only
    rw [← attentionOut, ← attentionOf, hproveR, ok_bind, hcommX, hcommXn, hxnEq, hcommP, hprobsEq]
  · rw [verifyCommittedAttention]
    refine guarded_iff.mpr ⟨?_, bind_iff.mpr ⟨normed.2, hverifyN, ?_⟩⟩
    · simp only [not_or, not_not, ne_eq]
      exact ⟨hx.wq, hx.wk, hx.wv, hx.wo, hx.zero⟩
    refine bind_iff.mpr ⟨tr1, hverifyQ, bind_iff.mpr ⟨tr2, hverifyK, bind_iff.mpr ⟨tr3, hverifyV, ?_⟩⟩⟩
    refine bind_iff.mpr ⟨scores.2, hverifyS, bind_iff.mpr ⟨softmax.2, hverifyP, ?_⟩⟩
    exact bind_iff.mpr ⟨tr6, hverifyC, bind_iff.mpr ⟨tr7, hverifyO, hverifyR⟩⟩

end

end Ideal

end Attention
