import Chit402.AttentionProofs
import Chit402.HeadLayoutProofs

/-! # Multi-head attention with grouped keys

    `prove_mha` and `verify_mha`: one norm and one set of projections, the
    rotation of every query and key head, the head argument for each query
    head with the keys and values of its group, the heads side by side, the
    output projection and the residual. -/

namespace MultiHead

open ExceptFlow Mle Tensor SubArgument MatMul MatMulSound CausalSoftmax RmsNorm AttentionHead Attention HeadLayout
  Finset
open Lookup (IsPowerOfTwo)

variable {p : ℕ} [Fact p.Prime]

/-! ## The code -/

structure MhaConfig where
  seq : ℕ
  dModel : ℕ
  nHeads : ℕ
  nKvHeads : ℕ
  dHead : ℕ
  normName : String

namespace MhaConfig

variable (cfg : MhaConfig)

def qWidth : ℕ := cfg.nHeads * cfg.dHead

def kvWidth : ℕ := cfg.nKvHeads * cfg.dHead

/-- The group of a query head. -/
def kvOf (head : ℕ) : ℕ := head / (cfg.nHeads / cfg.nKvHeads)

end MhaConfig

structure MhaProof (P : AttnParts p) where
  xn : Table p
  q : Table p
  k : Table p
  v : Table p
  qRot : Table p
  kRot : Table p
  concat : Table p
  o : Table p
  pNorm : Option (RmsNormProof P.toParts)
  pQ : P.matmul.Proof
  pK : P.matmul.Proof
  pV : P.matmul.Proof
  heads : List (HeadProof P)
  pO : P.matmul.Proof
  obligations : List LookupObligation

section Code

variable (P : AttnParts p) (cfg : MhaConfig) (W : Weights p) (expTable recipTable : CodeTable p)

def sliceQ (mat : Table p) (h : ℕ) : Table p := sliceHead mat cfg.seq cfg.qWidth cfg.dHead h

def sliceKv (mat : Table p) (h : ℕ) : Table p := sliceHead mat cfg.seq cfg.kvWidth cfg.dHead (cfg.kvOf h)

/-- The heads of the prover, `n` of them from `h` on. -/
def proveHeads (qRot kRot v : Table p) :
    ℕ → ℕ → Table p → P.T → Except Abort ((Table p × List (HeadProof P)) × P.T)
  | 0, _, concat, tr => .ok ((concat, []), tr)
  | n + 1, h, concat, tr => do
    let head ← proveHead P expTable recipTable cfg.seq cfg.dHead (sliceQ cfg qRot h) (sliceKv cfg kRot h)
      (sliceKv cfg v h) tr
    let rest ← proveHeads qRot kRot v n (h + 1) (putHead concat cfg.seq cfg.qWidth cfg.dHead h head.1.ctx) head.2
    .ok ((rest.1.1, head.1 :: rest.1.2), rest.2)

/-- The rotation of queries and keys, when there is one. -/
def proveRope (rope : Option (RopeParams (ZMod p))) (q k : Table p) : Except Abort (Table p × Table p) :=
  match rope with
  | some rp => do
    let qRot ← ropeAllHeads rp q cfg.seq cfg.nHeads cfg.dHead
    let kRot ← ropeAllHeads rp k cfg.seq cfg.nKvHeads cfg.dHead
    .ok (qRot, kRot)
  | none => .ok (q, k)

def proveMha (norm : Option (NormParams p)) (rope : Option (RopeParams (ZMod p))) (x : Table p) (tr : P.T) :
    Except Abort ((MhaProof P × Table p) × P.T) := do
  revertIf (x.length ≠ cfg.seq * cfg.dModel) .panic
  revertIf (W.wq.length ≠ cfg.dModel * cfg.qWidth) .panic
  revertIf (W.wk.length ≠ cfg.dModel * cfg.kvWidth) .panic
  revertIf (W.wv.length ≠ cfg.dModel * cfg.kvWidth) .panic
  revertIf (W.wo.length ≠ cfg.qWidth * cfg.dModel) .panic
  revertIf (¬ cfg.nKvHeads ∣ cfg.nHeads) .panic
  revertIf (entry expTable.outCodes 0 ≠ 0) .panic
  let normed ← proveNorm P cfg.normName cfg.seq cfg.dModel norm x tr
  let xn := normed.1.1
  let q ← proveMm P cfg.seq cfg.dModel cfg.qWidth xn W.wq normed.2
  let k ← proveMm P cfg.seq cfg.dModel cfg.kvWidth xn W.wk q.2
  let v ← proveMm P cfg.seq cfg.dModel cfg.kvWidth xn W.wv k.2
  let rot ← proveRope cfg rope q.1.1 k.1.1
  let heads ← proveHeads P cfg expTable recipTable rot.1 rot.2 v.1.1 cfg.nHeads 0
    (List.replicate (cfg.seq * cfg.qWidth) 0) v.2
  let o ← proveMm P cfg.seq cfg.qWidth cfg.dModel heads.1.1 W.wo heads.2
  .ok (({
    xn
    q := q.1.1
    k := k.1.1
    v := v.1.1
    qRot := rot.1
    kRot := rot.2
    concat := heads.1.1
    o := o.1.1
    pNorm := normed.1.2.1
    pQ := q.1.2
    pK := k.1.2
    pV := v.1.2
    heads := heads.1.2
    pO := o.1.2
    obligations := normed.1.2.2 }, add x o.1.1), o.2)

/-- The rotation is recomputed, or must be the identity. -/
def RopeChecked (rope : Option (RopeParams (ZMod p))) (q k qRot kRot : Table p) : Prop :=
  match rope with
  | some rp => VerifyRopeAllHeads rp q qRot cfg.seq cfg.nHeads cfg.dHead
      ∧ VerifyRopeAllHeads rp k kRot cfg.seq cfg.nKvHeads cfg.dHead
  | none => qRot = q ∧ kRot = k

instance (rope : Option (RopeParams (ZMod p))) (q k qRot kRot : Table p) :
    Decidable (RopeChecked cfg rope q k qRot kRot) :=
  match rope with
  | some _ => inferInstanceAs (Decidable (_ ∧ _))
  | none => inferInstanceAs (Decidable (_ ∧ _))

/-- The heads of the proof, the first of them head `h`. -/
def verifyHeads (qRot kRot v : Table p) : List (HeadProof P) → ℕ → Table p → P.T → Except Abort (Table p × P.T)
  | [], _, concat, tr => .ok (concat, tr)
  | hp :: rest, h, concat, tr => do
    revertIf (¬ hp.Shaped cfg.seq cfg.dHead) .reject
    let tr ← verifyHead P expTable recipTable cfg.seq cfg.dHead (sliceQ cfg qRot h)
      (sliceKv cfg kRot h) (sliceKv cfg v h)
      hp tr
    verifyHeads qRot kRot v rest (h + 1) (putHead concat cfg.seq cfg.qWidth cfg.dHead h hp.ctx) tr

def verifyMha (norm : Option (NormParams p)) (rope : Option (RopeParams (ZMod p))) (x out : Table p)
    (proof : MhaProof P)
    (tr : P.T) : Except Abort P.T := do
  revertIf (cfg.nKvHeads = 0 ∨ ¬ cfg.nKvHeads ∣ cfg.nHeads) .reject
  revertIf (¬ (proof.xn.length = cfg.seq * cfg.dModel ∧ proof.q.length = cfg.seq * cfg.qWidth
    ∧ proof.k.length = cfg.seq * cfg.kvWidth ∧ proof.v.length = cfg.seq * cfg.kvWidth
    ∧ proof.qRot.length = cfg.seq * cfg.qWidth ∧ proof.kRot.length = cfg.seq * cfg.kvWidth
    ∧ proof.concat.length = cfg.seq * cfg.qWidth ∧ proof.o.length = cfg.seq * cfg.dModel
    ∧ out.length = cfg.seq * cfg.dModel ∧ proof.heads.length = cfg.nHeads)) .reject
  revertIf (entry expTable.outCodes 0 ≠ 0) .reject
  let normed ← verifyNorm P cfg.normName cfg.seq cfg.dModel norm x proof.xn proof.pNorm tr
  let tr ← P.matmul.verify ⟨cfg.seq, cfg.dModel, cfg.qWidth, proof.xn, W.wq, proof.q⟩ proof.pQ normed.2
  let tr ← P.matmul.verify ⟨cfg.seq, cfg.dModel, cfg.kvWidth, proof.xn, W.wk, proof.k⟩ proof.pK tr
  let tr ← P.matmul.verify ⟨cfg.seq, cfg.dModel, cfg.kvWidth, proof.xn, W.wv, proof.v⟩ proof.pV tr
  revertIf (¬ RopeChecked cfg rope proof.q proof.k proof.qRot proof.kRot) .reject
  let heads ← verifyHeads P cfg expTable recipTable proof.qRot proof.kRot proof.v proof.heads 0
    (List.replicate (cfg.seq * cfg.qWidth) 0) tr
  -- the heads side by side are the verifier's own
  revertIf (heads.1 ≠ proof.concat) .reject
  let tr ← P.matmul.verify ⟨cfg.seq, cfg.qWidth, cfg.dModel, proof.concat, W.wo, proof.o⟩ proof.pO heads.2
  checkResidual x proof.o out
  revertIf (proof.obligations ≠ normed.1) .reject
  .ok tr

end Code

/-! ## What multi-head attention computes -/

section Spec

variable (cfg : MhaConfig) (W : Weights p) (expTable recipTable : CodeTable p) (np : NormParams p)
  (rope : Option (RopeParams (ZMod p)))

/-- A head, rotated when there is a rotation. -/
def turned (x : Table p) : Table p :=
  match rope with
  | some rp => rotate rp cfg.seq cfg.dHead x
  | none => x

def headScores (q k : Table p) (h : ℕ) : Table p :=
  scoresOf cfg.seq cfg.dHead (turned cfg rope (sliceQ cfg q h)) (turned cfg rope (sliceKv cfg k h))

def headContext (q k v : Table p) (h : ℕ) : Table p :=
  contextOf expTable recipTable cfg.seq cfg.dHead (turned cfg rope (sliceQ cfg q h)) (turned cfg rope (sliceKv cfg k h))
    (sliceKv cfg v h)

/-- The contexts side by side. -/
def concatOf (q k v : Table p) : Table p :=
  putHeads cfg.seq cfg.qWidth cfg.dHead (headContext cfg expTable recipTable rope q k v) cfg.nHeads 0
    (List.replicate (cfg.seq * cfg.qWidth) 0)

/-- A projection of the normed input to `width` columns. -/
def projection (width : ℕ) (w x : Table p) : Table p :=
  product cfg.seq cfg.dModel width (normOf np.table cfg.seq cfg.dModel x np.weight) w

def contexts (x : Table p) : Table p :=
  concatOf cfg expTable recipTable rope (projection cfg np cfg.qWidth W.wq x) (projection cfg np cfg.kvWidth W.wk x)
    (projection cfg np cfg.kvWidth W.wv x)

/-- The output projection of the contexts. -/
def mhaOut (x : Table p) : Table p :=
  product cfg.seq cfg.qWidth cfg.dModel (contexts cfg W expTable recipTable np rope x) W.wo

def mhaOf (x : Table p) : Table p := add x (mhaOut cfg W expTable recipTable np rope x)

/-- The sizes are powers of two, the lengths are those of the sizes, and every lookup has a code. -/
structure MhaDomain (x : Table p) : Prop where
  seq : IsPowerOfTwo cfg.seq
  dModel : IsPowerOfTwo cfg.dModel
  dHead : IsPowerOfTwo cfg.dHead
  qWidth : IsPowerOfTwo cfg.qWidth
  kvWidth : IsPowerOfTwo cfg.kvWidth
  groups : cfg.nKvHeads ≠ 0 ∧ cfg.nKvHeads ∣ cfg.nHeads
  input : x.length = cfg.seq * cfg.dModel
  weight : np.weight.length = cfg.dModel
  wq : W.wq.length = cfg.dModel * cfg.qWidth
  wk : W.wk.length = cfg.dModel * cfg.kvWidth
  wv : W.wv.length = cfg.dModel * cfg.kvWidth
  wo : W.wo.length = cfg.qWidth * cfg.dModel
  rotation : ∀ rp ∈ rope, rp.Shaped cfg.seq cfg.dHead
  zero : entry expTable.outCodes 0 = 0
  codes : ∀ r < cfg.seq, np.table.InDomain (squares cfg.dModel x r)
  scores : ∀ h < cfg.nHeads, Lookable expTable recipTable cfg.seq
    (headScores cfg rope (projection cfg np cfg.qWidth W.wq x) (projection cfg np cfg.kvWidth W.wk x) h)

end Spec

variable {cfg : MhaConfig} {W : Weights p} {expTable recipTable : CodeTable p} {np : NormParams p}
  {rope : Option (RopeParams (ZMod p))} {x out q k v qRot kRot concat : Table p} {h n : ℕ}

theorem length_projection (width : ℕ) (w : Table p) : (projection cfg np width w x).length = cfg.seq * width :=
  length_product ..

theorem length_headContext : (headContext cfg expTable recipTable rope q k v h).length = cfg.seq * cfg.dHead :=
  length_contextOf

theorem length_zeros : (List.replicate (cfg.seq * cfg.qWidth) (0 : ZMod p)).length = cfg.seq * cfg.qWidth :=
  List.length_replicate

theorem length_concatOf : (concatOf cfg expTable recipTable rope q k v).length = cfg.seq * cfg.qWidth :=
  length_putHeads.trans length_zeros

theorem nHeads_pos (hwidth : IsPowerOfTwo cfg.qWidth) : 0 < cfg.nHeads := by
  refine Nat.pos_of_ne_zero fun hzero => ?_
  rw [MhaConfig.qWidth, hzero, Nat.zero_mul] at hwidth
  exact absurd hwidth (by decide)

theorem kvOf_lt (hgroups : cfg.nKvHeads ≠ 0 ∧ cfg.nKvHeads ∣ cfg.nHeads) (hh : h < cfg.nHeads) :
    cfg.kvOf h < cfg.nKvHeads := by
  refine Nat.div_lt_of_lt_mul ?_
  rw [Nat.div_mul_cancel hgroups.2]
  exact hh

/-! ## The rotation -/

theorem RopeChecked.turned (hrope : RopeChecked cfg rope q k qRot kRot)
    (hgroups : cfg.nKvHeads ≠ 0 ∧ cfg.nKvHeads ∣ cfg.nHeads) (hh : h < cfg.nHeads) :
    sliceQ cfg qRot h = turned cfg rope (sliceQ cfg q h) ∧ sliceKv cfg kRot h = turned cfg rope (sliceKv cfg k h) := by
  cases rope with
  | none =>
    obtain ⟨rfl, rfl⟩ := hrope
    exact ⟨rfl, rfl⟩
  | some rp =>
    obtain ⟨-, -, -, hq⟩ := hrope.1 h hh
    obtain ⟨-, -, -, hk⟩ := hrope.2 _ (kvOf_lt hgroups hh)
    exact ⟨hq, hk⟩

theorem RopeChecked.shaped (hrope : RopeChecked cfg rope q k qRot kRot) (hheads : 0 < cfg.nHeads) :
    ∀ rp ∈ rope, rp.Shaped cfg.seq cfg.dHead := by
  rintro rp hrp
  rw [Option.mem_def.mp hrp] at hrope
  exact (hrope.1 0 hheads).1

theorem proveRope_complete (hrope : ∀ rp ∈ rope, rp.Shaped cfg.seq cfg.dHead) (hq : q.length = cfg.seq * cfg.qWidth)
    (hk : k.length = cfg.seq * cfg.kvWidth) :
    ∃ qRot kRot, proveRope cfg rope q k = .ok (qRot, kRot) ∧ qRot.length = cfg.seq * cfg.qWidth
      ∧ kRot.length = cfg.seq * cfg.kvWidth ∧ RopeChecked cfg rope q k qRot kRot := by
  cases rope with
  | none => exact ⟨q, k, rfl, hq, hk, rfl, rfl⟩
  | some rp =>
    obtain ⟨qRot, hproveQ, hqRot, hverifyQ⟩ := ropeAllHeads_complete (hrope rp rfl) hq
    obtain ⟨kRot, hproveK, hkRot, hverifyK⟩ := ropeAllHeads_complete (hrope rp rfl) hk
    refine ⟨qRot, kRot, ?_, hqRot, hkRot, hverifyQ, hverifyK⟩
    show (ropeAllHeads rp q cfg.seq cfg.nHeads cfg.dHead >>= _) = _
    rw [hproveQ, ok_bind, hproveK, ok_bind]

section Ideal

variable {P : AttnParts p} {committed : P.Comm → Table p}

/-! ## The heads -/

/-- By induction on the heads of the proof. -/
theorem verifyHeads_sound (hP : P.Ideal committed) {heads : List (HeadProof P)} {out : Table p × P.T} {tr : P.T}
    (hverify : verifyHeads P cfg expTable recipTable qRot kRot v heads h concat tr = .ok out) :
    (∀ i < heads.length, (IsPowerOfTwo cfg.seq ∧ IsPowerOfTwo cfg.dHead) ∧ Lookable expTable recipTable cfg.seq
        (scoresOf cfg.seq cfg.dHead (sliceQ cfg qRot (h + i)) (sliceKv cfg kRot (h + i))))
      ∧ out.1 = putHeads cfg.seq cfg.qWidth cfg.dHead (fun h => contextOf expTable recipTable cfg.seq cfg.dHead
        (sliceQ cfg qRot h) (sliceKv cfg kRot h) (sliceKv cfg v h)) heads.length h concat := by
  induction heads generalizing h concat tr with
  | nil =>
    cases hverify
    exact ⟨fun i hi => absurd hi (Nat.not_lt_zero i), rfl⟩
  | cons hp rest ih =>
    obtain ⟨hshaped, hverify⟩ := guarded_iff.mp hverify
    obtain ⟨tr1, hhead, hverify⟩ := bind_iff.mp hverify
    obtain ⟨hsizes, hlook, hctx⟩ := verifyHead_sound hP (not_not.mp hshaped) hhead
    obtain ⟨hrest, hout⟩ := ih hverify
    constructor
    · intro i hi
      cases i with
      | zero => exact ⟨hsizes, hlook⟩
      | succ i =>
        rw [← Nat.succ_add_eq_add_succ]
        exact hrest i (Nat.lt_of_succ_lt_succ hi)
    · rw [hout, hctx]
      rfl

/-- By induction on the heads that are left. -/
theorem proveHeads_complete (hP : P.Ideal committed) (hseq : IsPowerOfTwo cfg.seq) (hdHead : IsPowerOfTwo cfg.dHead)
    (hlook : ∀ i < n, Lookable expTable recipTable cfg.seq
      (scoresOf cfg.seq cfg.dHead (sliceQ cfg qRot (h + i)) (sliceKv cfg kRot (h + i)))) (concat : Table p) (tr : P.T) :
    ∃ heads tr', proveHeads P cfg expTable recipTable qRot kRot v n h concat tr
        = .ok ((putHeads cfg.seq cfg.qWidth cfg.dHead (fun h => contextOf expTable recipTable cfg.seq cfg.dHead
          (sliceQ cfg qRot h) (sliceKv cfg kRot h) (sliceKv cfg v h)) n h concat, heads), tr') ∧ heads.length = n
      ∧ verifyHeads P cfg expTable recipTable qRot kRot v heads h concat tr
        = .ok (putHeads cfg.seq cfg.qWidth cfg.dHead (fun h => contextOf expTable recipTable cfg.seq cfg.dHead
          (sliceQ cfg qRot h) (sliceKv cfg kRot h) (sliceKv cfg v h)) n h concat, tr') := by
  induction n generalizing h concat tr with
  | zero => exact ⟨[], tr, rfl, rfl, rfl⟩
  | succ n ih =>
    have hq : (sliceQ cfg qRot h).length = cfg.seq * cfg.dHead := length_sliceHead
    have hv : (sliceKv cfg v h).length = cfg.seq * cfg.dHead := length_sliceHead
    obtain ⟨head, hprove, hshaped, hctx, hverify⟩ :=
      proveHead_complete hP hseq hdHead hq hv (hlook 0 (Nat.succ_pos n)) tr
    rw [Nat.add_zero] at hprove hctx hverify
    have hrest : ∀ i < n, Lookable expTable recipTable cfg.seq
        (scoresOf cfg.seq cfg.dHead (sliceQ cfg qRot (h + 1 + i)) (sliceKv cfg kRot (h + 1 + i))) := by
      intro i hi
      rw [Nat.succ_add_eq_add_succ]
      exact hlook (i + 1) (Nat.succ_lt_succ hi)
    obtain ⟨heads, tr', hproveRest, hlen, hverifyRest⟩ :=
      ih hrest (putHead concat cfg.seq cfg.qWidth cfg.dHead h head.1.ctx) head.2
    refine ⟨head.1 :: heads, tr', ?_, by rw [List.length_cons, hlen], ?_⟩
    · rw [proveHeads, hprove, ok_bind, hproveRest, ok_bind, hctx]
      rfl
    · rw [verifyHeads]
      refine guarded_iff.mpr ⟨not_not.mpr hshaped, bind_iff.mpr ⟨head.2, hverify, ?_⟩⟩
      rw [hverifyRest, hctx]
      rfl

theorem putHeads_checked (hrope : RopeChecked cfg rope q k qRot kRot)
    (hgroups : cfg.nKvHeads ≠ 0 ∧ cfg.nKvHeads ∣ cfg.nHeads) :
    putHeads cfg.seq cfg.qWidth cfg.dHead (fun h => contextOf expTable recipTable cfg.seq cfg.dHead
      (sliceQ cfg qRot h) (sliceKv cfg kRot h) (sliceKv cfg v h)) cfg.nHeads 0 (List.replicate (cfg.seq * cfg.qWidth) 0)
      = concatOf cfg expTable recipTable rope q k v := by
  refine putHeads_congr fun i hi => ?_
  rw [Nat.zero_add]
  obtain ⟨hq, hk⟩ := hrope.turned hgroups hi
  rw [headContext, hq, hk]

/-! ## The whole -/

/-- **SOUND**: an accepted output is the multi-head attention of the input. -/
theorem verifyMha_sound (hP : P.Ideal committed) {proof : MhaProof P} {tr tr' : P.T}
    (hverify : verifyMha P cfg W expTable recipTable (some np) rope x out proof tr = .ok tr') :
    MhaDomain cfg W expTable recipTable np rope x ∧ out = mhaOf cfg W expTable recipTable np rope x := by
  obtain ⟨hgroups, hverify⟩ := guarded_iff.mp hverify
  have hgroups : cfg.nKvHeads ≠ 0 ∧ cfg.nKvHeads ∣ cfg.nHeads :=
    ⟨(not_or.mp hgroups).1, not_not.mp (not_or.mp hgroups).2⟩
  obtain ⟨hlengths, hverify⟩ := guarded_iff.mp hverify
  obtain ⟨-, -, -, -, -, -, -, ho, hout, hheadsLen⟩ := not_not.mp hlengths
  obtain ⟨hzero, hverify⟩ := guarded_iff.mp hverify
  obtain ⟨normed, hnorm, hverify⟩ := bind_iff.mp hverify
  obtain ⟨tr1, hq, hverify⟩ := bind_iff.mp hverify
  obtain ⟨tr2, hk, hverify⟩ := bind_iff.mp hverify
  obtain ⟨tr3, hv, hverify⟩ := bind_iff.mp hverify
  obtain ⟨hrope, hverify⟩ := guarded_iff.mp hverify
  have hrope := not_not.mp hrope
  obtain ⟨heads, hheads, hverify⟩ := bind_iff.mp hverify
  obtain ⟨hconcat, hverify⟩ := guarded_iff.mp hverify
  obtain ⟨tr4, hproj, hverify⟩ := bind_iff.mp hverify
  obtain ⟨_, hresid, -⟩ := bind_iff.mp hverify
  obtain ⟨-, hseq, hdModel, hnorm⟩ := verifyNorm_sound hP hnorm
  obtain ⟨hx, hw, hcodes, hxn⟩ := (isNorm_iff hseq).mp hnorm
  obtain ⟨⟨-, -, hqWidth⟩, -, hwq, hq⟩ := hP.matmul.sound _ _ _ _ hq
  obtain ⟨⟨-, -, hkvWidth⟩, -, hwk, hk⟩ := hP.matmul.sound _ _ _ _ hk
  obtain ⟨-, -, hwv, hv⟩ := hP.matmul.sound _ _ _ _ hv
  obtain ⟨-, -, hwo, hproj⟩ := hP.matmul.sound _ _ _ _ hproj
  have hq : proof.q = projection cfg np cfg.qWidth W.wq x := by
    rw [projection, ← hxn]
    exact hq
  have hk : proof.k = projection cfg np cfg.kvWidth W.wk x := by
    rw [projection, ← hxn]
    exact hk
  have hv : proof.v = projection cfg np cfg.kvWidth W.wv x := by
    rw [projection, ← hxn]
    exact hv
  obtain ⟨hlook, hheads⟩ := verifyHeads_sound hP hheads
  have hpos := nHeads_pos hqWidth
  have hdHead : IsPowerOfTwo cfg.dHead := (hlook 0 (by rw [hheadsLen]; exact hpos)).1.2
  have hscores : ∀ h < cfg.nHeads, Lookable expTable recipTable cfg.seq (headScores cfg rope proof.q proof.k h) := by
    intro h hh
    have hhead := (hlook h (by rw [hheadsLen]; exact hh)).2
    obtain ⟨hqh, hkh⟩ := hrope.turned hgroups hh
    rw [Nat.zero_add, hqh, hkh] at hhead
    exact hhead
  rw [hheadsLen, putHeads_checked hrope hgroups, not_not.mp hconcat] at hheads
  have ho' : proof.o = product cfg.seq cfg.qWidth cfg.dModel proof.concat W.wo := hproj
  have hadd : out = add x proof.o := (checkResidual_add (hx.trans hout.symm) (ho.trans hout.symm)).mp hresid
  rw [hq, hk] at hscores
  refine ⟨⟨hseq, hdModel, hdHead, hqWidth, hkvWidth, hgroups, hx, hw, hwq, hwk, hwv, hwo, hrope.shaped hpos,
    not_not.mp hzero, hcodes, hscores⟩, ?_⟩
  rw [hadd, ho', hheads, hq, hk, hv]
  rfl

/-- **COMPLETE**: the honest proof is accepted. -/
theorem proveMha_complete (hP : P.Ideal committed) (hx : MhaDomain cfg W expTable recipTable np rope x) (tr : P.T) :
    ∃ o, proveMha P cfg W expTable recipTable (some np) rope x tr = .ok o
      ∧ o.1.2 = mhaOf cfg W expTable recipTable np rope x
      ∧ verifyMha P cfg W expTable recipTable (some np) rope x (mhaOf cfg W expTable recipTable np rope x) o.1.1 tr
        = .ok o.2 := by
  have hxn : (normOf np.table cfg.seq cfg.dModel x np.weight).length = cfg.seq * cfg.dModel :=
    ((isNorm_iff hx.seq).mpr ⟨hx.input, hx.weight, hx.codes, rfl⟩).lengths.2.2
  have hqLen : (projection cfg np cfg.qWidth W.wq x).length = cfg.seq * cfg.qWidth := length_projection ..
  have hkLen : (projection cfg np cfg.kvWidth W.wk x).length = cfg.seq * cfg.kvWidth := length_projection ..
  have hout : (mhaOut cfg W expTable recipTable np rope x).length = cfg.seq * cfg.dModel := length_product ..
  have hlen : (mhaOf cfg W expTable recipTable np rope x).length = cfg.seq * cfg.dModel := by
    rw [mhaOf, length_add (by rw [hx.input, hout]), hx.input]
  obtain ⟨pn, tr0, hproveN, hverifyN⟩ :=
    proveNorm_complete hP cfg.normName hx.seq hx.dModel hx.input hx.weight hx.codes tr
  obtain ⟨pQ, tr1, hproveQ, hverifyQ⟩ := proveMm_complete hP hx.seq hx.dModel hx.qWidth hxn hx.wq tr0
  obtain ⟨pK, tr2, hproveK, hverifyK⟩ := proveMm_complete hP hx.seq hx.dModel hx.kvWidth hxn hx.wk tr1
  obtain ⟨pV, tr3, hproveV, hverifyV⟩ := proveMm_complete hP hx.seq hx.dModel hx.kvWidth hxn hx.wv tr2
  obtain ⟨qRot, kRot, hproveR, hqRot, hkRot, hrope⟩ := proveRope_complete hx.rotation hqLen hkLen
  have hlook : ∀ i < cfg.nHeads, Lookable expTable recipTable cfg.seq
      (scoresOf cfg.seq cfg.dHead (sliceQ cfg qRot (0 + i)) (sliceKv cfg kRot (0 + i))) := by
    intro i hi
    obtain ⟨hqi, hki⟩ := hrope.turned hx.groups hi
    rw [Nat.zero_add, hqi, hki]
    exact hx.scores i hi
  obtain ⟨heads, tr4, hproveH, hheadsLen, hverifyH⟩ := proveHeads_complete (v := projection cfg np cfg.kvWidth W.wv x)
    hP hx.seq hx.dHead hlook (List.replicate (cfg.seq * cfg.qWidth) 0) tr3
  rw [putHeads_checked hrope hx.groups, ← contexts] at hproveH hverifyH
  have hconcat : (contexts cfg W expTable recipTable np rope x).length = cfg.seq * cfg.qWidth := length_concatOf
  obtain ⟨pO, tr5, hproveO, hverifyO⟩ := proveMm_complete hP hx.seq hx.qWidth hx.dModel hconcat hx.wo tr4
  refine ⟨((⟨normOf np.table cfg.seq cfg.dModel x np.weight, projection cfg np cfg.qWidth W.wq x,
    projection cfg np cfg.kvWidth W.wk x, projection cfg np cfg.kvWidth W.wv x, qRot, kRot,
    contexts cfg W expTable recipTable np rope x, mhaOut cfg W expTable recipTable np rope x,
      some pn, pQ, pK, pV, heads,
    pO, []⟩, mhaOf cfg W expTable recipTable np rope x), tr5), ?_, rfl, ?_⟩
  · rw [proveMha, guarded_of_not (not_not.mpr hx.input), guarded_of_not (not_not.mpr hx.wq),
      guarded_of_not (not_not.mpr hx.wk), guarded_of_not (not_not.mpr hx.wv), guarded_of_not (not_not.mpr hx.wo),
      guarded_of_not (not_not.mpr hx.groups.2), guarded_of_not (not_not.mpr hx.zero), hproveN, ok_bind]
    dsimp only
    rw [hproveQ, ok_bind]
    dsimp only
    rw [hproveK, ok_bind]
    dsimp only
    rw [hproveV, ok_bind]
    dsimp only
    rw [← projection, ← projection, ← projection, hproveR, ok_bind]
    dsimp only
    rw [hproveH, ok_bind]
    dsimp only
    rw [hproveO, ok_bind, ← mhaOut, ← mhaOf]
  · rw [verifyMha]
    refine guarded_iff.mpr ⟨not_or.mpr ⟨hx.groups.1, not_not.mpr hx.groups.2⟩, ?_⟩
    refine guarded_iff.mpr ⟨not_not.mpr ⟨hxn, hqLen, hkLen, length_projection .., hqRot, hkRot, hconcat, hout, hlen,
      hheadsLen⟩, ?_⟩
    refine guarded_iff.mpr ⟨not_not.mpr hx.zero, bind_iff.mpr ⟨_, hverifyN, ?_⟩⟩
    refine bind_iff.mpr ⟨tr1, hverifyQ, bind_iff.mpr ⟨tr2, hverifyK, bind_iff.mpr ⟨tr3, hverifyV, ?_⟩⟩⟩
    refine guarded_iff.mpr ⟨not_not.mpr hrope, bind_iff.mpr ⟨_, hverifyH, ?_⟩⟩
    refine guarded_iff.mpr ⟨not_not.mpr rfl, bind_iff.mpr ⟨tr5, hverifyO, bind_iff.mpr ⟨(), ?_, ?_⟩⟩⟩
    · exact (checkResidual_add (hx.input.trans hlen.symm) (hout.trans hlen.symm)).mpr rfl
    · exact guarded_iff.mpr ⟨not_not.mpr rfl, rfl⟩

end Ideal

end MultiHead
