import Chit402.MhaEntriesProofs
import Chit402.SoftmaxNormProofs

/-! # The attention verifiers and the transformer block

    The three attention verifiers as stages, what each accepts, and the block:
    attention, then a feed-forward stage on its output.  The feed-forward
    sub-block is any stage; what ties the two together is the one `h`. -/

namespace TransformerBlock

open ExceptFlow Mle IdealArgument Tensor SubArgument CausalSoftmax AttentionHead Attention HeadLayout MultiHead
  MhaEntries SoftmaxNorm
open Lookup (IsPowerOfTwo)

variable {p : ℕ} [Fact p.Prime]

/-! ## The code -/

section Code

variable (P : AttnParts p) (cfg : AttnConfig) (W : Weights p) (expTable recipTable : CodeTable p)

/-- The feed-forward sub-block, on tables. -/
abbrev Ffn := Stage Abort P.T (Table p) (Table p)

structure BlockProof (ffn : Ffn P) where
  attn : AttnProof P
  h : Table p
  ffn : ffn.Proof

def proveBlock (norm : Option (NormParams p)) (ffn : Ffn P) (x : Table p) (tr : P.T) :
    Except Abort ((BlockProof P ffn × Table p) × P.T) := do
  let attn ← proveAttention P cfg W expTable recipTable norm x tr
  let out ← ffn.prove attn.1.2 attn.2
  .ok ((⟨attn.1.1, attn.1.2, out.1.1⟩, out.1.2), out.2)

def verifyBlock (norm : Option (NormParams p)) (ffn : Ffn P) (x out : Table p) (proof : BlockProof P ffn) (tr : P.T) :
    Except Abort P.T := do
  let tr ← verifyAttention P cfg W expTable recipTable norm x proof.h proof.attn tr
  ffn.verify proof.h out proof.ffn tr

/-- The feed-forward sub-block on commitments; its prover returns both of them. -/
structure CommittedFfn where
  Proof : Type
  prove : Table p → P.T → Except Abort ((Proof × P.Comm × P.Comm × Table p) × P.T)
  verify : P.Comm → P.Comm → Proof → P.T → Except Abort P.T

structure CommittedBlockProof (ffn : CommittedFfn P) where
  commH : P.Comm
  attn : CommittedAttnProof P
  ffn : ffn.Proof

def proveCommittedBlock (norm : NormParams p) (ffn : CommittedFfn P) (x : Table p) (tr : P.T) :
    Except Abort ((CommittedBlockProof P ffn × P.Comm × P.Comm × Table p) × P.T) := do
  let attn ← proveCommittedAttention P cfg W expTable recipTable norm x tr
  let out ← ffn.prove attn.1.2.2.2 attn.2
  .ok ((⟨attn.1.2.2.1, attn.1.1, out.1.1⟩, attn.1.2.1, out.1.2.2.1, out.1.2.2.2), out.2)

/-- One commitment is the attention's output and the feed-forward's input. -/
def verifyCommittedBlock (norm : NormParams p) (ffn : CommittedFfn P) (commX commOut : P.Comm)
    (proof : CommittedBlockProof P ffn) (tr : P.T) : Except Abort P.T := do
  let tr ← verifyCommittedAttention P cfg W expTable recipTable norm commX proof.commH proof.attn tr
  ffn.verify proof.commH commOut proof.ffn tr

/-! ## Stages -/

def attentionStage (np : NormParams p) : Stage Abort P.T (Table p) (Table p) where
  Proof := AttnProof P
  prove := proveAttention P cfg W expTable recipTable (some np)
  verify := verifyAttention P cfg W expTable recipTable (some np)

def committedAttentionStage (np : NormParams p) : Stage Abort P.T P.Comm (Table p) where
  Proof := CommittedAttnProof P
  prove x tr := do
    let out ← proveCommittedAttention P cfg W expTable recipTable np x tr
    .ok ((out.1.1, out.1.2.2.2), out.2)
  verify := verifyCommittedAttention P cfg W expTable recipTable np

def mhaStage (mha : MhaConfig) (np : NormParams p) (rope : Option (RopeParams (ZMod p))) :
    Stage Abort P.T (Table p) (Table p) where
  Proof := MhaProof P
  prove := proveMha P mha W expTable recipTable (some np) rope
  verify := verifyMha P mha W expTable recipTable (some np) rope

end Code

/-- **IDEAL**: sound for a function on a domain, and complete in step. -/
structure CommittedFfn.Ideal {P : AttnParts p} (ffn : CommittedFfn P) (committed : P.Comm → Table p)
    (domain : Table p → Prop) (f : Table p → Table p) : Prop where
  sound : ∀ commH commOut proof tr tr', ffn.verify commH commOut proof tr = .ok tr' →
    domain (committed commH) ∧ committed commOut = f (committed commH)
  complete : ∀ h tr, domain h → ∃ proof tr', ffn.prove h tr = .ok ((proof, P.commit h, P.commit (f h), f h), tr')
    ∧ ffn.verify (P.commit h) (P.commit (f h)) proof tr = .ok tr'

variable {P : AttnParts p} {committed : P.Comm → Table p} {cfg : AttnConfig} {mha : MhaConfig} {W : Weights p}
  {expTable recipTable : CodeTable p} {np : NormParams p} {rope : Option (RopeParams (ZMod p))} {x out : Table p}

section

variable (hP : P.Ideal committed)
include hP

theorem attentionStage_ideal : (attentionStage P cfg W expTable recipTable np).Ideal id id
    (AttnDomain cfg W expTable recipTable np) (attentionOf cfg W expTable recipTable np) := by
  constructor
  case sound =>
    intro s s' proof tr tr' hverify
    exact verifyAttention_sound hP hverify
  case complete =>
    intro a tr ha
    exact proveAttention_complete hP ha tr

theorem committedAttentionStage_ideal :
    (committedAttentionStage P cfg W expTable recipTable np).Ideal P.commit committed
      (AttnDomain cfg W expTable recipTable np) (attentionOf cfg W expTable recipTable np) := by
  constructor
  case sound =>
    intro s s' proof tr tr' hverify
    exact verifyCommittedAttention_sound hP hverify
  case complete =>
    intro a tr ha
    obtain ⟨o, hprove, hcommX, hcommOut, hout, hverify⟩ := proveCommittedAttention_complete hP ha tr
    rw [hcommX, hcommOut] at hverify
    refine ⟨((o.1.1, o.1.2.2.2), o.2), ?_, hout, hverify⟩
    show (proveCommittedAttention P cfg W expTable recipTable np a tr >>= _) = _
    rw [hprove, ok_bind]
    rfl

theorem mhaStage_ideal : (mhaStage P W expTable recipTable mha np rope).Ideal id id
    (MhaDomain mha W expTable recipTable np rope) (mhaOf mha W expTable recipTable np rope) := by
  constructor
  case sound =>
    intro s s' proof tr tr' hverify
    exact verifyMha_sound hP hverify
  case complete =>
    intro a tr ha
    exact proveMha_complete hP ha tr

/-- The input and the output of attention are behind their commitments. -/
theorem committed_attention (hx : AttnDomain cfg W expTable recipTable np x) : committed (P.commit x) = x
      ∧ committed (P.commit (attentionOf cfg W expTable recipTable np x))
        = attentionOf cfg W expTable recipTable np x := by
  have hpow : IsPowerOfTwo (cfg.seq * cfg.dModel) := pow2_mul hx.seq hx.dModel
  constructor
  · exact hP.parts.commits x (by rw [hx.input]; exact hpow)
  · exact hP.parts.commits _ (by rw [length_attentionOf hx]; exact hpow)

theorem attentionAccepts_iff (tr : P.T) : (attentionStage P cfg W expTable recipTable np).Accepts id x out tr ↔
      AttnDomain cfg W expTable recipTable np x ∧ out = attentionOf cfg W expTable recipTable np x :=
  (attentionStage_ideal hP).accepts_iff (fun _ _ => ⟨rfl, rfl⟩) tr

theorem single_accepts_iff (tr tr' : P.T) : (mhaStage P W expTable recipTable (single cfg) np none).Accepts id x out tr
      ↔ (attentionStage P cfg W expTable recipTable np).Accepts id x out tr' := by
  rw [attentionAccepts_iff hP, (mhaStage_ideal hP).accepts_iff (fun _ _ => ⟨rfl, rfl⟩), mhaDomain_single, mhaOf_single]

theorem committed_accepts_iff (tr tr' : P.T) :
    (committedAttentionStage P cfg W expTable recipTable np).Accepts committed x out tr
      ↔ (attentionStage P cfg W expTable recipTable np).Accepts id x out tr' := by
  rw [attentionAccepts_iff hP, (committedAttentionStage_ideal hP).accepts_iff (fun _ ha => committed_attention hP ha)]

end

/-! ## The block -/

variable {tr tr' : P.T}

section Block

variable {domain : Table p → Prop} {f : Table p → Table p} {ffn : Ffn P} {committedFfn : CommittedFfn P}

/-- **SEAM**: one `h` is the attention of `x` and the input of the feed-forward stage. -/
theorem verifyBlock_sound (hP : P.Ideal committed) (hffn : ffn.Ideal id id domain f) {proof : BlockProof P ffn}
    (hverify : verifyBlock P cfg W expTable recipTable (some np) ffn x out proof tr = .ok tr') :
    AttnDomain cfg W expTable recipTable np x ∧ proof.h = attentionOf cfg W expTable recipTable np x ∧ domain proof.h
      ∧ out = f proof.h := by
  obtain ⟨mid, hattn, hffnOk⟩ := bind_iff.mp hverify
  obtain ⟨hx, hh⟩ := verifyAttention_sound hP hattn
  obtain ⟨hdomain, hout⟩ := hffn.sound _ _ _ _ _ hffnOk
  exact ⟨hx, hh, hdomain, hout⟩

theorem verifyCommittedBlock_sound (hP : P.Ideal committed) (hffn : committedFfn.Ideal committed domain f)
    {commX commOut : P.Comm} {proof : CommittedBlockProof P committedFfn}
    (hverify : verifyCommittedBlock P cfg W expTable recipTable np committedFfn commX commOut proof tr = .ok tr') :
    AttnDomain cfg W expTable recipTable np (committed commX)
      ∧ committed proof.commH = attentionOf cfg W expTable recipTable np (committed commX)
      ∧ domain (committed proof.commH) ∧ committed commOut = f (committed proof.commH) := by
  obtain ⟨mid, hattn, hffnOk⟩ := bind_iff.mp hverify
  obtain ⟨hx, hh⟩ := verifyCommittedAttention_sound hP hattn
  obtain ⟨hdomain, hout⟩ := hffn.sound _ _ _ _ _ hffnOk
  exact ⟨hx, hh, hdomain, hout⟩

theorem proveBlock_complete (hP : P.Ideal committed) (hffn : ffn.Ideal id id domain f)
    (hx : AttnDomain cfg W expTable recipTable np x)
      (hh : domain (attentionOf cfg W expTable recipTable np x)) (tr : P.T) :
    ∃ o, proveBlock P cfg W expTable recipTable (some np) ffn x tr = .ok o
      ∧ verifyBlock P cfg W expTable recipTable (some np) ffn x o.1.2 o.1.1 tr = .ok o.2 := by
  obtain ⟨attn, hproveA, hattn, hverifyA⟩ := proveAttention_complete hP hx tr
  obtain ⟨out, hproveF, hout, hverifyF⟩ := hffn.complete _ attn.2 hh
  refine ⟨((⟨attn.1.1, attn.1.2, out.1.1⟩, out.1.2), out.2), ?_, bind_iff.mpr ⟨attn.2, ?_, ?_⟩⟩
  · rw [proveBlock, hproveA, ok_bind, hattn, hproveF, ok_bind]
  · rw [hattn]
    exact hverifyA
  · rw [hattn, hout]
    exact hverifyF

theorem proveCommittedBlock_complete (hP : P.Ideal committed) (hffn : committedFfn.Ideal committed domain f)
    (hx : AttnDomain cfg W expTable recipTable np x)
      (hh : domain (attentionOf cfg W expTable recipTable np x)) (tr : P.T) :
    ∃ o, proveCommittedBlock P cfg W expTable recipTable np committedFfn x tr = .ok o
      ∧ verifyCommittedBlock P cfg W expTable recipTable np committedFfn o.1.2.1 o.1.2.2.1 o.1.1 tr = .ok o.2 := by
  obtain ⟨attn, hproveA, hcommX, hcommH, hattn, hverifyA⟩ := proveCommittedAttention_complete hP hx tr
  obtain ⟨proof, tr', hproveF, hverifyF⟩ := hffn.complete _ attn.2 hh
  refine ⟨((⟨attn.1.2.2.1, attn.1.1, proof⟩, attn.1.2.1, P.commit (f (attentionOf cfg W expTable recipTable np x)),
    f (attentionOf cfg W expTable recipTable np x)), tr'), ?_, bind_iff.mpr ⟨attn.2, hverifyA, ?_⟩⟩
  · rw [proveCommittedBlock, hproveA, ok_bind, hattn, hproveF, ok_bind]
  · rw [hcommH]
    exact hverifyF

end Block

/-! ## All of it -/

/-- **EXACT**: the verifiers are sound, agree, and accept their honest provers. -/
structure Exact (P : AttnParts p) (committed : P.Comm → Table p) : Prop where
  mhaSound : ∀ mha W expTable recipTable np rope x out proof tr tr',
    verifyMha P mha W expTable recipTable (some np) rope x out proof tr = .ok tr' →
      ∃ t, IsMha mha rope W expTable recipTable np x out t
  singleHead : ∀ cfg W expTable recipTable np x out tr tr',
    (mhaStage P W expTable recipTable (single cfg) np none).Accepts id x out tr
      ↔ (attentionStage P cfg W expTable recipTable np).Accepts id x out tr'
  committedHead : ∀ cfg W expTable recipTable np x out tr tr',
    (committedAttentionStage P cfg W expTable recipTable np).Accepts committed x out tr
      ↔ (attentionStage P cfg W expTable recipTable np).Accepts id x out tr'
  blockSound : ∀ cfg W expTable recipTable np domain f (ffn : Ffn P), ffn.Ideal id id domain f → ∀ x out proof tr tr',
    verifyBlock P cfg W expTable recipTable (some np) ffn x out proof tr = .ok tr' →
      ∃ h, (attentionStage P cfg W expTable recipTable np).Accepts id x h tr ∧ domain h ∧ out = f h
  committedBlockSound : ∀ cfg W expTable recipTable np domain f (ffn : CommittedFfn P), ffn.Ideal committed domain f →
    ∀ commX commOut proof tr tr',
      verifyCommittedBlock P cfg W expTable recipTable np ffn commX commOut proof tr = .ok tr' →
        ∃ h, (attentionStage P cfg W expTable recipTable np).Accepts id (committed commX) h tr ∧ domain h
          ∧ committed commOut = f h
  mhaComplete : ∀ mha W expTable recipTable np rope x tr, MhaDomain mha W expTable recipTable np rope x →
    ∃ o, proveMha P mha W expTable recipTable (some np) rope x tr = .ok o
      ∧ verifyMha P mha W expTable recipTable (some np) rope x o.1.2 o.1.1 tr = .ok o.2
  attentionComplete : ∀ cfg W expTable recipTable np x tr, AttnDomain cfg W expTable recipTable np x →
    ∃ o, proveAttention P cfg W expTable recipTable (some np) x tr = .ok o
      ∧ verifyAttention P cfg W expTable recipTable (some np) x o.1.2 o.1.1 tr = .ok o.2
  committedComplete : ∀ cfg W expTable recipTable np x tr, AttnDomain cfg W expTable recipTable np x →
    ∃ o, proveCommittedAttention P cfg W expTable recipTable np x tr = .ok o
      ∧ committed o.1.2.1 = x ∧ committed o.1.2.2.1 = o.1.2.2.2
      ∧ verifyCommittedAttention P cfg W expTable recipTable np o.1.2.1 o.1.2.2.1 o.1.1 tr = .ok o.2
  blockComplete : ∀ cfg W expTable recipTable np domain f (ffn : Ffn P), ffn.Ideal id id domain f → ∀ x tr,
    AttnDomain cfg W expTable recipTable np x → domain (attentionOf cfg W expTable recipTable np x) →
      ∃ o, proveBlock P cfg W expTable recipTable (some np) ffn x tr = .ok o
        ∧ verifyBlock P cfg W expTable recipTable (some np) ffn x o.1.2 o.1.1 tr = .ok o.2
  committedBlockComplete : ∀ cfg W expTable recipTable np domain f (ffn : CommittedFfn P),
    ffn.Ideal committed domain f →
    ∀ x tr, AttnDomain cfg W expTable recipTable np x → domain (attentionOf cfg W expTable recipTable np x) →
      ∃ o, proveCommittedBlock P cfg W expTable recipTable np ffn x tr = .ok o
        ∧ verifyCommittedBlock P cfg W expTable recipTable np ffn o.1.2.1 o.1.2.2.1 o.1.1 tr = .ok o.2

theorem attention_exact (hP : P.Ideal committed) : Exact P committed := by
  constructor
  case mhaSound =>
    intro mha W expTable recipTable np rope x out proof tr tr' hverify
    obtain ⟨hx, rfl⟩ := verifyMha_sound hP hverify
    exact ⟨_, mhaOf_isMha hx⟩
  case singleHead =>
    intro cfg W expTable recipTable np x out tr tr'
    exact single_accepts_iff hP tr tr'
  case committedHead =>
    intro cfg W expTable recipTable np x out tr tr'
    exact committed_accepts_iff hP tr tr'
  case blockSound =>
    intro cfg W expTable recipTable np domain f ffn hffn x out proof tr tr' hverify
    obtain ⟨hx, hh, hdomain, hout⟩ := verifyBlock_sound hP hffn hverify
    exact ⟨proof.h, (attentionAccepts_iff hP tr).mpr ⟨hx, hh⟩, hdomain, hout⟩
  case committedBlockSound =>
    intro cfg W expTable recipTable np domain f ffn hffn commX commOut proof tr tr' hverify
    obtain ⟨hx, hh, hdomain, hout⟩ := verifyCommittedBlock_sound hP hffn hverify
    exact ⟨committed proof.commH, (attentionAccepts_iff hP tr).mpr ⟨hx, hh⟩, hdomain, hout⟩
  case mhaComplete =>
    intro mha W expTable recipTable np rope x tr hx
    obtain ⟨o, hprove, hout, hverify⟩ := proveMha_complete hP hx tr
    rw [← hout] at hverify
    exact ⟨o, hprove, hverify⟩
  case attentionComplete =>
    intro cfg W expTable recipTable np x tr hx
    obtain ⟨o, hprove, hout, hverify⟩ := proveAttention_complete hP hx tr
    rw [← hout] at hverify
    exact ⟨o, hprove, hverify⟩
  case committedComplete =>
    intro cfg W expTable recipTable np x tr hx
    obtain ⟨o, hprove, hcommX, hcommOut, hout, hverify⟩ := proveCommittedAttention_complete hP hx tr
    obtain ⟨hbehindX, hbehindOut⟩ := committed_attention hP hx
    refine ⟨o, hprove, ?_, ?_, hverify⟩
    · rw [hcommX]
      exact hbehindX
    · rw [hcommOut, hout]
      exact hbehindOut
  case blockComplete =>
    intro cfg W expTable recipTable np domain f ffn hffn x tr hx hh
    exact proveBlock_complete hP hffn hx hh tr
  case committedBlockComplete =>
    intro cfg W expTable recipTable np domain f ffn hffn x tr hx hh
    exact proveCommittedBlock_complete hP hffn hx hh tr

/-! ## Parts that check -/

/-- The parts of the norm and softmax, with products and sums that are checked. -/
def checkingAttnParts : AttnParts 5 where
  toParts := checkingParts
  digest t := t.map fun v => UInt8.ofNat v.val
  matmul := checking .reject id Multiplies
  matmulIo := checking .reject (Product.behind id) Multiplies
  matmulIoBt := checking .reject (Product.behind id) MultipliesT
  committedAdd := checking .reject (Add.map id) Add.Holds

theorem checkingAttnParts_ideal : checkingAttnParts.Ideal id where
  parts := checkingParts_ideal
  matmul := checking_ideal _ fun _ _ => rfl
  matmulIo := checking_ideal _ fun _ _ => rfl
  matmulIoBt := checking_ideal _ fun _ _ => rfl
  committedAdd := checking_ideal _ fun _ _ => rfl

/-- Two query heads on one group of keys, rotated. -/
def sampleMha : MhaConfig := ⟨2, 2, 2, 1, 2, "rmsnorm"⟩

def sampleWeights : Weights 5 := ⟨[4, 1, 0, 1, 4, 3, 2, 2], [3, 0, 3, 0], [1, 3, 1, 2], [2, 1, 0, 3, 3, 2, 2, 2]⟩

/-- No turn at the first position, a quarter turn at the second. -/
def sampleRope : RopeParams (ZMod 5) := ⟨[1, 0], [0, 1]⟩

theorem sampleMha_domain :
    MhaDomain sampleMha sampleWeights fourCodes fourCodes ⟨[4, 1], fourCodes⟩ (some sampleRope) [4, 1, 2, 3] where
  seq := by decide
  dModel := by decide
  dHead := by decide
  qWidth := by decide
  kvWidth := by decide
  groups := by decide
  input := rfl
  weight := rfl
  wq := rfl
  wk := rfl
  wv := rfl
  wo := rfl
  rotation := by
    rintro rp hrp
    cases hrp
    decide
  zero := rfl
  codes := by decide
  scores := by
    intro h hh
    refine ⟨MatMulSound.length_product .., ?_, ?_⟩
    · revert h
      decide +kernel
    · revert h
      decide +kernel

theorem sampleOne_domain :
    AttnDomain ⟨1, 1, 1, "rmsnorm"⟩ ⟨[1], [1], [1], [1]⟩ fourCodes fourCodes ⟨[1], fourCodes⟩ [1] where
  seq := by decide
  dModel := by decide
  dHead := by decide
  input := rfl
  weight := rfl
  wq := rfl
  wk := rfl
  wv := rfl
  wo := rfl
  zero := rfl
  codes := by decide
  scores := ⟨rfl, by decide +kernel, by decide +kernel⟩

/-- A feed-forward stage that squares. -/
def squares : Ffn checkingAttnParts where
  Proof := Unit
  prove h tr := .ok (((), h.map (· ^ 2)), tr)
  verify h out _ tr := do
    revertIf (out ≠ h.map (· ^ 2)) .reject
    .ok tr

theorem squares_accepted (h : Table 5) (tr : Unit) : squares.verify h (h.map (· ^ 2)) () tr = .ok tr :=
  guarded_iff.mpr ⟨not_not.mpr rfl, rfl⟩

theorem squares_ideal : squares.Ideal id id (fun _ => True) (List.map (· ^ 2)) := by
  constructor
  case sound =>
    intro h out proof tr tr' hverify
    exact ⟨trivial, not_not.mp (guarded_iff.mp hverify).1⟩
  case complete =>
    intro h tr _
    exact ⟨(((), h.map (· ^ 2)), tr), rfl, rfl, squares_accepted h tr⟩

def committedSquares : CommittedFfn checkingAttnParts where
  Proof := Unit
  prove h tr := .ok (((), h, h.map (· ^ 2), h.map (· ^ 2)), tr)
  verify commH commOut _ tr := squares.verify commH commOut () tr

theorem committedSquares_ideal : committedSquares.Ideal id (fun _ => True) (List.map (· ^ 2)) := by
  constructor
  case sound =>
    intro h out proof tr tr' hverify
    exact squares_ideal.sound h out () tr tr' hverify
  case complete =>
    intro h tr _
    exact ⟨(), tr, rfl, squares_accepted h tr⟩

/-- Two heads with a rotation; one head with the three verifiers; and that head in a block, clear and committed. -/
theorem checkingAttnParts_exact :
    (∃ out t, IsMha sampleMha (some sampleRope) sampleWeights fourCodes fourCodes
      ⟨[4, 1], fourCodes⟩ [4, 1, 2, 3] out t)
      ∧ (attentionStage checkingAttnParts ⟨1, 1, 1, "rmsnorm"⟩ ⟨[1], [1], [1], [1]⟩ fourCodes fourCodes
        ⟨[1], fourCodes⟩).Accepts id [1] [2] ()
      ∧ (mhaStage checkingAttnParts ⟨[1], [1], [1], [1]⟩ fourCodes fourCodes (single ⟨1, 1, 1, "rmsnorm"⟩)
        ⟨[1], fourCodes⟩ none).Accepts id [1] [2] ()
      ∧ (committedAttentionStage checkingAttnParts ⟨1, 1, 1, "rmsnorm"⟩ ⟨[1], [1], [1], [1]⟩ fourCodes fourCodes
        ⟨[1], fourCodes⟩).Accepts id [1] [2] ()
      ∧ (∃ proof tr', verifyBlock checkingAttnParts ⟨1, 1, 1, "rmsnorm"⟩ ⟨[1], [1], [1], [1]⟩ fourCodes fourCodes
        (some ⟨[1], fourCodes⟩) squares [1] [4] proof () = .ok tr')
      ∧ ∃ commX commOut proof tr', verifyCommittedBlock checkingAttnParts ⟨1, 1, 1, "rmsnorm"⟩
        ⟨[1], [1], [1], [1]⟩ fourCodes
          fourCodes ⟨[1], fourCodes⟩ committedSquares commX commOut proof () = .ok tr'
        ∧ ∃ h, (attentionStage checkingAttnParts ⟨1, 1, 1, "rmsnorm"⟩ ⟨[1], [1], [1], [1]⟩ fourCodes fourCodes
          ⟨[1], fourCodes⟩).Accepts id commX h () ∧ commOut = h.map (· ^ 2) := by
  have hexact := attention_exact checkingAttnParts_ideal
  obtain ⟨o, -, hverify⟩ := hexact.mhaComplete sampleMha sampleWeights fourCodes fourCodes ⟨[4, 1], fourCodes⟩
    (some sampleRope) [4, 1, 2, 3] () sampleMha_domain
  have hout : [2] = attentionOf ⟨1, 1, 1, "rmsnorm"⟩ ⟨[1], [1], [1], [1]⟩ fourCodes fourCodes ⟨[1], fourCodes⟩ [1] := by
    decide +kernel
  have hone : (attentionStage checkingAttnParts ⟨1, 1, 1, "rmsnorm"⟩ ⟨[1], [1], [1], [1]⟩ fourCodes fourCodes
      ⟨[1], fourCodes⟩).Accepts id [1] [2] () :=
    (attentionAccepts_iff checkingAttnParts_ideal ()).mpr ⟨sampleOne_domain, hout⟩
  obtain ⟨block, -, hblock⟩ := hexact.blockComplete _ _ _ _ _ _ _ squares squares_ideal _ () sampleOne_domain trivial
  obtain ⟨h, hh, -, hsquared⟩ := hexact.blockSound _ _ _ _ _ _ _ squares squares_ideal _ _ _ _ _ hblock
  rw [((attentionAccepts_iff checkingAttnParts_ideal ()).mp hh).2, ← hout] at hsquared
  obtain ⟨committed, -, hcommitted⟩ :=
    hexact.committedBlockComplete _ _ _ _ _ _ _ committedSquares committedSquares_ideal _ () sampleOne_domain trivial
  obtain ⟨h', hh', -, hsquared'⟩ :=
    hexact.committedBlockSound _ _ _ _ _ _ _ committedSquares committedSquares_ideal _ _ _ _ _ hcommitted
  rw [hsquared] at hblock
  exact ⟨⟨o.1.2, hexact.mhaSound _ _ _ _ _ _ _ _ _ _ _ hverify⟩, hone,
    (hexact.singleHead _ _ _ _ _ _ _ () ()).mpr hone, (hexact.committedHead _ _ _ _ _ _ _ () ()).mpr hone,
    ⟨_, _, hblock⟩, _, _, _, _, hcommitted, h', hh', hsquared'⟩

end TransformerBlock
