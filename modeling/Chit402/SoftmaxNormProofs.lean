import Chit402.RmsNormProofs
import Mathlib.Tactic.NormNum.Prime

/-! # What the softmax and norm verifiers accept

    With ideal parts the three verifiers are sound for the two relations, their
    honest provers are accepted, and so the plain and the committed RMSNorm
    accept the same tensors.  The parts that check their relation are ideal. -/

namespace SoftmaxNorm

open Mle IdealArgument Tensor SubArgument CausalSoftmax RmsNorm
open Lookup (IsPowerOfTwo)

section Accepts

variable {p : ℕ} [Fact p.Prime] {P : Parts p} {committed : P.Comm → Table p}
  {expTable recipTable table : CodeTable p} {seq d : ℕ} {x w y : Table p}

/-- Some plain proof is accepted. -/
def NormAccepts (P : Parts p) (table : CodeTable p) (seq d : ℕ) (x w y : Table p) (tr : P.T) : Prop :=
  ∃ proof tr', verifyRmsnorm P table seq d x w y proof tr = .ok tr'

def CommittedNormAccepts (P : Parts p) (committed : P.Comm → Table p) (table : CodeTable p) (seq d : ℕ)
    (x w y : Table p) (tr : P.T) : Prop :=
  ∃ commX commY proof tr', committed commX = x ∧ committed commY = y
    ∧ verifyCommittedRmsnorm P table seq d w commX commY proof tr = .ok tr'

theorem normAccepts_iff (h : P.Ideal committed) (tr : P.T) : NormAccepts P table seq d x w y tr ↔
    IsPowerOfTwo seq ∧ IsPowerOfTwo d ∧ IsNorm table seq d x w y := by
  constructor
  · rintro ⟨proof, tr', hverify⟩
    exact verifyRmsnorm_sound h hverify
  · rintro ⟨hseq, hd, hnorm⟩
    obtain ⟨hx, hw, hcodes, hy⟩ := (isNorm_iff hseq).mp hnorm
    obtain ⟨out, -, hout, hverify⟩ := proveRmsnorm_complete h hseq hd hx hw hcodes tr
    rw [hout, ← hy] at hverify
    exact ⟨out.1.1, out.2, hverify⟩

theorem committedNormAccepts_iff (h : P.Ideal committed) (tr : P.T) :
    CommittedNormAccepts P committed table seq d x w y tr ↔
      IsPowerOfTwo seq ∧ IsPowerOfTwo d ∧ IsNorm table seq d x w y := by
  constructor
  · rintro ⟨commX, commY, proof, tr', rfl, rfl, hverify⟩
    exact verifyCommittedRmsnorm_sound h hverify
  · rintro ⟨hseq, hd, hnorm⟩
    obtain ⟨hx, hw, hcodes, hy⟩ := (isNorm_iff hseq).mp hnorm
    obtain ⟨out, -, hcommX, hcommY, hout, hverify⟩ := proveCommittedRmsnorm_complete h hseq hd hx hw hcodes tr
    have hpow : IsPowerOfTwo (seq * d) := pow2_mul hseq hd
    refine ⟨P.commit x, P.commit y, out.1.proof, out.2, ?_, ?_, ?_⟩
    · exact h.commits x (by rw [hx]; exact hpow)
    · exact h.commits y (by rw [hnorm.lengths.2.2]; exact hpow)
    · rw [hcommX, hcommY, hout, ← hy] at hverify
      exact hverify

/-- **EXACT**: each verifier accepts its relation, and only that. -/
structure Exact (P : Parts p) (committed : P.Comm → Table p) : Prop where
  softmaxSound : ∀ expTable recipTable seq commS commP proof tr tr',
    verifyCommittedSoftmax P expTable recipTable seq commS commP proof tr = .ok tr' →
      ∃ exps, IsSoftmax expTable recipTable seq (committed commS) (committed commP) exps
  committedNormSound : ∀ table seq d w commX commY proof tr tr',
    verifyCommittedRmsnorm P table seq d w commX commY proof tr = .ok tr' →
      IsNorm table seq d (committed commX) w (committed commY)
  normSound : ∀ table seq d x w y proof tr tr',
    verifyRmsnorm P table seq d x w y proof tr = .ok tr' → IsNorm table seq d x w y
  softmaxComplete : ∀ expTable recipTable seq scores tr, IsPowerOfTwo seq → entry expTable.outCodes 0 = 0 →
    Lookable expTable recipTable seq scores → ∃ out, proveCommittedSoftmax P expTable recipTable seq scores tr = .ok out
      ∧ committed out.1.commS = scores ∧ committed out.1.commP = out.1.probs
      ∧ verifyCommittedSoftmax P expTable recipTable seq out.1.commS out.1.commP out.1.proof tr = .ok out.2
  committedNormComplete : ∀ table seq d x w tr, IsPowerOfTwo seq → IsPowerOfTwo d → x.length = seq * d → w.length = d →
    (∀ r < seq, table.InDomain (squares d x r)) → ∃ out, proveCommittedRmsnorm P table seq d x w tr = .ok out
      ∧ committed out.1.commX = x ∧ committed out.1.commY = out.1.y
      ∧ verifyCommittedRmsnorm P table seq d w out.1.commX out.1.commY out.1.proof tr = .ok out.2
  normComplete : ∀ table seq d x w tr, IsPowerOfTwo seq → IsPowerOfTwo d → x.length = seq * d → w.length = d →
    (∀ r < seq, table.InDomain (squares d x r)) → ∃ out, proveRmsnorm P table seq d x w tr = .ok out
      ∧ verifyRmsnorm P table seq d x w out.1.2 out.1.1 tr = .ok out.2
  normsAgree : ∀ table seq d x w y tr tr',
    NormAccepts P table seq d x w y tr ↔ CommittedNormAccepts P committed table seq d x w y tr'

theorem softmax_complete (h : P.Ideal committed) {scores : Table p} (tr : P.T) (hseq : IsPowerOfTwo seq)
    (hzero : entry expTable.outCodes 0 = 0) (hlook : Lookable expTable recipTable seq scores) :
    ∃ out, proveCommittedSoftmax P expTable recipTable seq scores tr = .ok out
      ∧ committed out.1.commS = scores ∧ committed out.1.commP = out.1.probs
      ∧ verifyCommittedSoftmax P expTable recipTable seq out.1.commS out.1.commP out.1.proof tr = .ok out.2 := by
  obtain ⟨out, hprove, hcommS, hcommP, hprobs, hverify⟩ := proveCommittedSoftmax_complete h hseq hzero hlook tr
  have hpow : IsPowerOfTwo (seq * seq) := pow2_mul hseq hseq
  refine ⟨out, hprove, ?_, ?_, hverify⟩
  · rw [hcommS]
    exact h.commits scores (by rw [hlook.length]; exact hpow)
  · rw [hcommP]
    exact h.commits _ (by rw [hprobs, length_probsOf]; exact hpow)

theorem committedNorm_complete (h : P.Ideal committed) (tr : P.T) (hseq : IsPowerOfTwo seq) (hd : IsPowerOfTwo d)
    (hx : x.length = seq * d) (hw : w.length = d) (hcodes : ∀ r < seq, table.InDomain (squares d x r)) :
    ∃ out, proveCommittedRmsnorm P table seq d x w tr = .ok out
      ∧ committed out.1.commX = x ∧ committed out.1.commY = out.1.y
      ∧ verifyCommittedRmsnorm P table seq d w out.1.commX out.1.commY out.1.proof tr = .ok out.2 := by
  obtain ⟨out, hprove, hcommX, hcommY, hout, hverify⟩ := proveCommittedRmsnorm_complete h hseq hd hx hw hcodes tr
  have hpow : IsPowerOfTwo (seq * d) := pow2_mul hseq hd
  refine ⟨out, hprove, ?_, ?_, hverify⟩
  · rw [hcommX]
    exact h.commits x (by rw [hx]; exact hpow)
  · have hy := ((isNorm_iff hseq).mpr ⟨hx, hw, hcodes, hout⟩).lengths.2.2
    rw [hcommY]
    exact h.commits _ (by rw [hy]; exact hpow)

theorem softmax_norm_exact (h : P.Ideal committed) : Exact P committed := by
  constructor
  case softmaxSound =>
    intro expTable recipTable seq commS commP proof tr tr' hverify
    exact (verifyCommittedSoftmax_sound h hverify).2.2
  case committedNormSound =>
    intro table seq d w commX commY proof tr tr' hverify
    exact (verifyCommittedRmsnorm_sound h hverify).2.2
  case normSound =>
    intro table seq d x w y proof tr tr' hverify
    exact (verifyRmsnorm_sound h hverify).2.2
  case softmaxComplete =>
    intro expTable recipTable seq scores tr hseq hzero hlook
    exact softmax_complete h tr hseq hzero hlook
  case committedNormComplete =>
    intro table seq d x w tr hseq hd hx hw hcodes
    exact committedNorm_complete h tr hseq hd hx hw hcodes
  case normComplete =>
    intro table seq d x w tr hseq hd hx hw hcodes
    obtain ⟨out, hprove, -, hverify⟩ := proveRmsnorm_complete h hseq hd hx hw hcodes tr
    exact ⟨out, hprove, hverify⟩
  case normsAgree =>
    intro table seq d x w y tr tr'
    rw [normAccepts_iff h, committedNormAccepts_iff h]

end Accepts

/-! ## Parts that check -/

instance fact_prime_5 : Fact (Nat.Prime 5) := ⟨by norm_num⟩

/-- Commitments in the clear, and arguments that check their relation. -/
def checkingParts : Parts 5 where
  T := Unit
  Comm := Table 5
  commit t := t
  bytes t := t.map fun v => UInt8.ofNat v.val
  hadamard := checking .reject id Hadamard.Holds
  lookup := checking .reject id Lookup.Holds
  hadamardIo := checking .reject (Hadamard.map id) Hadamard.Holds
  rowSum := checking .reject (RowSum.map id) RowSum.Holds
  committedLookup := checking .reject (Lookup.map id) Lookup.Holds
  softmaxScale := checking .reject (SoftmaxScale.map id) SoftmaxScale.Holds
  normScale := checking .reject (NormScale.map id) NormScale.Holds

theorem checkingParts_ideal : checkingParts.Ideal id where
  commits _ _ := rfl
  bytes := List.map_injective_iff.mpr (by decide)
  hadamard := checking_ideal _ fun _ _ => rfl
  lookup := checking_ideal _ fun _ _ => rfl
  hadamardIo := checking_ideal _ fun _ _ => rfl
  rowSum := checking_ideal _ fun _ _ => rfl
  committedLookup := checking_ideal _ fun s _ => Lookup.map_inverse (fun _ => rfl) s
  softmaxScale := checking_ideal _ fun _ _ => rfl
  normScale := checking_ideal _ fun _ _ => rfl

scoped instance atLeastTwo_two : Nat.AtLeastTwo 2 := ⟨le_rfl⟩

scoped instance atLeastTwo_three : Nat.AtLeastTwo 3 := ⟨by decide⟩

def fourCodes : CodeTable 5 where
  domain := 4
  outCodes := [0, 1, 2, 3]
  pow2 := by decide
  length_out := rfl
  small := by decide

/-- The norm of a row of two, and not another row. -/
theorem checkingParts_exact : NormAccepts checkingParts fourCodes 1 2 [1, 1] [1, 3] [2, 1] ()
    ∧ CommittedNormAccepts checkingParts id fourCodes 1 2 [1, 1] [1, 3] [2, 1] ()
    ∧ ∃ out, proveCommittedSoftmax checkingParts fourCodes fourCodes 2 [1, 4, 1, 2] () = .ok out
      ∧ out.1.commS = [1, 4, 1, 2] := by
  have hexact := softmax_norm_exact checkingParts_ideal
  have haccepts : NormAccepts checkingParts fourCodes 1 2 [1, 1] [1, 3] [2, 1] () :=
    (normAccepts_iff checkingParts_ideal ()).mpr ⟨by decide, by decide, by decide, by decide, by decide⟩
  obtain ⟨out, hprove, hcommS, -, -⟩ := hexact.softmaxComplete fourCodes fourCodes 2 [1, 4, 1, 2] () (by decide) rfl
    ⟨by decide, by decide, by decide⟩
  exact ⟨haccepts, (hexact.normsAgree _ _ _ _ _ _ () ()).mp haccepts, out, hprove, hcommS⟩

end SoftmaxNorm
