import Chit402.LookupSoundProofs
import Chit402.SubArgumentProofs

/-! # Requantisation

    A wide accumulator is divided by a public divisor, rounding down: the
    quotient is the next operation's operand and the remainder is advice.
    The division is checked as an identity in the field, and two range
    checks, which are parameters here, make it one of numbers.  In the
    committed form the identity is checked at one drawn point. -/

namespace Requant

open ExceptFlow Multilinear Mle FiatShamir MatMul MatMulSound ChallengeGame IdealArgument Tensor SubArgument
open Lookup (IsPowerOfTwo Opened openAt checkOpen)

variable {p : ℕ} [Fact p.Prime] {α β : Type}

/-! ## Range checks -/

/-- A column of `n` values below a bound. -/
structure Range (α : Type) where
  n : ℕ
  bound : ℕ
  column : α

def Range.map (f : α → β) (s : Range α) : Range β := ⟨s.n, s.bound, f s.column⟩

def Range.Holds (s : Range (Table p)) : Prop :=
  IsPowerOfTwo s.n ∧ s.column.length = s.n ∧ ∀ i < s.n, (entry s.column i).val < s.bound

instance : DecidablePred (Range.Holds (p := p)) := fun s =>
  inferInstanceAs (Decidable (IsPowerOfTwo s.n ∧ s.column.length = s.n ∧ ∀ i < s.n, (entry s.column i).val < s.bound))

/-- `RangeTable`; its codes are the numbers below the bound. -/
structure RangeTable where
  bound : ℕ

/-- The two forms of the check of a column. -/
structure Checks (p : ℕ) (Comm : Type) where
  range : Argument Abort (Transcript (ZMod p)) (Range (Table p)) (Range (Table p))
  committedRange : Argument Abort (Transcript (ZMod p)) (Range Comm) (Range (Table p))

variable {pcs : Pcs (ZMod p)} {committed : pcs.Comm → Table p}

/-- **IDEAL CHECKS**: they accept the columns in range. -/
structure Checks.Ideal (C : Checks p pcs.Comm) (committed : pcs.Comm → Table p) : Prop where
  range : C.range.Ideal id id Range.Holds
  committedRange : C.committedRange.Ideal (Range.map pcs.commit) (Range.map committed) Range.Holds

/-! ## The division -/

/-- The first of the four words; the others must be zero. -/
def decodeSmall (f : ZMod p) : Except Abort ℕ := do
  revertIf (2 ^ 64 ≤ f.val) .panic
  .ok f.val

/-- The quotients and the remainders. -/
def divide (acc : Table p) (bias : ZMod p) (d : ℕ) : Except Abort (Table p × Table p) := do
  let values ← acc.mapM fun a => decodeSmall (a + bias)
  revertIf (d = 0) .panic
  .ok (values.map fun av => ((av / d : ℕ) : ZMod p), values.map fun av => ((av % d : ℕ) : ZMod p))

/-! ## In the clear -/

section Clear

variable {Comm : Type} (C : Checks p Comm)

structure RequantProof where
  r : Table p
  pR : C.range.Proof
  pQ : C.range.Proof

def proveRequant (acc : Table p) (bias : ZMod p) (divisor : ℕ) (rTable qTable : RangeTable)
    (tr : Transcript (ZMod p)) : Except Abort ((RequantProof C × Table p) × Transcript (ZMod p)) := do
  revertIf (¬ IsPowerOfTwo acc.length) .panic
  revertIf (divisor ≠ rTable.bound) .panic
  let qr ← divide acc bias divisor
  let pR ← C.range.prove ⟨qr.2.length, rTable.bound, qr.2⟩ tr
  let pQ ← C.range.prove ⟨qr.1.length, qTable.bound, qr.1⟩ pR.2
  .ok ((⟨qr.2, pR.1, pQ.1⟩, qr.1), pQ.2)

def verifyRequant (acc q : Table p) (bias : ZMod p) (divisor : ℕ) (rTable qTable : RangeTable) (proof : RequantProof C)
    (tr : Transcript (ZMod p)) : Except Abort (Transcript (ZMod p)) := do
  revertIf (¬ IsPowerOfTwo acc.length ∨ q.length ≠ acc.length ∨ proof.r.length ≠ acc.length ∨ divisor ≠ rTable.bound)
    .reject
  revertIf (∃ i < acc.length, entry acc i + bias ≠ entry q i * divisor + entry proof.r i) .reject
  let tr ← C.range.verify ⟨proof.r.length, rTable.bound, proof.r⟩ proof.pR tr
  C.range.verify ⟨q.length, qTable.bound, q⟩ proof.pQ tr

end Clear

/-! ## Committed -/

section Committed

variable (C : Checks p pcs.Comm)

structure CommittedRangeProof where
  commQuery : List pcs.Comm
  rest : C.committedRange.Proof

def RangeTable.proveCommitted (table : RangeTable) (xs : Table p) (tr : Transcript (ZMod p)) :
    Except Abort (CommittedRangeProof C × Transcript (ZMod p)) := do
  let out ← C.committedRange.prove ⟨xs.length, table.bound, xs⟩ tr
  .ok (⟨[pcs.commit xs], out.1⟩, out.2)

/-- The check of a proof that must be of one column, and that column. -/
def RangeTable.verifyCommitted (table : RangeTable) (n : ℕ) (proof : CommittedRangeProof C) (tr : Transcript (ZMod p)) :
    Except Abort (pcs.Comm × Transcript (ZMod p)) :=
  match proof.commQuery with
  | [comm] => do
    let tr ← C.committedRange.verify ⟨n, table.bound, comm⟩ proof.rest tr
    .ok (comm, tr)
  | _ => .error .reject

structure CommittedRequantProof where
  pRRange : CommittedRangeProof C
  pQRange : CommittedRangeProof C
  acc : Opened pcs
  q : Opened pcs
  r : Opened pcs

/-- The statement is absorbed, and the point drawn. -/
def bindDiv (n : ℕ) (bias : ZMod p) (divisor : ℕ) (commAcc commQ commR : pcs.Comm) (tr : Transcript (ZMod p)) :
    Except Abort (List (ZMod p) × Transcript (ZMod p)) := do
  let vars ← log2Exact n
  .ok (drawPoint vars (label "rq.rho")
    ((((((tr.absorbBytes (label "rq.n") (littleEndian 8 n)).absorbBytes (label "rq.bias")
      (littleEndian 32 bias.val)).absorbBytes (label "rq.d") (littleEndian 8 divisor)).absorbBytes (label "rq.acc")
      (pcs.bytes commAcc)).absorbBytes (label "rq.q") (pcs.bytes commQ)).absorbBytes (label "rq.r") (pcs.bytes commR)))

/-- `comm_query[0]` -/
def firstComm : List pcs.Comm → Except Abort pcs.Comm
  | [] => .error .panic
  | comm :: _ => .ok comm

/-- The proof, the commitments to `acc` and to `q`, and `q`. -/
def proveCommittedRequant (acc : Table p) (bias : ZMod p) (divisor : ℕ) (rTable qTable : RangeTable)
    (tr : Transcript (ZMod p)) :
    Except Abort ((CommittedRequantProof C × pcs.Comm × pcs.Comm × Table p) × Transcript (ZMod p)) := do
  revertIf (¬ IsPowerOfTwo acc.length) .panic
  revertIf (divisor ≠ rTable.bound) .panic
  let qr ← divide acc bias divisor
  let commAcc := pcs.commit acc
  let pR ← rTable.proveCommitted C qr.2 tr
  let pQ ← qTable.proveCommitted C qr.1 pR.2
  let commR ← firstComm pR.1.commQuery
  let commQ ← firstComm pQ.1.commQuery
  let rho ← bindDiv acc.length bias divisor commAcc commQ commR pQ.2
  let accAt ← openAt pcs acc rho.1
  let qAt ← openAt pcs qr.1 rho.1
  let rAt ← openAt pcs qr.2 rho.1
  .ok ((⟨pR.1, pQ.1, accAt, qAt, rAt⟩, commAcc, commQ, qr.1), rho.2)

/-- The range checks, and what comes of them: the columns and the point. -/
def divisionPoint (n : ℕ) (bias : ZMod p) (divisor : ℕ) (rTable qTable : RangeTable) (commAcc : pcs.Comm)
    (proof : CommittedRequantProof C) (tr : Transcript (ZMod p)) :
    Except Abort ((pcs.Comm × pcs.Comm × List (ZMod p)) × Transcript (ZMod p)) := do
  revertIf (¬ IsPowerOfTwo n ∨ divisor ≠ rTable.bound) .reject
  let r ← rTable.verifyCommitted C n proof.pRRange tr
  let q ← qTable.verifyCommitted C n proof.pQRange r.2
  let rho ← bindDiv n bias divisor commAcc q.1 r.1 q.2
  .ok ((q.1, r.1, rho.1), rho.2)

variable {C}

/-- The identity on the values opened at a point, and the openings. -/
def Divides (bias : ZMod p) (divisor : ℕ) (commAcc commQ commR : pcs.Comm) (rho : List (ZMod p))
    (proof : CommittedRequantProof C) : Prop :=
  proof.acc.value + bias = proof.q.value * divisor + proof.r.value ∧ checkOpen pcs commAcc rho proof.acc
    ∧ checkOpen pcs commQ rho proof.q ∧ checkOpen pcs commR rho proof.r

instance (bias : ZMod p) (divisor : ℕ) (commAcc commQ commR : pcs.Comm) (rho : List (ZMod p))
    (proof : CommittedRequantProof C) : Decidable (Divides bias divisor commAcc commQ commR rho proof) :=
  inferInstanceAs (Decidable (_ ∧ _))

variable (C)

def verifyCommittedRequant (n : ℕ) (bias : ZMod p) (divisor : ℕ) (rTable qTable : RangeTable) (commAcc : pcs.Comm)
    (proof : CommittedRequantProof C) (tr : Transcript (ZMod p)) : Except Abort (Transcript (ZMod p)) := do
  let drawn ← divisionPoint C n bias divisor rTable qTable commAcc proof tr
  revertIf (¬ Divides bias divisor commAcc drawn.1.1 drawn.1.2.1 drawn.1.2.2 proof) .reject
  .ok drawn.2

end Committed

/-! ## Division with remainder -/

/-- The quotient and the remainder of a value, with the quotient below `Q`. -/
def Splits (D Q : ℕ) (a q r : ZMod p) : Prop := a.val < D * Q ∧ q.val = a.val / D ∧ r.val = a.val % D

/-- The columns are the quotients and the remainders of `acc + bias`. -/
def Division (n : ℕ) (bias : ZMod p) (D Q : ℕ) (acc q r : Table p) : Prop :=
  ∀ i < n, Splits D Q (entry acc i + bias) (entry q i) (entry r i)

/-- What can be requantised: canonical integers below `D·Q` that the prover can read. -/
def Fits (n : ℕ) (bias : ZMod p) (D Q : ℕ) (acc : Table p) : Prop :=
  ∀ i < n, (entry acc i + bias).val < D * Q ∧ (entry acc i + bias).val < 2 ^ 64

variable {D Q n : ℕ} {bias : ZMod p} {acc q r : Table p}

theorem splits_of_identity {a q r : ZMod p} (hfit : D * Q < p) (hq : q.val < Q) (hr : r.val < D) (h : a = q * D + r) :
    Splits D Q a q r := by
  have hlt : q.val * D + r.val < D * Q := lt_of_lt_of_eq (row_major_lt hq hr) (Nat.mul_comm Q D)
  have hval : a.val = q.val * D + r.val := by
    have hcast : a = ((q.val * D + r.val : ℕ) : ZMod p) := by
      rw [h, Nat.cast_add, Nat.cast_mul, ZMod.natCast_zmod_val, ZMod.natCast_zmod_val]
    rw [hcast, ZMod.val_natCast_of_lt (hlt.trans hfit)]
  rw [Splits, hval, row_major_div hr, row_major_mod hr]
  exact ⟨hlt, rfl, rfl⟩

theorem Division.unique {q' r' : Table p} (h : Division n bias D Q acc q r) (h' : Division n bias D Q acc q' r')
    (hq : q.length = n) (hq' : q'.length = n) : q' = q := by
  refine table_ext (hq'.trans hq.symm) fun i hi => ZMod.val_injective p ?_
  rw [hq'] at hi
  rw [(h' i hi).2.1, (h i hi).2.1]

omit [Fact p.Prime] in
theorem decodeSmall_ok_iff {f : ZMod p} {v : ℕ} : decodeSmall f = .ok v ↔ f.val < 2 ^ 64 ∧ f.val = v := by
  rw [decodeSmall, guarded_iff, Nat.not_le, Except.ok.injEq]

/-- The quotients and the remainders as the prover computes them. -/
def quotients (acc : Table p) (bias : ZMod p) (D : ℕ) : Table p := acc.map fun a => (((a + bias).val / D : ℕ) : ZMod p)

def remainders (acc : Table p) (bias : ZMod p) (D : ℕ) : Table p := acc.map fun a => (((a + bias).val % D : ℕ) : ZMod p)

/-- The prover divides what it can read. -/
theorem divide_ok_iff {qr : Table p × Table p} : divide acc bias D = .ok qr ↔
      (∀ i < acc.length, (entry acc i + bias).val < 2 ^ 64) ∧ D ≠ 0
        ∧ qr = (quotients acc bias D, remainders acc bias D) := by
  have hread : (∀ a ∈ acc, (a + bias).val < 2 ^ 64) ↔ ∀ i < acc.length, (entry acc i + bias).val < 2 ^ 64 := by
    rw [List.forall_mem_iff_forall_getElem]
    exact forall₂_congr fun i hi => by rw [entry_of_lt hi]
  have hvalues : ∀ values, acc.mapM (fun a => decodeSmall (a + bias)) = .ok values ↔
      (∀ a ∈ acc, (a + bias).val < 2 ^ 64) ∧ acc.map (fun a => (a + bias).val) = values := by
    intro values
    rw [mapM_ok_iff]
    simp only [decodeSmall_ok_iff]
    rw [List.forall₂_and_left, ← List.forall₂_eq_eq_eq, List.forall₂_map_left_iff]
  rw [divide, bind_iff]
  simp only [hvalues, guarded_iff, Except.ok.injEq]
  constructor
  · rintro ⟨values, ⟨hsmall, rfl⟩, hD, rfl⟩
    exact ⟨hread.mp hsmall, hD, by rw [List.map_map, List.map_map]; rfl⟩
  · rintro ⟨hsmall, hD, rfl⟩
    exact ⟨_, ⟨hread.mpr hsmall, rfl⟩, hD, by rw [List.map_map, List.map_map]; rfl⟩

theorem length_quotients (acc : Table p) (bias : ZMod p) (D : ℕ) :
    (quotients acc bias D).length = acc.length := List.length_map _

theorem length_remainders (acc : Table p) (bias : ZMod p) (D : ℕ) : (remainders acc bias D).length = acc.length :=
  List.length_map _

theorem quotients_val {i : ℕ} (hi : i < acc.length) (D : ℕ) :
    (entry (quotients acc bias D) i).val = (entry acc i + bias).val / D := by
  rw [quotients, entry_map_of_lt (f := fun a => (((a + bias).val / D : ℕ) : ZMod p)) hi,
    ZMod.val_natCast_of_lt (lt_of_le_of_lt (Nat.div_le_self _ _) (ZMod.val_lt _))]

theorem remainders_val {i : ℕ} (hi : i < acc.length) (D : ℕ) :
    (entry (remainders acc bias D) i).val = (entry acc i + bias).val % D := by
  rw [remainders, entry_map_of_lt (f := fun a => (((a + bias).val % D : ℕ) : ZMod p)) hi,
    ZMod.val_natCast_of_lt (lt_of_le_of_lt (Nat.mod_le _ _) (ZMod.val_lt _))]

theorem quotients_identity {i : ℕ} (hi : i < acc.length) (D : ℕ) :
    entry acc i + bias = entry (quotients acc bias D) i * D + entry (remainders acc bias D) i := by
  rw [← ZMod.natCast_zmod_val (entry (quotients acc bias D) i),
    ← ZMod.natCast_zmod_val (entry (remainders acc bias D) i),
    quotients_val hi, remainders_val hi, ← Nat.cast_mul, ← Nat.cast_add, Nat.div_add_mod', ZMod.natCast_zmod_val]

theorem quotients_holds_iff (hn : IsPowerOfTwo acc.length) (hD : D ≠ 0) :
    (⟨acc.length, Q, quotients acc bias D⟩ : Range (Table p)).Holds ↔ ∀ i < acc.length,
      (entry acc i + bias).val < D * Q := by
  have hlt : ∀ i < acc.length, ((entry (quotients acc bias D) i).val < Q ↔ (entry acc i + bias).val < D * Q) := by
    intro i hi
    rw [quotients_val hi, Nat.div_lt_iff_lt_mul (Nat.pos_of_ne_zero hD), Nat.mul_comm]
  constructor
  · rintro ⟨-, -, h⟩
    exact fun i hi => (hlt i hi).mp (h i hi)
  · intro h
    exact ⟨hn, length_quotients .., fun i hi => (hlt i hi).mpr (h i hi)⟩

theorem remainders_holds (hn : IsPowerOfTwo acc.length) (hD : D ≠ 0) :
    (⟨acc.length, D, remainders acc bias D⟩ : Range (Table p)).Holds := by
  refine ⟨hn, length_remainders .., fun i hi => ?_⟩
  rw [remainders_val hi]
  exact Nat.mod_lt _ (Nat.pos_of_ne_zero hD)

/-! ## The clear form -/

section ClearForm

variable {C : Checks p pcs.Comm} {rTable qTable : RangeTable} {divisor : ℕ} {tr tr' : Transcript (ZMod p)}

/-- **EXACT**: what is accepted is the division. -/
theorem verifyRequant_sound (hC : C.Ideal committed) (hfit : rTable.bound * qTable.bound < p) {proof : RequantProof C}
    (h : verifyRequant C acc q bias divisor rTable qTable proof tr = .ok tr') :
    q.length = acc.length ∧ Division acc.length bias rTable.bound qTable.bound acc q proof.r := by
  rw [verifyRequant, guarded_iff, guarded_iff] at h
  obtain ⟨hshape, hidentity, h⟩ := h
  obtain ⟨tr1, hr, hq⟩ := bind_iff.mp h
  push Not at hshape hidentity
  obtain ⟨-, hqlen, hrlen, rfl⟩ := hshape
  have hrange := (hC.range.sound _ _ _ _ hr).2.2
  have hquotient := (hC.range.sound _ _ _ _ hq).2.2
  refine ⟨hqlen, fun i hi => splits_of_identity hfit ?_ ?_ (hidentity i hi)⟩
  · exact hquotient i (lt_of_lt_of_eq hi hqlen.symm)
  · exact hrange i (lt_of_lt_of_eq hi hrlen.symm)

theorem proveRequant_ok {out : (RequantProof C × Table p) × Transcript (ZMod p)}
    (h : proveRequant C acc bias divisor rTable qTable tr = .ok out) :
      ∀ i < acc.length, (entry acc i + bias).val < 2 ^ 64 := by
  rw [proveRequant, guarded_iff, guarded_iff] at h
  obtain ⟨-, -, h⟩ := h
  obtain ⟨qr, hdivide, -⟩ := bind_iff.mp h
  exact (divide_ok_iff.mp hdivide).1

theorem Fits.divisor_ne_zero (hn : IsPowerOfTwo acc.length) (h : Fits acc.length bias D Q acc) : D ≠ 0 := by
  rintro rfl
  have hpos : 0 < acc.length := hn ▸ Nat.two_pow_pos _
  have hlt := (h 0 hpos).1
  rw [Nat.zero_mul] at hlt
  exact Nat.not_lt_zero _ hlt

theorem proveRequant_complete (hC : C.Ideal committed) (hn : IsPowerOfTwo acc.length)
    (h : Fits acc.length bias rTable.bound qTable.bound acc) (tr : Transcript (ZMod p)) :
    ∃ out, proveRequant C acc bias rTable.bound rTable qTable tr = .ok out
      ∧ verifyRequant C acc out.1.2 bias rTable.bound rTable qTable out.1.1 tr = .ok out.2 := by
  have hD := h.divisor_ne_zero hn
  have hdivide := divide_ok_iff.mpr ⟨fun i hi => (h i hi).2, hD, rfl⟩
  have hr : (⟨(remainders acc bias rTable.bound).length, rTable.bound, remainders acc bias rTable.bound⟩ :
      Range (Table p)).Holds := by
    rw [length_remainders]
    exact remainders_holds hn hD
  have hq : (⟨(quotients acc bias rTable.bound).length, qTable.bound, quotients acc bias rTable.bound⟩ :
      Range (Table p)).Holds := by
    rw [length_quotients]
    exact (quotients_holds_iff hn hD).mpr fun i hi => (h i hi).1
  obtain ⟨outR, hproveR, hverifyR⟩ := hC.range.complete _ tr hr
  obtain ⟨outQ, hproveQ, hverifyQ⟩ := hC.range.complete _ outR.2 hq
  refine ⟨((⟨remainders acc bias rTable.bound, outR.1, outQ.1⟩, quotients acc bias rTable.bound), outQ.2), ?_, ?_⟩
  · rw [proveRequant, guarded_of_not (not_not.mpr hn), guarded_of_not (not_not.mpr rfl), hdivide,
      ok_bind, hproveR, ok_bind, hproveQ, ok_bind]
  · rw [verifyRequant, guarded_iff, guarded_iff]
    refine ⟨?_, ?_, bind_iff.mpr ⟨outR.2, hverifyR, hverifyQ⟩⟩
    · push Not
      exact ⟨hn, length_quotients .., length_remainders .., rfl⟩
    · push Not
      exact fun i hi => quotients_identity hi _

end ClearForm

/-! ## The committed form -/

section CommittedForm

variable {C : Checks p pcs.Comm} {rTable qTable : RangeTable} {divisor : ℕ} {tr tr' : Transcript (ZMod p)}
  {commAcc commQ commR : pcs.Comm} {proof : CommittedRequantProof C} {rho : List (ZMod p)}

theorem verifyCommitted_sound (hC : C.Ideal committed) {table : RangeTable} {proof : CommittedRangeProof C}
    {out : pcs.Comm × Transcript (ZMod p)} (h : table.verifyCommitted C n proof tr = .ok out) :
    proof.commQuery = [out.1] ∧ (⟨n, table.bound, committed out.1⟩ : Range (Table p)).Holds := by
  unfold RangeTable.verifyCommitted at h
  split at h
  · rename_i comm hquery
    obtain ⟨tr1, hverify, h⟩ := bind_iff.mp h
    cases h
    exact ⟨hquery, hC.committedRange.sound _ _ _ _ hverify⟩
  · cases h

/-- Some run draws the point for these columns, and accepts. -/
def AcceptedAt (C : Checks p pcs.Comm) (n : ℕ) (bias : ZMod p) (divisor : ℕ) (rTable qTable : RangeTable)
    (commAcc commQ commR : pcs.Comm) (rho : List (ZMod p)) : Prop :=
  ∃ proof tr tr', divisionPoint C n bias divisor rTable qTable commAcc proof tr = .ok ((commQ, commR, rho), tr')
    ∧ verifyCommittedRequant C n bias divisor rTable qTable commAcc proof tr = .ok tr'

/-- What the point was drawn after. -/
theorem divisionPoint_ok (hC : C.Ideal committed) {out : (pcs.Comm × pcs.Comm × List (ZMod p)) × Transcript (ZMod p)}
    (h : divisionPoint C n bias divisor rTable qTable commAcc proof tr = .ok out) :
    divisor = rTable.bound ∧ proof.pQRange.commQuery = [out.1.1]
      ∧ (⟨n, rTable.bound, committed out.1.2.1⟩ : Range (Table p)).Holds
      ∧ (⟨n, qTable.bound, committed out.1.1⟩ : Range (Table p)).Holds := by
  rw [divisionPoint, guarded_iff] at h
  obtain ⟨hshape, h⟩ := h
  obtain ⟨r, hr, h⟩ := bind_iff.mp h
  obtain ⟨q, hq, h⟩ := bind_iff.mp h
  obtain ⟨rho, -, h⟩ := bind_iff.mp h
  cases h
  obtain ⟨hquery, hqrange⟩ := verifyCommitted_sound hC hq
  exact ⟨not_not.mp (not_or.mp hshape).2, hquery, (verifyCommitted_sound hC hr).2, hqrange⟩

/-- Where the identity fails, by how much. -/
def gap (bias : ZMod p) (D : ℕ) (acc q r : Table p) (i : ℕ) : ZMod p :=
  (entry acc i + bias) - ((D : ZMod p) * entry q i + entry r i)

/-- An accepted run has the columns in range, and no gap at its point. -/
theorem AcceptedAt.shows (hC : C.Ideal committed) (hpcs : MatMulSound.Ideal pcs committed)
    (h : AcceptedAt C n bias divisor rTable qTable commAcc commQ commR rho) :
    (⟨n, rTable.bound, committed commR⟩ : Range (Table p)).Holds
      ∧ (⟨n, qTable.bound, committed commQ⟩ : Range (Table p)).Holds
      ∧ ext rho (gap bias rTable.bound (committed commAcc) (committed commQ) (committed commR)) = 0 := by
  obtain ⟨proof, tr, tr', hpoint, hverify⟩ := h
  obtain ⟨rfl, -, hr, hq⟩ := divisionPoint_ok hC hpoint
  refine ⟨hr, hq, ?_⟩
  rw [verifyCommittedRequant, hpoint, ok_bind, guarded_iff, not_not] at hverify
  obtain ⟨⟨hidentity, hacc, hqAt, hrAt⟩, -⟩ := hverify
  have hopened : ∀ {comm : pcs.Comm} {o : Opened pcs}, checkOpen pcs comm rho o →
    o.value = ext rho (entry (committed comm)) :=
    fun hopen => ((hpcs.verifies _ _ _ _).mp hopen).2
  rw [hopened hacc, hopened hqAt, hopened hrAt, mul_comm] at hidentity
  show ext rho (fun i => (entry (committed commAcc) i + bias) - _) = 0
  rw [ext_sub, ext_add, ext_const, ext_add, ext_mul, hidentity, sub_self]

/-- **EXACT, AT MOST POINTS**: columns that are not the division are accepted at few points. -/
theorem acceptedAt_le (hC : C.Ideal committed) (hpcs : MatMulSound.Ideal pcs committed) {s : ℕ}
    (hfit : rTable.bound * qTable.bound < p)
    (hne : ¬ Division (2 ^ s) bias rTable.bound qTable.bound (committed commAcc) (committed commQ) (committed commR)) :
    fraction (fun v : Fin s → ZMod p => AcceptedAt C (2 ^ s)
      bias divisor rTable qTable commAcc commQ commR (List.ofFn v))
      ≤ s / p := by
  by_cases hranges : (⟨2 ^ s, rTable.bound, committed commR⟩ : Range (Table p)).Holds
      ∧ (⟨2 ^ s, qTable.bound, committed commQ⟩ : Range (Table p)).Holds
  · obtain ⟨i, hi, hgap⟩ : ∃ i < 2 ^ s,
        gap bias rTable.bound (committed commAcc) (committed commQ) (committed commR) i ≠ 0 := by
      by_contra hall
      push Not at hall
      refine hne fun i hi => splits_of_identity hfit (hranges.2.2.2 i hi) (hranges.1.2.2 i hi) ?_
      rw [mul_comm]
      exact sub_eq_zero.mp (hall i hi)
    have hzero := fraction_ext_zero_le hi hgap
    rw [ZMod.card] at hzero
    exact le_trans (fraction_mono fun v hv => (hv.shows hC hpcs).2.2) hzero
  · rw [fraction_eq_zero fun v hv => hranges ⟨(hv.shows hC hpcs).1, (hv.shows hC hpcs).2.1⟩]
    exact div_nonneg (Nat.cast_nonneg _) (Nat.cast_nonneg _)

/-- An honest proof that is accepted is of a column that fits. -/
theorem proveCommittedRequant_fits (hC : C.Ideal committed) (hpcs : MatMulSound.Ideal pcs committed)
    {out : (CommittedRequantProof C × pcs.Comm × pcs.Comm × Table p) × Transcript (ZMod p)}
      {tr0 tr0' : Transcript (ZMod p)}
    (hprove : proveCommittedRequant C acc bias divisor rTable qTable tr = .ok out)
    (hverify : verifyCommittedRequant C acc.length bias divisor rTable qTable commAcc out.1.1 tr0 = .ok tr0') :
    Fits acc.length bias rTable.bound qTable.bound acc := by
  rw [proveCommittedRequant, guarded_iff, not_not, guarded_iff, not_not] at hprove
  obtain ⟨hn, rfl, hprove⟩ := hprove
  obtain ⟨qr, hdivide, hprove⟩ := bind_iff.mp hprove
  obtain ⟨hread, hD, rfl⟩ := divide_ok_iff.mp hdivide
  obtain ⟨pR, -, hprove⟩ := bind_iff.mp hprove
  obtain ⟨pQ, hpQ, hprove⟩ := bind_iff.mp hprove
  obtain ⟨outQ, -, hpQ⟩ := bind_iff.mp hpQ
  obtain ⟨commR, -, hprove⟩ := bind_iff.mp hprove
  obtain ⟨commQ, -, hprove⟩ := bind_iff.mp hprove
  obtain ⟨rho, -, hprove⟩ := bind_iff.mp hprove
  obtain ⟨accAt, -, hprove⟩ := bind_iff.mp hprove
  obtain ⟨qAt, -, hprove⟩ := bind_iff.mp hprove
  obtain ⟨rAt, -, hprove⟩ := bind_iff.mp hprove
  cases hpQ
  cases hprove
  obtain ⟨drawn, hpoint, -⟩ := bind_iff.mp hverify
  obtain ⟨-, hquery, -, hq⟩ := divisionPoint_ok hC hpoint
  rw [← List.singleton_inj.mp hquery, hpcs.commits _ acc.length.log2 ((length_quotients ..).trans hn.symm)] at hq
  exact fun i hi => ⟨(quotients_holds_iff hn hD).mp hq i hi, hread i hi⟩

theorem proveCommitted_complete (hC : C.Ideal committed) (table : RangeTable) {xs : Table p} (tr : Transcript (ZMod p))
    (h : (⟨n, table.bound, xs⟩ : Range (Table p)).Holds) :
    ∃ out, table.proveCommitted C xs tr = .ok out ∧ out.1.commQuery = [pcs.commit xs]
      ∧ table.verifyCommitted C n out.1 tr = .ok (pcs.commit xs, out.2) := by
  obtain rfl : xs.length = n := h.2.1
  obtain ⟨out, hprove, hverify⟩ := hC.committedRange.complete _ tr h
  have hmatch : (C.committedRange.verify ⟨xs.length, table.bound, pcs.commit xs⟩ out.1 tr >>= fun tr' =>
      .ok (pcs.commit xs, tr')) = .ok (pcs.commit xs, out.2) := bind_iff.mpr ⟨out.2, hverify, rfl⟩
  exact ⟨(⟨[pcs.commit xs], out.1⟩, out.2), by rw [RangeTable.proveCommitted, hprove, ok_bind], rfl, hmatch⟩

theorem openAt_checked (hpcs : MatMulSound.Ideal pcs committed) {t : Table p} (h : t.length = 2 ^ rho.length) :
    ∃ o, openAt pcs t rho = .ok o ∧ o.value = mle t rho ∧ checkOpen pcs (pcs.commit t) rho o :=
  ⟨_, by rw [openAt, mleEval_of_length h, ok_bind], rfl, (hpcs.verify_commit h).mpr ⟨rfl, rfl⟩⟩

theorem proveCommittedRequant_complete (hC : C.Ideal committed) (hpcs : MatMulSound.Ideal pcs committed)
    (hn : IsPowerOfTwo acc.length) (h : Fits acc.length bias rTable.bound qTable.bound acc) (tr : Transcript (ZMod p)) :
    ∃ out, proveCommittedRequant C acc bias rTable.bound rTable qTable tr = .ok out
      ∧ verifyCommittedRequant C acc.length bias rTable.bound rTable qTable out.1.2.1 out.1.1 tr = .ok out.2 := by
  have hD := h.divisor_ne_zero hn
  have hdivide := divide_ok_iff.mpr ⟨fun i hi => (h i hi).2, hD, rfl⟩
  obtain ⟨pR, hpR, hqueryR, hverifyR⟩ := proveCommitted_complete hC rTable tr (remainders_holds hn hD)
  obtain ⟨pQ, hpQ, hqueryQ, hverifyQ⟩ := proveCommitted_complete hC qTable pR.2
    ((quotients_holds_iff hn hD).mpr fun i hi => (h i hi).1)
  obtain ⟨rho, hbind, hrho⟩ : ∃ rho, bindDiv acc.length bias rTable.bound (pcs.commit acc)
      (pcs.commit (quotients acc bias rTable.bound)) (pcs.commit (remainders acc bias rTable.bound)) pQ.2 = .ok rho
      ∧ rho.1.length = acc.length.log2 := by
    have hlog : log2Exact acc.length = .ok acc.length.log2 := by
      rw [log2Exact, guarded_of_not (not_not.mpr hn)]
    exact ⟨_, bind_iff.mpr ⟨_, hlog, rfl⟩, length_drawPoint ..⟩
  have hvars : acc.length = 2 ^ rho.1.length := by rw [hrho, hn]
  obtain ⟨accAt, hopenAcc, hacc, hcheckAcc⟩ := openAt_checked hpcs hvars
  obtain ⟨qAt, hopenQ, hq, hcheckQ⟩ := openAt_checked hpcs (t := quotients acc bias rTable.bound)
    ((length_quotients ..).trans hvars)
  obtain ⟨rAt, hopenR, hr, hcheckR⟩ := openAt_checked hpcs (t := remainders acc bias rTable.bound)
    ((length_remainders ..).trans hvars)
  refine ⟨((⟨pR.1, pQ.1, accAt, qAt, rAt⟩, pcs.commit acc, pcs.commit (quotients acc bias rTable.bound),
    quotients acc bias rTable.bound), rho.2), ?_, ?_⟩
  · rw [proveCommittedRequant, guarded_of_not (not_not.mpr hn), guarded_of_not (not_not.mpr rfl), hdivide, ok_bind]
    dsimp only
    rw [hpR, ok_bind, hpQ, ok_bind, hqueryR, hqueryQ, firstComm, ok_bind, firstComm, ok_bind, hbind, ok_bind, hopenAcc,
      ok_bind, hopenQ, ok_bind, hopenR, ok_bind]
  have hpoint : divisionPoint C acc.length bias rTable.bound rTable qTable (pcs.commit acc)
    ⟨pR.1, pQ.1, accAt, qAt, rAt⟩ tr
      = .ok ((pcs.commit (quotients acc bias rTable.bound),
        pcs.commit (remainders acc bias rTable.bound), rho.1), rho.2) := by
    rw [divisionPoint, guarded_of_not (not_or.mpr ⟨not_not.mpr hn, not_not.mpr rfl⟩), hverifyR, ok_bind,
      hverifyQ, ok_bind, hbind, ok_bind]
  -- the extensions satisfy the identity that the columns satisfy
  have hidentity : mle acc rho.1 + bias
      = mle (quotients acc bias rTable.bound) rho.1 * rTable.bound + mle (remainders acc bias rTable.bound) rho.1 :=
    calc mle acc rho.1 + bias = ext rho.1 fun i => entry acc i + bias := by
          rw [ext_add, ext_const]
          rfl
      _ = ext rho.1 fun i => (rTable.bound : ZMod p) * entry (quotients acc bias rTable.bound) i
            + entry (remainders acc bias rTable.bound) i := ext_congr fun i hi => by
          rw [quotients_identity (lt_of_lt_of_eq hi hvars.symm) rTable.bound, mul_comm]
      _ = _ := by
          rw [ext_add, ext_mul, mul_comm]
          rfl
  refine bind_iff.mpr ⟨_, hpoint, guarded_iff.mpr ⟨not_not.mpr ⟨?_, hcheckAcc, hcheckQ, hcheckR⟩, rfl⟩⟩
  rw [hacc, hq, hr]
  exact hidentity

end CommittedForm

/-- **EXACT DIVISION**: an accepted proof is of the floor quotients, the only ones accepted;
    committed, it is at all but few points.  Both provers succeed on the columns that fit,
    and on no other. -/
theorem requant_exact {C : Checks p pcs.Comm} (hC : C.Ideal committed) (hpcs : MatMulSound.Ideal pcs committed)
    {rTable qTable : RangeTable} (hfit : rTable.bound * qTable.bound < p) (bias : ZMod p) :
    (∀ acc q divisor proof tr tr', verifyRequant C acc q bias divisor rTable qTable proof tr = .ok tr' →
      Division acc.length bias rTable.bound qTable.bound acc q proof.r ∧ ∀ q' divisor' proof' tr1 tr1',
          verifyRequant C acc q' bias divisor' rTable qTable proof' tr1 = .ok tr1' → q' = q)
    ∧ (∀ s divisor commAcc commQ commR,
      ¬ Division (2 ^ s) bias rTable.bound qTable.bound (committed commAcc) (committed commQ) (committed commR) →
        fraction (fun v : Fin s → ZMod p =>
          AcceptedAt C (2 ^ s) bias divisor rTable qTable commAcc commQ commR (List.ofFn v)) ≤ s / p)
    ∧ ∀ acc : Table p, IsPowerOfTwo acc.length → ∀ tr,
      ((∃ out, proveRequant C acc bias rTable.bound rTable qTable tr = .ok out
          ∧ verifyRequant C acc out.1.2 bias rTable.bound rTable qTable out.1.1 tr = .ok out.2)
        ↔ Fits acc.length bias rTable.bound qTable.bound acc)
      ∧ ((∃ out, proveCommittedRequant C acc bias rTable.bound rTable qTable tr = .ok out
          ∧ verifyCommittedRequant C acc.length bias rTable.bound rTable qTable out.1.2.1 out.1.1 tr = .ok out.2)
        ↔ Fits acc.length bias rTable.bound qTable.bound acc) ∧ (¬ Fits acc.length bias rTable.bound qTable.bound acc →
        (∀ out, proveRequant C acc bias rTable.bound rTable qTable tr = .ok out →
          ∀ tr0 tr0', verifyRequant C acc out.1.2 bias rTable.bound rTable qTable out.1.1 tr0 ≠ .ok tr0')
        ∧ ∀ out, proveCommittedRequant C acc bias rTable.bound rTable qTable tr = .ok out → ∀ commAcc tr0 tr0',
            verifyCommittedRequant C acc.length bias rTable.bound rTable qTable commAcc out.1.1 tr0 ≠ .ok tr0') := by
  have hclear : ∀ {acc : Table p} {tr tr0 tr0' out}, proveRequant C acc bias rTable.bound rTable qTable tr = .ok out →
      verifyRequant C acc out.1.2 bias rTable.bound rTable qTable out.1.1 tr0 = .ok tr0' →
      Fits acc.length bias rTable.bound qTable.bound acc := fun hprove hverify i hi =>
    ⟨((verifyRequant_sound hC hfit hverify).2 i hi).1, proveRequant_ok hprove i hi⟩
  refine ⟨?_, ?_, fun acc hn tr => ⟨?_, ?_, fun hfits => ⟨?_, ?_⟩⟩⟩
  · intro acc q divisor proof tr tr' h
    obtain ⟨hlen, hdivision⟩ := verifyRequant_sound hC hfit h
    refine ⟨hdivision, fun q' divisor' proof' tr1 tr1' h' => ?_⟩
    obtain ⟨hlen', hdivision'⟩ := verifyRequant_sound hC hfit h'
    exact hdivision.unique hdivision' hlen hlen'
  · intro s divisor commAcc commQ commR hne
    exact acceptedAt_le hC hpcs hfit hne
  · constructor
    · rintro ⟨out, hprove, hverify⟩
      exact hclear hprove hverify
    · exact fun hfits => proveRequant_complete hC hn hfits tr
  · constructor
    · rintro ⟨out, hprove, hverify⟩
      exact proveCommittedRequant_fits hC hpcs hprove hverify
    · exact fun hfits => proveCommittedRequant_complete hC hpcs hn hfits tr
  · exact fun out hprove tr0 tr0' hverify => hfits (hclear hprove hverify)
  · exact fun out hprove commAcc tr0 tr0' hverify => hfits (proveCommittedRequant_fits hC hpcs hprove hverify)

/-! ## Twelve and nine, shifted by one, over four -/

section Samples

open LookupSound (shownPcs shownPcs_ideal)

def sampleChecks : Checks 31 shownPcs.Comm where
  range := checking .reject id Range.Holds
  committedRange := checking .reject id Range.Holds

theorem sampleChecks_ideal : @Checks.Ideal 31 _ shownPcs sampleChecks id where
  range := checking_ideal _ fun _ _ => rfl
  committedRange := checking_ideal _ fun _ _ => rfl

/-- The quotients are proved, and wrong remainders accepted at one point of 31 at most. -/
theorem requant_exact_sample : (∃ out, proveRequant sampleChecks [11, 8] 1 4 ⟨4⟩ ⟨4⟩ (replay []) = .ok out
      ∧ verifyRequant sampleChecks [11, 8] out.1.2 1 4 ⟨4⟩ ⟨4⟩ out.1.1 (replay []) = .ok out.2)
    ∧ fraction (fun v : Fin 1 → ZMod 31 =>
        AcceptedAt sampleChecks (2 ^ 1) 1 4 ⟨4⟩ ⟨4⟩ [11, 8] [3, 2] [0, 0] (List.ofFn v)) ≤ (1 : ℕ) / (31 : ℕ) := by
  obtain ⟨-, hcommitted, hproved⟩ := @requant_exact 31 _ shownPcs id sampleChecks sampleChecks_ideal
    shownPcs_ideal ⟨4⟩ ⟨4⟩ (by decide) 1
  constructor
  · refine (hproved [11, 8] (by decide) (replay [])).1.mpr ?_
    unfold Fits
    decide
  · refine hcommitted 1 4 [11, 8] [3, 2] [0, 0] fun hdivision => ?_
    have hremainder := (hdivision 1 (by decide)).2.2
    revert hremainder
    decide

end Samples

end Requant
