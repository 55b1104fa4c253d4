import Chit402.SumcheckSoundProofs

/-! # The matrix multiplication argument

    `C = A·B` for row-major tables, in the four forms of the prover: with
    the tables in the clear, with `A` and `B` committed, with all three
    committed, and all three committed with `B` transposed.  Each form binds
    its statement, draws a row and a column point, reduces the product to a
    sumcheck over the inner dimension and checks three evaluations.

    The hash of a table and the polynomial commitments are parameters. -/

namespace MatMul

open ExceptFlow Mle FiatShamir Sumcheck Finset

variable {F : Type} [Field F] [DecidableEq F]

/-! ## Instances and proofs -/

/-- An instance `C = A·B`. -/
structure Instance (F : Type) where
  m : ℕ
  k : ℕ
  n : ℕ
  a : List F
  b : List F
  c : List F

structure MatMulProof (F : Type) where
  rx : List F
  ry : List F
  claim : F
  sumcheck : SumcheckProof F
  fFinal : F
  gFinal : F

/-- The product of row-major tables, `m × k` and `k × n`. -/
def product (m k n : ℕ) (a b : List F) : List F :=
  (List.range (m * n)).map fun x => ∑ l ∈ range k, entry a (x / n * k + l) * entry b (l * n + x % n)

/-- `MatMul::new`. -/
def Instance.new (m k n : ℕ) (a b : List F) : Except Abort (Instance F) := do
  revertIf (a.length ≠ m * k) .panic
  revertIf (b.length ≠ k * n) .panic
  .ok { m := m, k := k, n := n, a := a, b := b, c := product m k n a b }

def littleEndian (width x : ℕ) : List UInt8 := (List.range width).map fun i => UInt8.ofNat (x / 256 ^ i)

def encodeDims (m k n : ℕ) : List UInt8 := littleEndian 8 m ++ littleEndian 8 k ++ littleEndian 8 n

/-- A polynomial commitment scheme, with its keys fixed. -/
structure Pcs (F : Type) where
  Comm : Type
  Opening : Type
  commit : List F → Comm
  open' : List F → List F → Opening
  bytes : Comm → List UInt8
  verify : Comm → List F → F → Opening → Bool

/-! ## Binding -/

section Binding

/-- The row and the column point. -/
def drawPoints (m n : ℕ) (tr : Transcript F) : Except Abort ((List F × List F) × Transcript F) := do
  let rows ← log2Exact m
  let rx := drawPoint rows (label "rx") tr
  let columns ← log2Exact n
  let ry := drawPoint columns (label "ry") rx.2
  .ok ((rx.1, ry.1), ry.2)

variable (commitTable : List F → List UInt8) (pcs : Pcs F)

/-- What `bind_and_draw` absorbs. -/
def bind (m k n : ℕ) (c : List F) (tr : Transcript F) : Transcript F :=
  (tr.absorbBytes (label "dims") (encodeDims m k n)).absorbBytes (label "C") (commitTable c)

def bindCommitted (m k n : ℕ) (c : List F) (commA commB : pcs.Comm) (tr : Transcript F) : Transcript F :=
  ((bind commitTable m k n c tr).absorbBytes (label "commA") (pcs.bytes commA)).absorbBytes (label "commB")
    (pcs.bytes commB)

def bindIo (m k n : ℕ) (commA commB commC : pcs.Comm) (tr : Transcript F) : Transcript F :=
  (((tr.absorbBytes (label "dims") (encodeDims m k n)).absorbBytes (label "ioA") (pcs.bytes commA)).absorbBytes
    (label "ioB") (pcs.bytes commB)).absorbBytes (label "ioC") (pcs.bytes commC)

def bindAndDraw (m k n : ℕ) (c : List F) (tr : Transcript F) : Except Abort ((List F × List F) × Transcript F) :=
  drawPoints m n (bind commitTable m k n c tr)

def bindAndDrawCommitted (m k n : ℕ) (c : List F) (commA commB : pcs.Comm) (tr : Transcript F) :
    Except Abort ((List F × List F) × Transcript F) :=
  drawPoints m n (bindCommitted commitTable pcs m k n c commA commB tr)

def bindAndDrawIo (m k n : ℕ) (commA commB commC : pcs.Comm) (tr : Transcript F) :
    Except Abort ((List F × List F) × Transcript F) :=
  drawPoints m n (bindIo pcs m k n commA commB commC tr)

end Binding

/-! ## Proving -/

section Core

/-- `Ĉ(rx, ry)` from the weights; a table that is too short is read out of bounds. -/
def cHat (c : List F) (m n : ℕ) (eqx eqy : List F) : Except Abort F := do
  revertIf (c.length < m * n) .panic
  .ok (∑ i ∈ range m, entry eqx i * ∑ j ∈ range n, entry eqy j * entry c (i * n + j))

/-- `f[l] = Â(rx, l)`. -/
def rowFold (mm : Instance F) (rx : List F) : List F :=
  (List.range mm.k).map fun l => ∑ i ∈ range mm.m, entry (eqWeights rx) i * entry mm.a (i * mm.k + l)

/-- `g[l] = B̂(l, ry)`. -/
def columnFold (mm : Instance F) (ry : List F) : List F :=
  (List.range mm.k).map fun l => ∑ j ∈ range mm.n, entry (eqWeights ry) j * entry mm.b (l * mm.n + j)

/-- The proof, and the challenges of its sumcheck. -/
def proveCore (mm : Instance F) (rx ry : List F) (tr : Transcript F) :
    Except Abort ((MatMulProof F × List F) × Transcript F) := do
  let claim ← cHat mm.c mm.m mm.n (eqWeights rx) (eqWeights ry)
  let out ← proveProduct (rowFold mm rx) (columnFold mm ry) tr
  .ok (({
    rx := rx
    ry := ry
    claim := claim
    sumcheck := out.1.1
    fFinal := out.1.2.2.1
    gFinal := out.1.2.2.2 }, out.1.2.1), out.2)

end Core

section Prove

variable (commitTable : List F → List UInt8) (pcs : Pcs F)

def prove (mm : Instance F) (tr : Transcript F) : Except Abort (MatMulProof F × Transcript F) := do
  let points ← bindAndDraw commitTable mm.m mm.k mm.n mm.c tr
  let out ← proveCore mm points.1.1 points.1.2 points.2
  .ok (out.1.1, out.2)

structure CommittedMatMulProof where
  inner : MatMulProof F
  openA : pcs.Opening
  openB : pcs.Opening

/-- `Â` is opened at `rx ++ ch`, `B̂` at `ch ++ ry`. -/
def proveCommitted (mm : Instance F) (tr : Transcript F) :
    Except Abort ((CommittedMatMulProof pcs × pcs.Comm × pcs.Comm) × Transcript F) := do
  let commA := pcs.commit mm.a
  let commB := pcs.commit mm.b
  let points ← bindAndDrawCommitted commitTable pcs mm.m mm.k mm.n mm.c commA commB tr
  let out ← proveCore mm points.1.1 points.1.2 points.2
  .ok (({
    inner := out.1.1
    openA := pcs.open' mm.a (points.1.1 ++ out.1.2)
    openB := pcs.open' mm.b (out.1.2 ++ points.1.2) }, commA, commB), out.2)

structure CommittedIoMatMulProof where
  inner : MatMulProof F
  openA : pcs.Opening
  openB : pcs.Opening
  openC : pcs.Opening

/-- `Ĉ` is opened at `rx ++ ry`. -/
def proveCommittedIo (mm : Instance F) (tr : Transcript F) :
    Except Abort ((CommittedIoMatMulProof pcs × pcs.Comm × pcs.Comm × pcs.Comm) × Transcript F) := do
  let commA := pcs.commit mm.a
  let commB := pcs.commit mm.b
  let commC := pcs.commit mm.c
  let points ← bindAndDrawIo pcs mm.m mm.k mm.n commA commB commC tr
  let out ← proveCore mm points.1.1 points.1.2 points.2
  .ok (({
    inner := out.1.1
    openA := pcs.open' mm.a (points.1.1 ++ out.1.2)
    openB := pcs.open' mm.b (out.1.2 ++ points.1.2)
    openC := pcs.open' mm.c (points.1.1 ++ points.1.2) }, commA, commB, commC), out.2)

/-- `transpose_rm`: a row-major `rows × cols` table, by columns. -/
def transposeRm (mat : List F) (rows cols : ℕ) : List F :=
  (List.range (rows * cols)).map fun x => entry mat (x % rows * cols + x / rows)

/-- `B` is committed as it is, `n × k`, and opened at the swapped point `ry ++ ch`. -/
def proveCommittedIoBt (a b : List F) (m k n : ℕ) (tr : Transcript F) :
    Except Abort ((CommittedIoMatMulProof pcs × pcs.Comm × pcs.Comm × pcs.Comm) × Transcript F) := do
  revertIf (a.length ≠ m * k) .panic
  revertIf (b.length ≠ n * k) .panic
  let mm ← Instance.new m k n a (transposeRm b n k)
  let commA := pcs.commit a
  let commB := pcs.commit b
  let commC := pcs.commit mm.c
  let points ← bindAndDrawIo pcs m k n commA commB commC tr
  let out ← proveCore mm points.1.1 points.1.2 points.2
  .ok (({
    inner := out.1.1
    openA := pcs.open' a (points.1.1 ++ out.1.2)
    openB := pcs.open' b (points.1.2 ++ out.1.2)
    openC := pcs.open' mm.c (points.1.1 ++ points.1.2) }, commA, commB, commC), out.2)

end Prove

/-! ## Verifying -/

section Verify

/-- What all forms check: the points are those drawn, `claimed` about the claim, and the
    sumcheck ends with the product of the two finals.  The challenges of the sumcheck. -/
def verifyReduction (rx ry : List F) (proof : MatMulProof F) (claimed : Except Abort Unit) (tr : Transcript F) :
    Except Abort (List F × Transcript F) := do
  revertIf (rx ≠ proof.rx ∨ ry ≠ proof.ry) .reject
  claimed
  let out ← verifyProduct proof.sumcheck proof.claim tr
  revertIf (out.1.2 ≠ proof.fFinal * proof.gFinal) .reject
  .ok (out.1.1, out.2)

/-- The claim is the extension of `C` that the verifier computes. -/
def checkClaim (c : List F) (m n : ℕ) (rx ry : List F) (claim : F) : Except Abort Unit := do
  let expected ← cHat c m n (eqWeights rx) (eqWeights ry)
  revertIf (expected ≠ claim) .reject

variable (commitTable : List F → List UInt8) (pcs : Pcs F)

/-- A proof that is refused ends the run; the transcript after one that is accepted. -/
def verify (m k n : ℕ) (a b c : List F) (proof : MatMulProof F) (tr : Transcript F) : Except Abort (Transcript F) := do
  let points ← bindAndDraw commitTable m k n c tr
  let out ← verifyReduction points.1.1 points.1.2 proof (checkClaim c m n points.1.1 points.1.2 proof.claim) points.2
  let fExpected ← mleEval a (points.1.1 ++ out.1)
  let gExpected ← mleEval b (out.1 ++ points.1.2)
  revertIf (proof.fFinal ≠ fExpected ∨ proof.gFinal ≠ gExpected) .reject
  .ok out.2

def verifyCommitted (m k n : ℕ) (commA commB : pcs.Comm) (c : List F) (proof : CommittedMatMulProof pcs)
    (tr : Transcript F) : Except Abort (Transcript F) := do
  let inner := proof.inner
  let points ← bindAndDrawCommitted commitTable pcs m k n c commA commB tr
  let out ← verifyReduction points.1.1 points.1.2 inner (checkClaim c m n points.1.1 points.1.2 inner.claim) points.2
  revertIf (pcs.verify commA (points.1.1 ++ out.1) inner.fFinal proof.openA = false) .reject
  revertIf (pcs.verify commB (out.1 ++ points.1.2) inner.gFinal proof.openB = false) .reject
  .ok out.2

/-- The two forms with every table committed, which open `B` at their own point. -/
def verifyIo (openPoint : List F → List F → List F) (m k n : ℕ) (commA commB commC : pcs.Comm)
    (proof : CommittedIoMatMulProof pcs) (tr : Transcript F) : Except Abort (Transcript F) := do
  let inner := proof.inner
  let points ← bindAndDrawIo pcs m k n commA commB commC tr
  let out ← verifyReduction points.1.1 points.1.2 inner (.ok ()) points.2
  revertIf (pcs.verify commA (points.1.1 ++ out.1) inner.fFinal proof.openA = false) .reject
  revertIf (pcs.verify commB (openPoint points.1.2 out.1) inner.gFinal proof.openB = false) .reject
  revertIf (pcs.verify commC (points.1.1 ++ points.1.2) inner.claim proof.openC = false) .reject
  .ok out.2

def verifyCommittedIo (m k n : ℕ) (commA commB commC : pcs.Comm) (proof : CommittedIoMatMulProof pcs)
    (tr : Transcript F) : Except Abort (Transcript F) :=
  verifyIo pcs (fun ry ch => ch ++ ry) m k n commA commB commC proof tr

def verifyCommittedIoBt (m k n : ℕ) (commA commB commC : pcs.Comm) (proof : CommittedIoMatMulProof pcs)
    (tr : Transcript F) : Except Abort (Transcript F) :=
  verifyIo pcs (fun ry ch => ry ++ ch) m k n commA commB commC proof tr

end Verify

end MatMul
