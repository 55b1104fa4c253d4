import Chit402.LogupProofs
import Chit402.MatMulSoundProofs

/-! # The lookup argument

    Every row of the query columns is a row of the table columns: rows are
    folded with `γ`, and the fractions `1/(β - q)` and `m/(β - τ)` are sent
    as advice that two zero checks tie to the folds.  The form in the clear
    adds the fractions up and evaluates the tables itself; the committed
    form has two more sumchecks and openings for that. -/

namespace Lookup

open ExceptFlow Mle FiatShamir Sumcheck

open MatMul (Pcs)

variable {F : Type} [Field F] [DecidableEq F]

/-! ## Columns -/

section Columns

def firstColumn : List (List F) → Except Abort (List F)
  | [] => .error .panic
  | col :: _ => .ok col

/-- The row that the index has for a code: a later row replaces an earlier one. -/
def codeIndex (tableCode : List F) (code : F) : Except Abort ℕ :=
  match ((List.range tableCode.length).filter fun j => entry tableCode j = code).getLast? with
  | some j => .ok j
  | none => .error .panic

def multiplicities (queryCode tableCode : List F) : Except Abort (List F) :=
  queryCode.foldlM (fun m code => do
    let j ← codeIndex tableCode code
    .ok (m.modify j (· + 1))) (List.replicate tableCode.length 0)

def foldValues (vals : List F) (gamma : F) : F :=
  (vals.foldl (fun st v => (st.1 + st.2 * v, st.2 * gamma)) (0, 1)).1

/-- Entry by entry; the columns have the length of the first where this is called. -/
def foldColumns (cols : List (List F)) (gamma : F) : List F :=
  (List.range (cols.headD []).length).map fun i => foldValues (cols.map fun col => entry col i) gamma

/-- `a_i = 1/(β - q_i)`. -/
def queryFractions (beta : F) (q : List F) : Except Abort (List F) := q.mapM fun qi => inverse (beta - qi)

/-- `b_j = m_j/(β - τ_j)`. -/
def tableFractions (beta : F) (tau m : List F) : Except Abort (List F) :=
  (tau.zip m).mapM fun x => do
    let inv ← inverse (beta - x.1)
    .ok (x.2 * inv)

abbrev IsPowerOfTwo (n : ℕ) : Prop := 2 ^ n.log2 = n

/-- What is asked of the columns before anything is bound, where `stop` is how it ends. -/
def checkColumns (stop : Abort) (cols : List (List F)) (n : ℕ) : Except Abort Unit :=
  revertIf (∃ col ∈ cols, col.length ≠ n) stop

end Columns

/-! ## Zero checks -/

section ZeroCheck

/-- `Σ_x eq(r,x)·a(x)·q(x)` at a point of its own: the sumcheck, the point and the challenges. -/
def proveZeroCheck (lbl : List UInt8) (n : ℕ) (a q : List F) (tr : Transcript F) :
    Except Abort ((MultiSumcheckProof F × List F × List F) × Transcript F) := do
  let s ← log2Exact n
  let r := drawPoint s lbl tr
  let out ← proveProductMulti [eqWeights r.1, a, q] r.2
  .ok ((out.1.1, r.1, out.1.2.1), out.2)

/-- The point, the challenges and the claim that is left. -/
def zeroCheckRounds (lbl : List UInt8) (n : ℕ) (claim : List F → Except Abort F) (sc : MultiSumcheckProof F)
    (tr : Transcript F) : Except Abort ((List F × List F × F) × Transcript F) := do
  let s ← log2Exact n
  let r := drawPoint s lbl tr
  let value ← claim r.1
  let out ← verifyProductMulti sc value r.2
  .ok ((r.1, out.1.1, out.1.2), out.2)

end ZeroCheck

/-! ## In the clear -/

section Clear

structure LookupProof (F : Type) where
  a : List F
  b : List F
  m : List F
  scQ : MultiSumcheckProof F
  scT : MultiSumcheckProof F

variable (commitTable : List F → List UInt8)

/-- The last byte of a label is the position of the column. -/
def absorbColumns (cols : List (List F)) (tr : Transcript F) : Transcript F :=
  cols.zipIdx.foldl (fun tr col => tr.absorbBytes (label "lk." ++ [UInt8.ofNat col.2]) (commitTable col.1)) tr

/-- `(γ, β)`. -/
def bindAndChallenge (queryCols tableCols : List (List F)) (m : List F) (tr : Transcript F) : (F × F) × Transcript F :=
  let tr := absorbColumns commitTable tableCols (absorbColumns commitTable queryCols tr)
  let gamma := (tr.absorbBytes (label "lk.m") (commitTable m)).challenge (label "lk.gamma")
  let beta := gamma.2.challenge (label "lk.beta")
  ((gamma.1, beta.1), beta.2)

def absorbAdvice (a b : List F) (tr : Transcript F) : Transcript F :=
  (tr.absorbBytes (label "lk.a") (commitTable a)).absorbBytes (label "lk.b") (commitTable b)

def proveLookup (queryCols tableCols : List (List F)) (tr : Transcript F) :
    Except Abort (LookupProof F × Transcript F) := do
  let queryCode ← firstColumn queryCols
  let tableCode ← firstColumn tableCols
  revertIf (¬ (IsPowerOfTwo queryCode.length ∧ IsPowerOfTwo tableCode.length)) .panic
  checkColumns .panic queryCols queryCode.length
  checkColumns .panic tableCols tableCode.length
  let m ← multiplicities queryCode tableCode
  let bound := bindAndChallenge commitTable queryCols tableCols m tr
  let q := foldColumns queryCols bound.1.1
  let tau := foldColumns tableCols bound.1.1
  let a ← queryFractions bound.1.2 q
  let b ← tableFractions bound.1.2 tau m
  let zq ← proveZeroCheck (label "lk.r2") queryCode.length a q (absorbAdvice commitTable a b bound.2)
  let zt ← proveZeroCheck (label "lk.r3") tableCode.length b tau zq.2
  .ok (⟨a, b, m, zq.1.1, zt.1.1⟩, zt.2)

/-- A zero check with the tables at hand: `target` is what the equation adds up to. -/
def verifyZeroCheck (lbl : List UInt8) (n : ℕ) (beta : F) (a q : List F) (target : List F → Except Abort F)
    (sc : MultiSumcheckProof F) (tr : Transcript F) : Except Abort (Transcript F) := do
  let out ← zeroCheckRounds lbl n (fun r => do
    let aR ← mleEval a r
    let value ← target r
    .ok (beta * aR - value)) sc tr
  let aCh ← mleEval a out.1.2.1
  let qCh ← mleEval q out.1.2.1
  revertIf (out.1.2.2 ≠ eqEval out.1.1 out.1.2.1 * aCh * qCh) .reject
  .ok out.2

def verifyLookup (queryCols tableCols : List (List F)) (proof : LookupProof F) (tr : Transcript F) :
    Except Abort (Transcript F) := do
  let queryCode ← firstColumn queryCols
  let tableCode ← firstColumn tableCols
  revertIf (¬ IsPowerOfTwo queryCode.length ∨ ¬ IsPowerOfTwo tableCode.length) .reject
  revertIf (proof.a.length ≠ queryCode.length ∨ proof.b.length ≠ tableCode.length ∨ proof.m.length ≠ tableCode.length)
    .reject
  checkColumns .reject queryCols queryCode.length
  checkColumns .reject tableCols tableCode.length
  let bound := bindAndChallenge commitTable queryCols tableCols proof.m tr
  let q := foldColumns queryCols bound.1.1
  let tau := foldColumns tableCols bound.1.1
  revertIf (proof.a.sum ≠ proof.b.sum) .reject
  let tr ← verifyZeroCheck (label "lk.r2") queryCode.length bound.1.2 proof.a q (fun _ => .ok 1) proof.scQ
    (absorbAdvice commitTable proof.a proof.b bound.2)
  verifyZeroCheck (label "lk.r3") tableCode.length bound.1.2 proof.b tau (mleEval proof.m) proof.scT tr

end Clear

/-! ## Committed -/

section Committed

variable (pcs : Pcs F)

/-- `pcs::Opening`: a value, and the proof of it. -/
structure Opened where
  value : F
  proof : pcs.Opening

def openAt (t point : List F) : Except Abort (Opened pcs) := do
  let value ← mleEval t point
  .ok ⟨value, pcs.open' t point⟩

def checkOpen (comm : pcs.Comm) (point : List F) (o : Opened pcs) : Bool := pcs.verify comm point o.value o.proof

structure CommittedLookupProof where
  sum : F
  scSumA : MultiSumcheckProof F
  scSumB : MultiSumcheckProof F
  scQ : MultiSumcheckProof F
  scT : MultiSumcheckProof F
  commQuery : List pcs.Comm
  commTable : List pcs.Comm
  commM : pcs.Comm
  commA : pcs.Comm
  commB : pcs.Comm
  aCha : Opened pcs
  aR2 : Opened pcs
  aCh2 : Opened pcs
  bChb : Opened pcs
  bR3 : Opened pcs
  bCh3 : Opened pcs
  mR3 : Opened pcs
  queryCh2 : List (Opened pcs)
  tableCh3 : List (Opened pcs)

variable {pcs}

def absorbComms (lbl : List UInt8) (comms : List pcs.Comm) (tr : Transcript F) : Transcript F :=
  comms.foldl (fun tr comm => tr.absorbBytes lbl (pcs.bytes comm)) tr

def bindCommitted (commQuery commTable : List pcs.Comm) (commM : pcs.Comm) (tr : Transcript F) :
    (F × F) × Transcript F :=
  let tr := absorbComms (label "clk.t") commTable (absorbComms (label "clk.q") commQuery tr)
  let gamma := (tr.absorbBytes (label "clk.m") (pcs.bytes commM)).challenge (label "clk.gamma")
  let beta := gamma.2.challenge (label "clk.beta")
  ((gamma.1, beta.1), beta.2)

/-- The commitments to the advice and the claimed sum, absorbed. -/
def absorbSum (commA commB : pcs.Comm) (sum : F) (tr : Transcript F) : Transcript F :=
  ((tr.absorbBytes (label "clk.a") (pcs.bytes commA)).absorbBytes (label "clk.b") (pcs.bytes commB)).absorbField
    (label "clk.sum") sum

variable (pcs)

def proveCommittedLookup (queryCols tableCols : List (List F)) (tr : Transcript F) :
    Except Abort (CommittedLookupProof pcs × Transcript F) := do
  let queryCode ← firstColumn queryCols
  let tableCode ← firstColumn tableCols
  revertIf (¬ (IsPowerOfTwo queryCode.length ∧ IsPowerOfTwo tableCode.length)) .panic
  checkColumns .panic queryCols queryCode.length
  checkColumns .panic tableCols tableCode.length
  let m ← multiplicities queryCode tableCode
  let commQuery := queryCols.map pcs.commit
  let commTable := tableCols.map pcs.commit
  let commM := pcs.commit m
  let bound := bindCommitted commQuery commTable commM tr
  let q := foldColumns queryCols bound.1.1
  let tau := foldColumns tableCols bound.1.1
  let a ← queryFractions bound.1.2 q
  let b ← tableFractions bound.1.2 tau m
  let commA := pcs.commit a
  let commB := pcs.commit b
  let sumA ← proveProductMulti [a] (absorbSum commA commB a.sum bound.2)
  let sumB ← proveProductMulti [b] sumA.2
  let zq ← proveZeroCheck (label "clk.r2") queryCode.length a q sumB.2
  let zt ← proveZeroCheck (label "clk.r3") tableCode.length b tau zq.2
  let aCha ← openAt pcs a sumA.1.2.1
  let bChb ← openAt pcs b sumB.1.2.1
  let aR2 ← openAt pcs a zq.1.2.1
  let aCh2 ← openAt pcs a zq.1.2.2
  let bR3 ← openAt pcs b zt.1.2.1
  let bCh3 ← openAt pcs b zt.1.2.2
  let mR3 ← openAt pcs m zt.1.2.1
  let queryCh2 ← queryCols.mapM fun col => openAt pcs col zq.1.2.2
  let tableCh3 ← tableCols.mapM fun col => openAt pcs col zt.1.2.2
  .ok ({
    sum := a.sum
    scSumA := sumA.1.1
    scSumB := sumB.1.1
    scQ := zq.1.1
    scT := zt.1.1
    commQuery := commQuery
    commTable := commTable
    commM := commM
    commA := commA
    commB := commB
    aCha := aCha
    aR2 := aR2
    aCh2 := aCh2
    bChb := bChb
    bR3 := bR3
    bCh3 := bCh3
    mR3 := mR3
    queryCh2 := queryCh2
    tableCh3 := tableCh3 }, zt.2)

variable {pcs}

/-- The openings, at the points that the run has drawn. -/
def Opens (proof : CommittedLookupProof pcs) (cha chb r2 ch2 r3 ch3 : List F) : Prop :=
  checkOpen pcs proof.commA cha proof.aCha ∧ checkOpen pcs proof.commA r2 proof.aR2
  ∧ checkOpen pcs proof.commA ch2 proof.aCh2 ∧ checkOpen pcs proof.commB chb proof.bChb
  ∧ checkOpen pcs proof.commB r3 proof.bR3 ∧ checkOpen pcs proof.commB ch3 proof.bCh3
  ∧ checkOpen pcs proof.commM r3 proof.mR3
  ∧ (proof.commQuery.zip proof.queryCh2).all (fun x => checkOpen pcs x.1 ch2 x.2)
  ∧ (proof.commTable.zip proof.tableCh3).all fun x => checkOpen pcs x.1 ch3 x.2

instance (proof : CommittedLookupProof pcs) (cha chb r2 ch2 r3 ch3 : List F) :
    Decidable (Opens proof cha chb r2 ch2 r3 ch3) := inferInstanceAs (Decidable (_ ∧ _))

/-- A sumcheck of the one table that an opened value is of. -/
def verifySum (sc : MultiSumcheckProof F) (sum value : F) (tr : Transcript F) :
    Except Abort (List F × Transcript F) := do
  let out ← verifyProductMulti sc sum tr
  revertIf (value ≠ out.1.2) .reject
  .ok (out.1.1, out.2)

/-- A zero check on opened values: the point and the challenges. -/
def verifyZeroOpened (lbl : List UInt8) (n : ℕ) (claim aCh qCh : F) (sc : MultiSumcheckProof F) (tr : Transcript F) :
    Except Abort ((List F × List F) × Transcript F) := do
  let out ← zeroCheckRounds lbl n (fun _ => .ok claim) sc tr
  revertIf (out.1.2.2 ≠ eqEval out.1.1 out.1.2.1 * aCh * qCh) .reject
  .ok ((out.1.1, out.1.2.1), out.2)

def verifyCommittedLookup (n t : ℕ) (proof : CommittedLookupProof pcs) (tr : Transcript F) :
    Except Abort (Transcript F) := do
  revertIf (¬ IsPowerOfTwo n ∨ ¬ IsPowerOfTwo t) .reject
  revertIf (proof.queryCh2.length ≠ proof.commQuery.length ∨ proof.tableCh3.length ≠ proof.commTable.length) .reject
  let bound := bindCommitted proof.commQuery proof.commTable proof.commM tr
  let sumA ← verifySum proof.scSumA proof.sum proof.aCha.value (absorbSum proof.commA proof.commB proof.sum bound.2)
  let sumB ← verifySum proof.scSumB proof.sum proof.bChb.value sumA.2
  let zq ← verifyZeroOpened (label "clk.r2") n (bound.1.2 * proof.aR2.value - 1) proof.aCh2.value
    (foldValues (proof.queryCh2.map (·.value)) bound.1.1) proof.scQ sumB.2
  let zt ← verifyZeroOpened (label "clk.r3") t (bound.1.2 * proof.bR3.value - proof.mR3.value) proof.bCh3.value
    (foldValues (proof.tableCh3.map (·.value)) bound.1.1) proof.scT zq.2
  revertIf (¬ Opens proof sumA.1 sumB.1 zq.1.1 zq.1.2 zt.1.1 zt.1.2) .reject
  .ok zt.2

end Committed

end Lookup
