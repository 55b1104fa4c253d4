import Chit402.CustodyProofs
import Chit402.SolidityProofs

/-! # The proof verifier

    `ZKVerifierSP1`: proofs of registered circuits are passed to the SP1
    gateway, and each is tied to a nullifier that is spent with it, whether
    the gateway accepts or not.

    How the gateway, the staking precompile and the mailbox answer is data.
    A delivered message may reach the contract again while one is sent.
    The log of events, the proofs the gateway accepted and the nullifiers
    received from elsewhere stand beside the storage. -/

namespace ZKVerifier

open ExceptFlow Solidity Function

/-! ## State -/

inductive Role where
  | defaultAdmin | operator | circuitManager | relayer
deriving DecidableEq

structure ComposedCallProof where
  stateRoot : Word
  sourceBlock : Nat
  targetContract : Address
  resultHash : Word
deriving DecidableEq

structure RollupBatch where
  batchRoot : Word
  nullifiers : List Word
  circuitIds : List Word
  proofCount : Nat
  amortizedGas : Nat
  settledAt : Nat
  submitter : Address

structure RecursiveNullifier where
  parentNullifier : Word
  batchRoot : Word
  depth : Nat
  verified : Bool

structure State where
  paused : Bool
  circuits : Word → Word
  circuitCount : Nat
  sp1Gateway : Address
  usedNullifiers : Word → Bool
  totalVerified : Nat
  totalFailed : Nat
  totalComposedCalls : Nat
  totalRelayed : Nat
  totalStakeChecked : Nat
  failureWindowStart : Nat
  failuresInWindow : Nat
  verificationsInWindow : Nat
  composedCalls : Word → ComposedCallProof
  totalRecursiveVerified : Nat
  totalRollupBatches : Nat
  rollupBatches : Nat → RollupBatch
  recursiveNullifiers : Word → RecursiveNullifier
  mailbox : Address
  supportedDomains : Nat → Bool
  trustedRemotes : Nat → Word
  stakingPrecompile : Address
  minStakeForProof : Nat
  stakeCheckEnabled : Bool

/-- 5%. -/
def maxFailureRateBps : Nat := 500

/-- One hour. -/
def failureWindow : Nat := 3600

def noCall : ComposedCallProof where
  stateRoot := 0
  sourceBlock := 0
  targetContract := 0
  resultHash := 0

def noBatch : RollupBatch where
  batchRoot := 0
  nullifiers := []
  circuitIds := []
  proofCount := 0
  amortizedGas := 0
  settledAt := 0
  submitter := 0

def noEntry : RecursiveNullifier where
  parentNullifier := 0
  batchRoot := 0
  depth := 0
  verified := false

/-- The constructor, at block time `now`. -/
def deploy (sp1Gateway : Address) (now : Nat) : State where
  paused := false
  circuits := fun _ => 0
  circuitCount := 0
  sp1Gateway := sp1Gateway
  usedNullifiers := fun _ => false
  totalVerified := 0
  totalFailed := 0
  totalComposedCalls := 0
  totalRelayed := 0
  totalStakeChecked := 0
  failureWindowStart := now
  failuresInWindow := 0
  verificationsInWindow := 0
  composedCalls := fun _ => noCall
  totalRecursiveVerified := 0
  totalRollupBatches := 0
  rollupBatches := fun _ => noBatch
  recursiveNullifiers := fun _ => noEntry
  mailbox := 0
  supportedDomains := fun _ => false
  trustedRemotes := fun _ => 0
  stakingPrecompile := 0
  minStakeForProof := 0
  stakeCheckEnabled := false

inductive Event where
  | proofVerified (circuitId nullifier publicValuesHash : Word) (verifier : Address) (timestamp : Nat)
  | proofFailed (circuitId : Word) (verifier : Address) (reason : String) (timestamp : Nat)
  | circuitBreakerTriggered (failureRate window : Nat)
  | composedCallVerified (circuitId nullifier stateRoot : Word) (sourceBlock : Nat)
      (targetContract verifier : Address) (timestamp : Nat)
  | proofRelayed (circuitId nullifier : Word) (destDomain : Nat) (messageId : Word) (timestamp : Nat)
  | crossChainProofReceived (originDomain : Nat) (circuitId nullifier publicValuesHash : Word) (timestamp : Nat)
  | rollupSettled (batchId : Nat) (batchRoot : Word) (proofCount amortizedGasPerProof : Nat)
      (submitter : Address) (timestamp : Nat)
  | recursiveProofVerified (nullifier parentNullifier batchRoot : Word) (depth timestamp : Nat)

/-- A proof the gateway accepted, and the nullifiers it was submitted for. -/
structure Proof where
  nullifiers : List Word
  programVKey : Word
  publicValues : List UInt8
  proofBytes : List UInt8

/-- The contract, its events, the proofs accepted and the nullifiers received. -/
structure World where
  state : State
  log : List Event
  proofs : List Proof
  received : List Word

def World.put (s : State) (w : World) : World := { w with state := s }

@[simp] theorem World.put_state (s : State) (w : World) : (w.put s).state = s := rfl

def World.emit (e : Event) (w : World) : World := { w with log := w.log ++ [e] }

inductive Revert where
  | enforcedPause | expectedPause
  | unauthorized (account : Address) (role : Role)
  | circuitNotRegistered (circuitId : Word)
  | nullifierAlreadyUsed (nullifier : Word)
  | circuitBreakerActive
  | unsupportedDomain (domain : Nat)
  | untrustedRemote (domain : Nat) (sender : Word)
  | insufficientStake (actual required : Nat)
  | stakeQueryFailed | noMailbox | zeroVKey | notRegistered | invalidBatchParams | noRemote
  | proofInvalid | insufficientBridgeFee | dispatchFailed | refundFailed | onlyMailbox | badPayload
  | invalidBatchSize | circuitIdMismatch | batchRootMismatch | invalidDepth | parentNotVerified
  | noCode | panic
deriving DecidableEq

/-- The caller with its roles, and the block. -/
structure Msg where
  sender : Address
  timestamp : Nat
  holds : Role → Bool

/-- The gateway returns, or reverts, or the address has no code. -/
inductive GatewayReply where
  | accepts | rejects | noCode
deriving DecidableEq

/-! ## Configuration, and messages from elsewhere -/

section Configuration

variable (m : Msg)

def onlyRole (role : Role) : Except Revert Unit :=
  revertIf (m.holds role = false) (.unauthorized m.sender role)

def registerCircuit (circuitId programVKey : Word) (s : State) : Except Revert State := do
  onlyRole m .circuitManager
  revertIf (programVKey = 0) .zeroVKey
  let circuitCount ← addU .panic s.circuitCount (if s.circuits circuitId = 0 then 1 else 0)
  .ok { s with circuits := update s.circuits circuitId programVKey, circuitCount := circuitCount }

def removeCircuit (circuitId : Word) (s : State) : Except Revert State := do
  onlyRole m .circuitManager
  revertIf (s.circuits circuitId = 0) .notRegistered
  let circuitCount ← subU .panic s.circuitCount 1
  .ok { s with circuits := update s.circuits circuitId 0, circuitCount := circuitCount }

def setGateway (newGateway : Address) (s : State) : Except Revert State := do
  onlyRole m .defaultAdmin
  .ok { s with sp1Gateway := newGateway }

def setMailbox (mailbox : Address) (s : State) : Except Revert State := do
  onlyRole m .defaultAdmin
  .ok { s with mailbox := mailbox }

def configureDomain (domain : Nat) (remote : Word) (supported : Bool) (s : State) : Except Revert State := do
  onlyRole m .defaultAdmin
  .ok { s with
    supportedDomains := update s.supportedDomains domain supported
    trustedRemotes := update s.trustedRemotes domain remote }

def setStakeCheck (precompile : Address) (minStake : Nat) (enabled : Bool) (s : State) : Except Revert State := do
  onlyRole m .defaultAdmin
  .ok { s with stakingPrecompile := precompile, minStakeForProof := minStake, stakeCheckEnabled := enabled }

def pause (s : State) : Except Revert State := do
  onlyRole m .operator
  revertIf s.paused .enforcedPause
  .ok { s with paused := true }

def unpause (s : State) : Except Revert State := do
  onlyRole m .operator
  revertIf (¬ s.paused) .expectedPause
  .ok { s with paused := false }

/-- The payload of a relayed proof. -/
structure ProofMessage where
  circuitId : Word
  nullifier : Word
  publicValuesHash : Word
  originalVerifier : Word
  originTimestamp : Nat

def payloadWord (body : List UInt8) (i : Nat) : Word := bytesWord ((body.drop (32 * i)).take 32)

/-- `abi.decode`; an address has its upper bits clear. -/
def decodePayload (body : List UInt8) : Option ProofMessage :=
  if body.length < 160 ∨ 2 ^ 160 ≤ (payloadWord body 3).toNat then none
  else some {
    circuitId := payloadWord body 0
    nullifier := payloadWord body 1
    publicValuesHash := payloadWord body 2
    originalVerifier := payloadWord body 3
    originTimestamp := (payloadWord body 4).toNat }

def spend (nullifier : Word) (s : State) : State :=
  { s with usedNullifiers := update s.usedNullifiers nullifier true }

/-- A nullifier that is not spent here counts as verified. -/
def receiveProof (origin : Nat) (msg : ProofMessage) (w : World) : Except Revert World :=
  if w.state.usedNullifiers msg.nullifier then .ok w
  else do
    let totalVerified ← addU .panic w.state.totalVerified 1
    let w := w.put { spend msg.nullifier w.state with totalVerified := totalVerified }
    let w := w.emit (.crossChainProofReceived origin msg.circuitId msg.nullifier msg.publicValuesHash m.timestamp)
    let w := w.emit (.proofVerified msg.circuitId msg.nullifier msg.publicValuesHash
      (BitVec.ofNat 160 msg.originalVerifier.toNat) msg.originTimestamp)
    .ok { w with received := w.received ++ [msg.nullifier] }

def handle (origin : Nat) (sender : Word) (body : List UInt8) (w : World) : Except Revert World := do
  revertIf (m.sender ≠ w.state.mailbox) .onlyMailbox
  revertIf (w.state.trustedRemotes origin ≠ sender) (.untrustedRemote origin sender)
  match decodePayload body with
  | none => .error .badPayload
  | some msg => receiveProof m origin msg w

end Configuration

/-- The entry points without a reentrancy guard. -/
inductive OpenCall where
  | registerCircuit (circuitId programVKey : Word)
  | removeCircuit (circuitId : Word)
  | setGateway (newGateway : Address)
  | setMailbox (mailbox : Address)
  | configureDomain (domain : Nat) (remote : Word) (supported : Bool)
  | setStakeCheck (precompile : Address) (minStake : Nat) (enabled : Bool)
  | pause
  | unpause
  | handle (origin : Nat) (sender : Word) (body : List UInt8)

section Open

variable (m : Msg)

def execConfig : OpenCall → State → Except Revert State
  | .registerCircuit circuitId programVKey, s => registerCircuit m circuitId programVKey s
  | .removeCircuit circuitId, s => removeCircuit m circuitId s
  | .setGateway newGateway, s => setGateway m newGateway s
  | .setMailbox mailbox, s => setMailbox m mailbox s
  | .configureDomain domain remote supported, s => configureDomain m domain remote supported s
  | .setStakeCheck precompile minStake enabled, s => setStakeCheck m precompile minStake enabled s
  | .pause, s => pause m s
  | .unpause, s => unpause m s
  | .handle _ _ _, s => .ok s

def execOpen (call : OpenCall) (w : World) : Except Revert World :=
  match call with
  | .handle origin sender body => handle m origin sender body w
  | call => do
      let s ← execConfig m call w.state
      .ok (w.put s)

/-- A call made back.  One that reverts changes nothing. -/
def play (w : World) (n : Msg × OpenCall) : World :=
  match execOpen n.1 n.2 w with
  | .ok w' => w'
  | .error _ => w

end Open

abbrev Reply := Custody.Reply (Msg × OpenCall)

/-- How the contracts that a call reaches answer: the gateway, the staking precompile
    (`none` reverts), the mailbox, and the account a bridge fee is refunded to.  `gas` is
    what is left of it when a rollup is settled. -/
structure Peers where
  gateway : Word → List UInt8 → List UInt8 → GatewayReply
  getStake : Option Nat
  quoteDispatch : Nat
  dispatch : Reply
  messageId : Word
  refund : Reply
  gas : Nat

/-! ## Verification -/

section Verification

variable (keccak256 : List UInt8 → Word) (m : Msg) (p : Peers)

def breakerTripped (s : State) : Except Revert Bool :=
  if 100 < s.verificationsInWindow then do
    let scaled ← mulU .panic s.failuresInWindow 10000
    .ok (decide (maxFailureRateBps < scaled / s.verificationsInWindow))
  else .ok false

/-- `_checkCircuitBreaker`. -/
def checkCircuitBreaker (s : State) : Except Revert Unit := do
  let tripped ← breakerTripped s
  revertIf tripped .circuitBreakerActive

/-- `_evaluateCircuitBreaker`: `_pause` reverts when the contract is paused. -/
def evaluateCircuitBreaker (w : World) : Except Revert World := do
  let failures ← addU .panic w.state.failuresInWindow 1
  let w := w.put { w.state with failuresInWindow := failures }
  let tripped ← breakerTripped w.state
  if tripped then do
    revertIf w.state.paused .enforcedPause
    .ok ((w.put { w.state with paused := true }).emit
      (.circuitBreakerTriggered (failures * 10000 / w.state.verificationsInWindow) w.state.verificationsInWindow))
  else .ok w

/-- The window of the failure rate, begun anew when it is over. -/
def rollWindow (s : State) : Except Revert State := do
  let windowEnd ← addU .panic s.failureWindowStart failureWindow
  if windowEnd < m.timestamp then
    .ok { s with failureWindowStart := m.timestamp, failuresInWindow := 0, verificationsInWindow := 0 }
  else .ok s

/-- `_updateMetrics`. -/
def updateMetrics (s : State) : Except Revert State := do
  let s ← rollWindow m s
  let verifications ← addU .panic s.verificationsInWindow 1
  .ok { s with verificationsInWindow := verifications }

/-- `_verifyViaSP1`; the gateway's view call comes back without a trace.  No gateway is
    mock mode. -/
def verifyViaSP1 (nullifiers : List Word) (programVKey : Word) (publicValues proofBytes : List UInt8) (w : World) :
    Except Revert (Bool × World) :=
  if w.state.sp1Gateway = 0 then .ok (true, w)
  else match p.gateway programVKey publicValues proofBytes with
    | .accepts => .ok (true, { w with
        proofs := w.proofs ++ [{
          nullifiers := nullifiers
          programVKey := programVKey
          publicValues := publicValues
          proofBytes := proofBytes }] })
    | .rejects => .ok (false, w)
    | .noCode => .error .noCode

def failProof (circuitId : Word) (reason : String) (w : World) : Except Revert World := do
  let failed ← addU .panic w.state.totalFailed 1
  evaluateCircuitBreaker ((w.put { w.state with totalFailed := failed }).emit
    (.proofFailed circuitId m.sender reason m.timestamp))

/-- `totalVerified++`. -/
def countVerified (w : World) : Except Revert World := do
  let verified ← addU .panic w.state.totalVerified 1
  .ok (w.put { w.state with totalVerified := verified })

/-- Spend the nullifier, ask the gateway for all of `nullifiers`, and record what is
    verified, or count the failure. -/
def ask (circuitId programVKey : Word) (nullifiers : List Word) (publicValues proofBytes : List UInt8)
    (nullifier : Word) (reason : String) (record : World → Except Revert World) (w : World) :
    Except Revert (Bool × World) := do
  let (isValid, w) ← verifyViaSP1 p nullifiers programVKey publicValues proofBytes (w.put (spend nullifier w.state))
  let s ← updateMetrics m w.state
  if isValid then do
    let w ← record (w.put s)
    .ok (true, w)
  else do
    let w ← failProof m circuitId reason (w.put s)
    .ok (false, w)

/-- What the single-proof entry points share: the breaker, the circuit, the nullifier and
    `guard`, in this order, then the proof. -/
def prove (circuitId : Word) (nullifiers : List Word) (publicValues proofBytes : List UInt8) (nullifier : Word)
    (reason : String) (guard : State → Except Revert Unit) (record : World → Except Revert World) (w : World) :
    Except Revert (Bool × World) := do
  checkCircuitBreaker w.state
  let programVKey := w.state.circuits circuitId
  revertIf (programVKey = 0) (.circuitNotRegistered circuitId)
  revertIf (w.state.usedNullifiers nullifier) (.nullifierAlreadyUsed nullifier)
  guard w.state
  ask m p circuitId programVKey nullifiers publicValues proofBytes nullifier reason record w

def recordProof (circuitId : Word) (publicValues : List UInt8) (nullifier : Word) (w : World) :
    Except Revert World := do
  let w ← countVerified w
  .ok (w.emit (.proofVerified circuitId nullifier (keccak256 publicValues) m.sender m.timestamp))

/-- `_verifyProofInternal`. -/
def verifyProofInternal (circuitId : Word) (publicValues proofBytes : List UInt8) (nullifier : Word) :
    World → Except Revert (Bool × World) :=
  prove m p circuitId [nullifier] publicValues proofBytes nullifier "InvalidProof" (fun _ => .ok ())
    (recordProof keccak256 m circuitId publicValues nullifier)

def verifyProof (circuitId : Word) (publicValues proofBytes : List UInt8) (nullifier : Word) (w : World) :
    Except Revert (Bool × World) := do
  revertIf w.state.paused .enforcedPause
  verifyProofInternal keccak256 m p circuitId publicValues proofBytes nullifier w

structure BatchItem where
  circuitId : Word
  publicValues : List UInt8
  proofBytes : List UInt8
  nullifier : Word

/-- An item with an unknown circuit or a spent nullifier is skipped. -/
def verifyItem (w : World) (item : BatchItem) : Except Revert World :=
  let programVKey := w.state.circuits item.circuitId
  if programVKey = 0 ∨ w.state.usedNullifiers item.nullifier then .ok w
  else do
    let (_, w) ← ask m p item.circuitId programVKey [item.nullifier] item.publicValues item.proofBytes item.nullifier
      "BatchItemFailed" (recordProof keccak256 m item.circuitId item.publicValues item.nullifier) w
    .ok w

/-- The four arrays of a batch as one. -/
def batchItems (circuitIds : List Word) (publicValuesArr proofBytesArr : List (List UInt8)) (nullifiers : List Word) :
    List BatchItem :=
  (((circuitIds.zip publicValuesArr).zip proofBytesArr).zip nullifiers).map fun item => {
    circuitId := item.1.1.1
    publicValues := item.1.1.2
    proofBytes := item.1.2
    nullifier := item.2 }

def verifyProofBatch (circuitIds : List Word) (publicValuesArr proofBytesArr : List (List UInt8))
    (nullifiers : List Word) (w : World) : Except Revert World := do
  revertIf w.state.paused .enforcedPause
  revertIf (circuitIds.length = 0 ∨ 20 < circuitIds.length ∨ publicValuesArr.length ≠ circuitIds.length
    ∨ proofBytesArr.length ≠ circuitIds.length ∨ nullifiers.length ≠ circuitIds.length) .invalidBatchParams
  (batchItems circuitIds publicValuesArr proofBytesArr nullifiers).foldlM (verifyItem keccak256 m p) w

def recordCall (circuitId stateRoot : Word) (sourceBlock : Nat) (targetContract : Address)
    (publicValues : List UInt8) (nullifier : Word) (w : World) : Except Revert World := do
  let w ← countVerified w
  let calls ← addU .panic w.state.totalComposedCalls 1
  let w := w.put { w.state with
    totalComposedCalls := calls
    composedCalls := update w.state.composedCalls nullifier {
      stateRoot := stateRoot
      sourceBlock := sourceBlock
      targetContract := targetContract
      resultHash := keccak256 publicValues } }
  .ok (w.emit (.composedCallVerified circuitId nullifier stateRoot sourceBlock targetContract m.sender m.timestamp))

def verifyComposedCall (circuitId stateRoot : Word) (sourceBlock : Nat) (targetContract : Address)
    (publicValues proofBytes : List UInt8) (nullifier : Word) (w : World) : Except Revert (Bool × World) := do
  revertIf w.state.paused .enforcedPause
  prove m p circuitId [nullifier] publicValues proofBytes nullifier "ComposedCallFailed" (fun _ => .ok ())
    (recordCall keccak256 m circuitId stateRoot sourceBlock targetContract publicValues nullifier) w

/-- A call that has to succeed, and the calls it makes back. -/
def contact (e : Revert) (r : Reply) (w : World) : Except Revert World :=
  if r.ok then .ok (Trace.run play w r.calls) else .error e

/-- The mailbox takes the message, and what the fee leaves goes back to the sender. -/
def dispatchProof (circuitId nullifier : Word) (destDomain value : Nat) (w : World) : Except Revert World := do
  revertIf (value < p.quoteDispatch) .insufficientBridgeFee
  let relayed ← addU .panic w.state.totalRelayed 1
  let w ← contact .dispatchFailed p.dispatch (w.put { w.state with totalRelayed := relayed })
  let w := w.emit (.proofRelayed circuitId nullifier destDomain p.messageId m.timestamp)
  if p.quoteDispatch < value then contact .refundFailed p.refund w else .ok w

def relayProofCrossChain (value : Nat) (circuitId : Word) (publicValues proofBytes : List UInt8) (nullifier : Word)
    (destDomain : Nat) (w : World) : Except Revert World := do
  revertIf w.state.paused .enforcedPause
  revertIf (w.state.mailbox = 0) .noMailbox
  revertIf (¬ w.state.supportedDomains destDomain) (.unsupportedDomain destDomain)
  revertIf (w.state.trustedRemotes destDomain = 0) .noRemote
  let (ok, w) ← verifyProofInternal keccak256 m p circuitId publicValues proofBytes nullifier w
  revertIf (¬ ok) .proofInvalid
  dispatchProof m p circuitId nullifier destDomain value w

def checkStake (s : State) : Except Revert State :=
  if s.stakeCheckEnabled ∧ s.stakingPrecompile ≠ 0 then
    match p.getStake with
    | none => .error .stakeQueryFailed
    | some stake => do
        revertIf (stake < s.minStakeForProof) (.insufficientStake stake s.minStakeForProof)
        let checked ← addU .panic s.totalStakeChecked 1
        .ok { s with totalStakeChecked := checked }
  else .ok s

def verifyWithStakeCheck (circuitId : Word) (publicValues proofBytes : List UInt8) (nullifier : Word) (w : World) :
    Except Revert (Bool × World) := do
  revertIf w.state.paused .enforcedPause
  let s ← checkStake p w.state
  verifyProofInternal keccak256 m p circuitId publicValues proofBytes nullifier (w.put s)

/-! ## Recursive proofs -/

/-- `_computeBatchRoot`, of two lists of one length. -/
def computeBatchRoot : List (Word × Word) → Word
  | [] => 0
  | first :: rest => rest.foldl
      (fun root item => keccak256 (wordBytes root ++ wordBytes item.1 ++ wordBytes item.2))
      (keccak256 (wordBytes first.1 ++ wordBytes first.2))

def checkBatch (batchRoot : Word) (innerNullifiers innerCircuitIds : List Word) (s : State) : Except Revert Unit := do
  revertIf (innerNullifiers.length = 0 ∨ 100 < innerNullifiers.length) .invalidBatchSize
  revertIf (innerCircuitIds.length ≠ innerNullifiers.length) .circuitIdMismatch
  revertIf (computeBatchRoot keccak256 (innerNullifiers.zip innerCircuitIds) ≠ batchRoot) .batchRootMismatch
  innerNullifiers.forM fun n => revertIf (s.usedNullifiers n) (.nullifierAlreadyUsed n)

/-- An inner nullifier is spent and entered below the rollup's. -/
def enterInner (batchRoot rollupNullifier : Word) (w : World) (n : Word) : World :=
  (w.put { spend n w.state with
    recursiveNullifiers := update w.state.recursiveNullifiers n {
      parentNullifier := rollupNullifier
      batchRoot := batchRoot
      depth := 1
      verified := true } }).emit (.recursiveProofVerified n rollupNullifier batchRoot 1 m.timestamp)

def recordRollup (batchRoot : Word) (innerNullifiers innerCircuitIds : List Word) (rollupNullifier : Word)
    (w : World) : Except Revert World := do
  let w := innerNullifiers.foldl (enterInner m batchRoot rollupNullifier) w
  let size := innerNullifiers.length
  let batchId ← addU .panic w.state.totalRollupBatches 1
  let verified ← addU .panic w.state.totalVerified size
  let recursive ← addU .panic w.state.totalRecursiveVerified size
  let amortized := p.gas / size
  let w := w.put { w.state with
    totalRollupBatches := batchId
    totalVerified := verified
    totalRecursiveVerified := recursive
    rollupBatches := update w.state.rollupBatches batchId {
      batchRoot := batchRoot
      nullifiers := innerNullifiers
      circuitIds := innerCircuitIds
      proofCount := size
      amortizedGas := amortized
      settledAt := m.timestamp
      submitter := m.sender } }
  .ok (w.emit (.rollupSettled batchId batchRoot size amortized m.sender m.timestamp))

def settleRollupBatch (circuitId batchRoot : Word) (innerNullifiers innerCircuitIds : List Word)
    (publicValues proofBytes : List UInt8) (rollupNullifier : Word) (w : World) : Except Revert (Bool × World) := do
  revertIf w.state.paused .enforcedPause
  prove m p circuitId (rollupNullifier :: innerNullifiers) publicValues proofBytes rollupNullifier
    "RecursiveProofFailed" (checkBatch keccak256 batchRoot innerNullifiers innerCircuitIds)
    (recordRollup m p batchRoot innerNullifiers innerCircuitIds rollupNullifier) w

/-- A parent has to be spent; whether its proof was accepted is not asked. -/
def checkParent (parentNullifier : Word) (depth : Nat) (s : State) : Except Revert Unit := do
  revertIf (depth = 0 ∨ 8 < depth) .invalidDepth
  revertIf (parentNullifier ≠ 0 ∧ ¬ s.usedNullifiers parentNullifier) .parentNotVerified

def recordRecursive (parentNullifier : Word) (publicValues : List UInt8) (nullifier : Word) (depth : Nat)
    (w : World) : Except Revert World := do
  let w ← countVerified w
  let recursive ← addU .panic w.state.totalRecursiveVerified 1
  let w := w.put { w.state with
    totalRecursiveVerified := recursive
    recursiveNullifiers := update w.state.recursiveNullifiers nullifier {
      parentNullifier := parentNullifier
      batchRoot := keccak256 publicValues
      depth := depth
      verified := true } }
  .ok (w.emit (.recursiveProofVerified nullifier parentNullifier (keccak256 publicValues) depth m.timestamp))

def verifyRecursiveProof (circuitId parentNullifier : Word) (publicValues proofBytes : List UInt8)
    (nullifier : Word) (depth : Nat) (w : World) : Except Revert (Bool × World) := do
  revertIf w.state.paused .enforcedPause
  prove m p circuitId [nullifier] publicValues proofBytes nullifier "RecursiveVerifyFailed"
    (checkParent parentNullifier depth)
    (recordRecursive keccak256 m parentNullifier publicValues nullifier depth) w

end Verification

/-! ## Transactions -/

inductive Call where
  | verifyProof (circuitId : Word) (publicValues proofBytes : List UInt8) (nullifier : Word)
  | verifyProofBatch (circuitIds : List Word) (publicValuesArr proofBytesArr : List (List UInt8))
      (nullifiers : List Word)
  | verifyComposedCall (circuitId stateRoot : Word) (sourceBlock : Nat) (targetContract : Address)
      (publicValues proofBytes : List UInt8) (nullifier : Word)
  | relayProofCrossChain (value : Nat) (circuitId : Word) (publicValues proofBytes : List UInt8)
      (nullifier : Word) (destDomain : Nat)
  | verifyWithStakeCheck (circuitId : Word) (publicValues proofBytes : List UInt8) (nullifier : Word)
  | settleRollupBatch (circuitId batchRoot : Word) (innerNullifiers innerCircuitIds : List Word)
      (publicValues proofBytes : List UInt8) (rollupNullifier : Word)
  | verifyRecursiveProof (circuitId parentNullifier : Word) (publicValues proofBytes : List UInt8)
      (nullifier : Word) (depth : Nat)
  | openCall (call : OpenCall)

/-- A transaction, and how the contracts it reaches answer. -/
structure Tx where
  msg : Msg
  call : Call
  peers : Peers

section Run

variable (keccak256 : List UInt8 → Word)

/-- The world a call leaves, without what it returns. -/
def leave (x : Except Revert (Bool × World)) : Except Revert World := x.map Prod.snd

def exec (tx : Tx) (w : World) : Except Revert World :=
  match tx.call with
  | .verifyProof circuitId publicValues proofBytes nullifier =>
    leave (verifyProof keccak256 tx.msg tx.peers circuitId publicValues proofBytes nullifier w)
  | .verifyProofBatch circuitIds publicValuesArr proofBytesArr nullifiers =>
    verifyProofBatch keccak256 tx.msg tx.peers circuitIds publicValuesArr proofBytesArr nullifiers w
  | .verifyComposedCall circuitId stateRoot sourceBlock targetContract publicValues proofBytes nullifier =>
    leave (verifyComposedCall keccak256 tx.msg tx.peers circuitId stateRoot sourceBlock targetContract publicValues
      proofBytes nullifier w)
  | .relayProofCrossChain value circuitId publicValues proofBytes nullifier destDomain =>
    relayProofCrossChain keccak256 tx.msg tx.peers value circuitId publicValues proofBytes nullifier destDomain w
  | .verifyWithStakeCheck circuitId publicValues proofBytes nullifier =>
    leave (verifyWithStakeCheck keccak256 tx.msg tx.peers circuitId publicValues proofBytes nullifier w)
  | .settleRollupBatch circuitId batchRoot innerNullifiers innerCircuitIds publicValues proofBytes rollupNullifier =>
    leave (settleRollupBatch keccak256 tx.msg tx.peers circuitId batchRoot innerNullifiers innerCircuitIds
      publicValues proofBytes rollupNullifier w)
  | .verifyRecursiveProof circuitId parentNullifier publicValues proofBytes nullifier depth =>
    leave (verifyRecursiveProof keccak256 tx.msg tx.peers circuitId parentNullifier publicValues proofBytes nullifier
      depth w)
  | .openCall call => execOpen tx.msg call w

/-- A transaction that reverts changes nothing. -/
def step (w : World) (tx : Tx) : World :=
  match exec keccak256 tx w with
  | .ok w' => w'
  | .error _ => w

def run (w : World) (txs : List Tx) : World := Trace.run (step keccak256) w txs

end Run

/-- The contract as deployed. -/
def start (sp1Gateway : Address) (now : Nat) : World where
  state := deploy sp1Gateway now
  log := []
  proofs := []
  received := []

end ZKVerifier
