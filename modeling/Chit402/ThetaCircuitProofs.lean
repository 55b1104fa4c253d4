import Chit402.CustodyProofs
import Chit402.SolidityProofs

/-! # The Theta inference circuit

    `ThetaInferenceCircuit`: its service catalogue and presets, the three
    ways to submit a paid intent, and what the relayer reports of it.

    The accounts the contract calls (the fee splitter, the proof verifier,
    the TDROP token, a refunded requester) are data: each answers with a
    success flag and the calls it makes back.  While a guarded call runs,
    only entry points without the reentrancy guard let such calls in. -/

namespace ThetaCircuit

open ExceptFlow Solidity Custody Function

/-! ## State -/

/-- The roles of the access control. -/
inductive Role where
  | defaultAdmin | relayer | operator
deriving DecidableEq

inductive ServiceType where
  | llmInference | imageGeneration | speechToText | voiceCloning | ragQuery | videoProcessing
  | objectDetection
deriving DecidableEq

inductive GpuTier where
  | rtx4090 | a100 | h100
deriving DecidableEq

inductive ProviderTag where
  | unset | thetaNative | hybridFallback | depinAkash | depinRender | hybridCloud
deriving DecidableEq

inductive IntentStatus where
  | none | submitted | processing | completed | failed | settled
deriving DecidableEq

/-- What an EdgeCloud node attested of a completed intent. -/
structure EdgeCloudAttestation where
  nodeId : Word
  gpuFingerprint : Word
  petaflopsUsed : Nat
  attestedAt : Nat
  providerTag : ProviderTag

/-- A registered service with its price per call. -/
structure ServiceConfig where
  serviceId : Word
  serviceType : ServiceType
  modelName : List UInt8
  pricePerCall : Nat
  maxLatencyMs : Nat
  active : Bool
  totalCalls : Nat

/-- A preset that names a service and a model. -/
structure PresetConfig where
  presetId : Word
  name : List UInt8
  serviceType : ServiceType
  defaultModel : List UInt8
  defaultGpu : GpuTier
  defaultPrompt : List UInt8
  active : Bool

/-- One intent, from its submission to its settlement or failure. -/
structure Intent where
  intentId : Word
  serviceType : ServiceType
  serviceId : Word
  requester : Address
  payment : Nat
  fee : Nat
  inputHash : Word
  outputHash : Word
  modelHash : Word
  status : IntentStatus
  submittedAt : Nat
  completedAt : Nat
  settledAt : Nat
  latencyMs : Nat
  proofNullifier : Word

/-- The storage of the contract. -/
structure State where
  paused : Bool
  revenueSplitter : Address
  zkVerifier : Address
  zkVerifierZkGPT : Address
  feeBps : Nat
  tdropToken : Address
  tdropDiscountBps : Nat
  tdropPerTfuel : Nat
  totalTdropCollected : Nat
  attestations : Word → EdgeCloudAttestation
  attestationCount : Nat
  services : Word → ServiceConfig
  serviceCount : Nat
  presets : Word → PresetConfig
  presetCount : Nat
  gpuPriceMultiplier : GpuTier → Nat
  intents : Word → Intent
  intentCount : Nat
  totalFeesCollected : Nat
  totalVolume : Nat
  callsByType : ServiceType → Nat
  volumeByType : ServiceType → Nat
  usedNullifiers : Word → Bool

def minFeeBps : Nat := 10

def maxFeeBps : Nat := 100

def bpsDenom : Nat := 10000

def maxTdropDiscount : Nat := 5000

def noAttestation : EdgeCloudAttestation where
  nodeId := 0
  gpuFingerprint := 0
  petaflopsUsed := 0
  attestedAt := 0
  providerTag := .unset

def noService : ServiceConfig where
  serviceId := 0
  serviceType := .llmInference
  modelName := []
  pricePerCall := 0
  maxLatencyMs := 0
  active := false
  totalCalls := 0

def noPreset : PresetConfig where
  presetId := 0
  name := []
  serviceType := .llmInference
  defaultModel := []
  defaultGpu := .rtx4090
  defaultPrompt := []
  active := false

def noIntent : Intent where
  intentId := 0
  serviceType := .llmInference
  serviceId := 0
  requester := 0
  payment := 0
  fee := 0
  inputHash := 0
  outputHash := 0
  modelHash := 0
  status := .none
  submittedAt := 0
  completedAt := 0
  settledAt := 0
  latencyMs := 0
  proofNullifier := 0

/-- The constructor. -/
def deploy (revenueSplitter zkVerifier : Address) : State where
  paused := false
  revenueSplitter := revenueSplitter
  zkVerifier := zkVerifier
  zkVerifierZkGPT := 0
  feeBps := 50
  tdropToken := 0
  tdropDiscountBps := 2000
  tdropPerTfuel := 10 ^ 18
  totalTdropCollected := 0
  attestations := fun _ => noAttestation
  attestationCount := 0
  services := fun _ => noService
  serviceCount := 0
  presets := fun _ => noPreset
  presetCount := 0
  gpuPriceMultiplier := fun
    | .rtx4090 => 10000
    | .a100 => 25000
    | .h100 => 50000
  intents := fun _ => noIntent
  intentCount := 0
  totalFeesCollected := 0
  totalVolume := 0
  callsByType := fun _ => 0
  volumeByType := fun _ => 0
  usedNullifiers := fun _ => false

/-- A refund that was paid. -/
structure Refund where
  intentId : Word
  asset : Asset
  requester : Address
  amount : Nat
deriving DecidableEq

/-- The contract, and what the tokens let others take from it.  The last three fields are
    no storage: the strings hashed to intent ids, the asset each intent was paid in, and
    the refunds paid so far. -/
structure Chain where
  circuit : State
  approved : Address → Address → Nat
  drawn : List (List UInt8)
  paidIn : Word → Asset
  refunds : List Refund

def Chain.put (c : State) (s : Chain) : Chain := { s with circuit := c }

@[simp] theorem Chain.put_circuit (c : State) (s : Chain) : (s.put c).circuit = c := rfl

/-- The token's `approve`: the contract's allowance for `spender` becomes `amount`. -/
def approve (token spender : Address) (amount : Nat) (s : Chain) : Chain :=
  { s with approved := update s.approved token (update (s.approved token) spender amount) }

abbrev World := Custody.World Chain Asset

/-- The caller with its roles, and the block.  Block times are positive and fit `uint64`. -/
structure Msg where
  sender : Address
  timestamp : Nat
  blockNumber : Nat
  holds : Role → Bool
  positive : 0 < timestamp
  inRange : timestamp < 2 ^ 64

/-- The reverts, by the guard that raises them. -/
inductive Revert where
  | enforcedPause | expectedPause
  | unauthorized (account : Address) (role : Role)
  | serviceNotFound | serviceNotActive | intentNotFound
  | invalidIntentStatus (current expected : IntentStatus)
  | insufficientPayment | nullifierUsed | presetNotFound | presetNotActive | alreadyAttested
  | intentNotCompleted | tdropNotEnabled | tdropTransferFailed | invalidTdropDiscount
  | multiplierRange | feeRange | zeroRate | notAdminOrOperator | providerTagUnset
  | priceTooSmall | feeFwd | proofFailed | refundFailed
  | insufficientAllowance
  | panic
deriving DecidableEq

/-! ## Catalogue and configuration -/

section Configuration

variable (keccak256 : List UInt8 → Word) (m : Msg)

def circuitId : Word := keccak256 "THETA_INFERENCE_CIRCUIT".toUTF8.toList

def onlyRole (role : Role) : Except Revert Unit :=
  revertIf (m.holds role = false) (.unauthorized m.sender role)

def ServiceType.toNat : ServiceType → Nat
  | .llmInference => 0
  | .imageGeneration => 1
  | .speechToText => 2
  | .voiceCloning => 3
  | .ragQuery => 4
  | .videoProcessing => 5
  | .objectDetection => 6

/-- The id of a service is the hash of its type, its name and the count. -/
def registerService (serviceType : ServiceType) (modelName : List UInt8) (pricePerCall maxLatencyMs : Nat)
    (c : State) : Except Revert State := do
  onlyRole m .operator
  let serviceId := keccak256 (wordBytes (circuitId keccak256) ++ bigEndian 1 serviceType.toNat ++ modelName
    ++ bigEndian 32 c.serviceCount)
  let count ← addU .panic c.serviceCount 1
  .ok { c with
    services := update c.services serviceId {
      serviceId := serviceId
      serviceType := serviceType
      modelName := modelName
      pricePerCall := pricePerCall
      maxLatencyMs := maxLatencyMs
      active := true
      totalCalls := 0 }
    serviceCount := count }

def updateService (serviceId : Word) (newPrice : Nat) (active : Bool) (c : State) : Except Revert State := do
  onlyRole m .operator
  revertIf ((c.services serviceId).serviceId = 0) .serviceNotFound
  .ok { c with
    services := update c.services serviceId
      { c.services serviceId with pricePerCall := newPrice, active := active } }

def registerPreset (name : List UInt8) (serviceType : ServiceType) (defaultModel : List UInt8)
    (defaultGpu : GpuTier) (defaultPrompt : List UInt8) (c : State) : Except Revert State := do
  onlyRole m .operator
  let presetId := keccak256 (wordBytes (circuitId keccak256) ++ "PRESET".toUTF8.toList ++ name
    ++ bigEndian 32 c.presetCount)
  let count ← addU .panic c.presetCount 1
  .ok { c with
    presets := update c.presets presetId {
      presetId := presetId
      name := name
      serviceType := serviceType
      defaultModel := defaultModel
      defaultGpu := defaultGpu
      defaultPrompt := defaultPrompt
      active := true }
    presetCount := count }

def updatePreset (presetId : Word) (active : Bool) (c : State) : Except Revert State := do
  onlyRole m .operator
  revertIf ((c.presets presetId).presetId = 0) .presetNotFound
  .ok { c with
    presets := update c.presets presetId { c.presets presetId with active := active } }

def setGpuMultiplier (tier : GpuTier) (multiplierBps : Nat) (c : State) : Except Revert State := do
  onlyRole m .operator
  revertIf (multiplierBps < 5000 ∨ 200000 < multiplierBps) .multiplierRange
  .ok { c with gpuPriceMultiplier := update c.gpuPriceMultiplier tier multiplierBps }

def setFee (feeBps : Nat) (c : State) : Except Revert State := do
  onlyRole m .defaultAdmin
  revertIf (feeBps < minFeeBps ∨ maxFeeBps < feeBps) .feeRange
  .ok { c with feeBps := feeBps }

def setRevenueSplitter (rs : Address) (c : State) : Except Revert State := do
  onlyRole m .defaultAdmin
  .ok { c with revenueSplitter := rs }

def setZKVerifier (zk : Address) (c : State) : Except Revert State := do
  onlyRole m .defaultAdmin
  .ok { c with zkVerifier := zk }

def setZKVerifierZkGPT (zk : Address) (c : State) : Except Revert State := do
  onlyRole m .defaultAdmin
  .ok { c with zkVerifierZkGPT := zk }

def setTdropConfig (tdropToken : Address) (discountBps tdropPerTfuel : Nat) (c : State) : Except Revert State := do
  revertIf (m.holds .defaultAdmin = false ∧ m.holds .operator = false) .notAdminOrOperator
  revertIf (maxTdropDiscount < discountBps) .invalidTdropDiscount
  revertIf (tdropPerTfuel = 0) .zeroRate
  .ok { c with
    tdropToken := tdropToken
    tdropDiscountBps := discountBps
    tdropPerTfuel := tdropPerTfuel }

def pause (c : State) : Except Revert State := do
  onlyRole m .operator
  revertIf c.paused .enforcedPause
  .ok { c with paused := true }

def unpause (c : State) : Except Revert State := do
  onlyRole m .operator
  revertIf (¬ c.paused) .expectedPause
  .ok { c with paused := false }

end Configuration

/-! ## Reports of the relayer -/

section Reports

variable (m : Msg)

/-- The relayer reports the result of a submitted or processing intent. -/
def completeIntent (intentId outputHash modelHash : Word) (latencyMs : Nat) (c : State) : Except Revert State := do
  onlyRole m .relayer
  let i := c.intents intentId
  revertIf (i.submittedAt = 0) .intentNotFound
  revertIf (i.status ≠ .submitted ∧ i.status ≠ .processing) (.invalidIntentStatus i.status .submitted)
  .ok { c with intents := update c.intents intentId { i with
    outputHash := outputHash
    modelHash := modelHash
    latencyMs := latencyMs
    status := .completed
    completedAt := m.timestamp } }

def attestEdgeCloudNode (intentId nodeId gpuFingerprint : Word) (petaflopsUsed : Nat)
    (providerTag : ProviderTag) (c : State) : Except Revert State := do
  onlyRole m .relayer
  let i := c.intents intentId
  revertIf (i.submittedAt = 0) .intentNotFound
  revertIf (i.status ≠ .completed) .intentNotCompleted
  revertIf ((c.attestations intentId).attestedAt ≠ 0) .alreadyAttested
  revertIf (providerTag = .unset) .providerTagUnset
  let count ← addU .panic c.attestationCount 1
  .ok { c with
    attestations := update c.attestations intentId {
      nodeId := nodeId
      gpuFingerprint := gpuFingerprint
      petaflopsUsed := petaflopsUsed
      attestedAt := m.timestamp
      providerTag := providerTag }
    attestationCount := count }

end Reports

/-! ## Calls that let others in -/

/-- The entry points without a reentrancy guard, and what others do to the contract's
    tokens: send it some, or take what it approved. -/
inductive OpenCall where
  | registerService (serviceType : ServiceType) (modelName : List UInt8) (pricePerCall maxLatencyMs : Nat)
  | updateService (serviceId : Word) (newPrice : Nat) (active : Bool)
  | registerPreset (name : List UInt8) (serviceType : ServiceType) (defaultModel : List UInt8)
      (defaultGpu : GpuTier) (defaultPrompt : List UInt8)
  | updatePreset (presetId : Word) (active : Bool)
  | setGpuMultiplier (tier : GpuTier) (multiplierBps : Nat)
  | completeIntent (intentId outputHash modelHash : Word) (latencyMs : Nat)
  | attestEdgeCloudNode (intentId nodeId gpuFingerprint : Word) (petaflopsUsed : Nat) (providerTag : ProviderTag)
  | setFee (feeBps : Nat)
  | setRevenueSplitter (rs : Address)
  | setZKVerifier (zk : Address)
  | setZKVerifierZkGPT (zk : Address)
  | setTdropConfig (tdropToken : Address) (discountBps tdropPerTfuel : Nat)
  | pause
  | unpause
  | receive (value : Nat)
  | sendTokens (token : Address) (amount : Nat)
  | takeApproved (token : Address) (amount : Nat)

section Open

variable (keccak256 : List UInt8 → Word) (m : Msg)

/-- The calls that write only the contract's own storage. -/
def execConfig : OpenCall → State → Except Revert State
  | .registerService serviceType modelName price latency, c =>
    registerService keccak256 m serviceType modelName price latency c
  | .updateService serviceId newPrice active, c => updateService m serviceId newPrice active c
  | .registerPreset name serviceType model gpu prompt, c =>
    registerPreset keccak256 m name serviceType model gpu prompt c
  | .updatePreset presetId active, c => updatePreset m presetId active c
  | .setGpuMultiplier tier multiplierBps, c => setGpuMultiplier m tier multiplierBps c
  | .completeIntent intentId outputHash modelHash latencyMs, c =>
    completeIntent m intentId outputHash modelHash latencyMs c
  | .attestEdgeCloudNode intentId nodeId gpu used tag, c => attestEdgeCloudNode m intentId nodeId gpu used tag c
  | .setFee feeBps, c => setFee m feeBps c
  | .setRevenueSplitter rs, c => setRevenueSplitter m rs c
  | .setZKVerifier zk, c => setZKVerifier m zk c
  | .setZKVerifierZkGPT zk, c => setZKVerifierZkGPT m zk c
  | .setTdropConfig token discountBps rate, c => setTdropConfig m token discountBps rate c
  | .pause, c => pause m c
  | .unpause, c => unpause m c
  | .receive _, c => .ok c
  | .sendTokens _ _, c => .ok c
  | .takeApproved _ _, c => .ok c

/-- `transferFrom` of the contract's tokens by an approved spender. -/
def takeApproved (token : Address) (amount : Nat) (w : World) : Except Revert World := do
  revertIf (w.state.approved token m.sender < amount ∨ w.holdings (.erc20 token) < amount) .insufficientAllowance
  .ok ((w.debit (.erc20 token) amount).write
    (approve token m.sender (w.state.approved token m.sender - amount) w.state))

def execOpen (call : OpenCall) (w : World) : Except Revert World := do
  match call with
  | .receive value => .ok (w.credit .native value)
  | .sendTokens token amount => .ok (w.credit (.erc20 token) amount)
  | .takeApproved token amount => takeApproved m token amount w
  | call =>
    let c ← execConfig keccak256 m call w.state.circuit
    .ok (w.write (w.state.put c))

/-- A call made back.  One that reverts changes nothing. -/
def play (w : World) (n : Msg × OpenCall) : World :=
  match execOpen keccak256 n.1 n.2 w with
  | .ok w' => w'
  | .error _ => w

end Open

abbrev Reply := Custody.Reply (Msg × OpenCall)

/-- How the accounts that a call reaches answer.  TDROP makes no calls of its own. -/
structure Peers where
  depositFee : Reply
  plainFee : Reply
  transferFrom : Bool
  approve : Bool
  receiveERC20Fee : Reply
  verifyProof : Reply
  tagFeeOrigin : Reply
  refund : Reply

/-! ## Submitting an intent -/

section Submit

variable (keccak256 : List UInt8 → Word) (m : Msg)

/-- The packed string of an intent id, up to the intent count. -/
def intentHead (serviceId : Word) : List UInt8 :=
  wordBytes (circuitId keccak256) ++ addressBytes m.sender ++ wordBytes serviceId ++ bigEndian 32 m.blockNumber

def presetHead (presetId serviceId : Word) : List UInt8 :=
  wordBytes (circuitId keccak256) ++ addressBytes m.sender ++ wordBytes presetId ++ wordBytes serviceId
    ++ bigEndian 32 m.blockNumber

def newIntent (intentId serviceId inputHash : Word) (serviceType : ServiceType) (payment fee : Nat) : Intent where
  intentId := intentId
  serviceType := serviceType
  serviceId := serviceId
  requester := m.sender
  payment := payment
  fee := fee
  inputHash := inputHash
  outputHash := 0
  modelHash := 0
  status := .submitted
  submittedAt := m.timestamp
  completedAt := 0
  settledAt := 0
  latencyMs := 0
  proofNullifier := 0

/-- The record and the counters every submission writes. -/
def openIntent (head : List UInt8) (asset : Asset) (serviceId inputHash : Word) (payment fee : Nat)
    (s : Chain) : Except Revert Chain := do
  let c := s.circuit
  let name := head ++ bigEndian 32 c.intentCount
  let intentCount ← addU .panic c.intentCount 1
  let svc := c.services serviceId
  let calls ← addU .panic (c.callsByType svc.serviceType) 1
  let totalCalls ← addU .panic svc.totalCalls 1
  .ok { s with
    circuit := { c with
      intents := update c.intents (keccak256 name)
        (newIntent m (keccak256 name) serviceId inputHash svc.serviceType payment fee)
      intentCount := intentCount
      callsByType := update c.callsByType svc.serviceType calls
      services := update c.services serviceId { svc with totalCalls := totalCalls } }
    drawn := s.drawn ++ [name]
    paidIn := update s.paidIn (keccak256 name) asset }

/-- The volume counters of a payment in native value. -/
def countVolume (serviceId : Word) (value fee : Nat) (s : Chain) : Except Revert Chain := do
  let c := s.circuit
  let serviceType := (c.services serviceId).serviceType
  let totalVolume ← addU .panic c.totalVolume value
  let totalFeesCollected ← addU .panic c.totalFeesCollected fee
  let volume ← addU .panic (c.volumeByType serviceType) value
  .ok (s.put { c with
    totalVolume := totalVolume
    totalFeesCollected := totalFeesCollected
    volumeByType := update c.volumeByType serviceType volume })

/-- The part that `submitIntent` and `submitPresetIntent` share, at their price and name. -/
def submitNative (head : List UInt8) (price value : Nat) (serviceId inputHash : Word) (p : Peers)
    (w : World) : Except Revert World := do
  revertIf (value < price) .insufficientPayment
  let feeScaled ← mulU .panic value w.state.circuit.feeBps
  let fee := feeScaled / bpsDenom
  let netPayment ← subU .panic value fee
  let s ← openIntent keccak256 m head .native serviceId inputHash netPayment fee w.state
  let s ← countVolume serviceId value fee s
  if 0 < fee ∧ s.circuit.revenueSplitter ≠ 0 then
    forward (play keccak256) .feeFwd .native p.depositFee p.plainFee fee (w.write s)
  else .ok (w.write s)

/-- An intent at the price of its service, paid in native value. -/
def submitIntent (value : Nat) (serviceId inputHash : Word) (p : Peers) (w : World) : Except Revert World := do
  revertIf w.state.circuit.paused .enforcedPause
  let svc := w.state.circuit.services serviceId
  revertIf (svc.serviceId = 0) .serviceNotFound
  revertIf (¬ svc.active) .serviceNotActive
  submitNative keccak256 m (intentHead keccak256 m serviceId) svc.pricePerCall value serviceId inputHash p
    (w.credit .native value)

/-- The price of a call, scaled by the multiplier of the tier. -/
def getEffectivePrice (serviceId : Word) (gpuTier : GpuTier) (c : State) : Except Revert Nat := do
  let svc := c.services serviceId
  revertIf (svc.serviceId = 0) .serviceNotFound
  let scaled ← mulU .panic svc.pricePerCall (c.gpuPriceMultiplier gpuTier)
  .ok (scaled / 10000)

def submitPresetIntent (value : Nat) (presetId : Word) (gpuTier : GpuTier) (serviceId inputHash : Word)
    (p : Peers) (w : World) : Except Revert World := do
  let c := w.state.circuit
  revertIf c.paused .enforcedPause
  revertIf ((c.presets presetId).presetId = 0) .presetNotFound
  revertIf (¬ (c.presets presetId).active) .presetNotActive
  revertIf ((c.services serviceId).serviceId = 0) .serviceNotFound
  revertIf (¬ (c.services serviceId).active) .serviceNotActive
  let effectivePrice ← getEffectivePrice serviceId gpuTier c
  submitNative keccak256 m (presetHead keccak256 m presetId serviceId) effectivePrice value serviceId inputHash p
    (w.credit .native value)

/-- What a TDROP payer owes: the payment, and the fee after the discount. -/
structure TdropQuote where
  payment : Nat
  fee : Nat

def quoteTdrop (svc : ServiceConfig) (c : State) : Except Revert TdropQuote := do
  let scaled ← mulU .panic svc.pricePerCall c.tdropPerTfuel
  let tdropTotal := scaled / 10 ^ 18
  revertIf (tdropTotal = 0) .priceTooSmall
  let feeScaled ← mulU .panic tdropTotal c.feeBps
  let tdropFeeBase := feeScaled / bpsDenom
  -- the discount is on the fee alone
  let kept ← subU .panic bpsDenom c.tdropDiscountBps
  let discounted ← mulU .panic tdropFeeBase kept
  let tdropPayment ← subU .panic tdropTotal tdropFeeBase
  .ok { payment := tdropPayment, fee := discounted / bpsDenom }

/-- Approve the splitter for the fee and tell it; either may fail. -/
def forwardTdropFee (fee : Nat) (p : Peers) (w : World) : World :=
  let token := w.state.circuit.tdropToken
  let splitter := w.state.circuit.revenueSplitter
  if 0 < fee ∧ splitter ≠ 0 then
    if p.approve then
      notify (play keccak256) p.receiveERC20Fee (w.write (approve token splitter fee w.state))
    else w
  else w

/-- Payment and discounted fee are taken in TDROP, and the same counters are written. -/
def submitIntentWithTDROP (serviceId inputHash : Word) (p : Peers) (w : World) : Except Revert World := do
  let c := w.state.circuit
  revertIf c.paused .enforcedPause
  revertIf (c.tdropToken = 0) .tdropNotEnabled
  let svc := c.services serviceId
  revertIf (svc.serviceId = 0) .serviceNotFound
  revertIf (¬ svc.active) .serviceNotActive
  let quote ← quoteTdrop svc c
  let tdropRequired ← addU .panic quote.payment quote.fee
  revertIf (¬ p.transferFrom) .tdropTransferFailed
  let w := w.credit (.erc20 c.tdropToken) tdropRequired
  let collected ← addU .panic w.state.circuit.totalTdropCollected tdropRequired
  let s := w.state.put { w.state.circuit with totalTdropCollected := collected }
  let s ← openIntent keccak256 m (intentHead keccak256 m serviceId) (.erc20 c.tdropToken) serviceId inputHash
    quote.payment quote.fee s
  .ok (forwardTdropFee keccak256 quote.fee p (w.write s))

end Submit

/-! ## Settlement and failure -/

section Settle

variable (keccak256 : List UInt8 → Word) (m : Msg)

/-- Tell the splitter where a settled intent ran; it may fail. -/
def tagFeeOrigin (intentId : Word) (p : Peers) (w : World) : World :=
  let c := w.state.circuit
  let att := c.attestations intentId
  let tag := if 0 < att.attestedAt then att.providerTag else .unset
  if c.revenueSplitter ≠ 0 ∧ 0 < (c.intents intentId).fee ∧ tag ≠ .unset then
    notify (play keccak256) p.tagFeeOrigin w
  else w

def markSettled (intentId nullifier : Word) (c : State) : State :=
  { c with intents := update c.intents intentId { c.intents intentId with
    status := .settled
    settledAt := m.timestamp
    proofNullifier := nullifier } }

/-- The call to the SP1 or the zkGPT verifier; none is mock mode. -/
def verifyProof (useZkGPT : Bool) (p : Peers) (w : World) : Except Revert World :=
  let c := w.state.circuit
  let verifier := if useZkGPT ∧ c.zkVerifierZkGPT ≠ 0 then c.zkVerifierZkGPT else c.zkVerifier
  if verifier ≠ 0 then ask (play keccak256) .proofFailed p.verifyProof w else .ok w

/-- Only a completed intent under an unused nullifier is settled. -/
def settleIntent (intentId nullifier : Word) (useZkGPT : Bool) (p : Peers) (w : World) : Except Revert World := do
  let c := w.state.circuit
  onlyRole m .relayer
  revertIf c.paused .enforcedPause
  let i := c.intents intentId
  revertIf (i.submittedAt = 0) .intentNotFound
  revertIf (i.status ≠ .completed) (.invalidIntentStatus i.status .completed)
  revertIf (c.usedNullifiers nullifier) .nullifierUsed
  -- spent before the verifier is called
  let w := w.write (w.state.put { c with usedNullifiers := update c.usedNullifiers nullifier true })
  let w ← verifyProof keccak256 useZkGPT p w
  .ok (tagFeeOrigin keccak256 intentId p (w.write (w.state.put (markSettled m intentId nullifier w.state.circuit))))

def markFailed (intentId : Word) (c : State) : State :=
  { c with intents := update c.intents intentId { c.intents intentId with status := .failed } }

def noteRefund (intentId : Word) (s : Chain) : Chain :=
  { s with refunds := s.refunds ++ [{
      intentId := intentId
      asset := .native
      requester := (s.circuit.intents intentId).requester
      amount := (s.circuit.intents intentId).payment }] }

/-- The failure path: any record, whatever its status and the asset it was paid in. -/
def failIntent (intentId : Word) (p : Peers) (w : World) : Except Revert World := do
  onlyRole m .relayer
  let i := w.state.circuit.intents intentId
  revertIf (i.submittedAt = 0) .intentNotFound
  let w := w.write (w.state.put (markFailed intentId w.state.circuit))
  if 0 < i.payment then
    send (play keccak256) .refundFailed .native p.refund i.payment (w.write (noteRefund intentId w.state))
  else .ok w

end Settle

/-! ## Transactions -/

/-- The entry points with a reentrancy guard, and those without one. -/
inductive Call where
  | submitPresetIntent (value : Nat) (presetId : Word) (gpuTier : GpuTier) (serviceId inputHash : Word)
  | submitIntent (value : Nat) (serviceId inputHash : Word)
  | submitIntentWithTDROP (serviceId inputHash : Word)
  | settleIntent (intentId nullifier : Word) (useZkGPT : Bool)
  | failIntent (intentId : Word)
  | openCall (call : OpenCall)

/-- A transaction, and how the accounts it reaches answer. -/
structure Tx where
  msg : Msg
  call : Call
  peers : Peers

section Run

variable (keccak256 : List UInt8 → Word)

def exec (tx : Tx) (w : World) : Except Revert World :=
  match tx.call with
  | .submitPresetIntent value presetId gpuTier serviceId inputHash =>
    submitPresetIntent keccak256 tx.msg value presetId gpuTier serviceId inputHash tx.peers w
  | .submitIntent value serviceId inputHash => submitIntent keccak256 tx.msg value serviceId inputHash tx.peers w
  | .submitIntentWithTDROP serviceId inputHash =>
    submitIntentWithTDROP keccak256 tx.msg serviceId inputHash tx.peers w
  | .settleIntent intentId nullifier useZkGPT => settleIntent keccak256 tx.msg intentId nullifier useZkGPT tx.peers w
  | .failIntent intentId => failIntent keccak256 tx.msg intentId tx.peers w
  | .openCall call => execOpen keccak256 tx.msg call w

/-- A transaction that reverts changes nothing. -/
def step (w : World) (tx : Tx) : World :=
  match exec keccak256 tx w with
  | .ok w' => w'
  | .error _ => w

/-- A contract as deployed: nothing drawn, approved or refunded, whatever it was sent before. -/
def start (revenueSplitter zkVerifier : Address) (holdings : Asset → Nat) : World where
  state := {
    circuit := deploy revenueSplitter zkVerifier
    approved := fun _ _ => 0
    drawn := []
    paidIn := fun _ => .native
    refunds := [] }
  holdings := holdings

def run (w : World) (txs : List Tx) : World := Trace.run (step keccak256) w txs

end Run

end ThetaCircuit
