import Chit402.ExceptFlowProofs
import Chit402.LittleEndianProofs

/-! # The settlement guest program

    The program whose accepting runs the bridge proves: it reads a batch,
    validates each entry by its proof type and commits one nullifier per
    entry.  A failed assertion, a failed `expect` and an index out of bounds
    all abort the run, here as the error with that message.

    Amounts are 32 little-endian bytes, but their arithmetic is that of the
    low 16.  Keccak-256 comes from a crate and is a parameter. -/

namespace Sp1Guest

open LittleEndian

abbrev Address := Fin 20 → UInt8

abbrev Hash256 := Fin 32 → UInt8

/-! ## Aborts -/

/-- `assert!`. -/
def assert (c : Prop) [Decidable c] (message : String) : Except String Unit :=
  if c then .ok () else .error message

/-- `Option::expect`. -/
def expect {α : Type} (o : Option α) (message : String) : Except String α :=
  match o with
  | some a => .ok a
  | none => .error message

/-! ## Amounts -/

@[ext] structure U256 where
  bytes : Fin 32 → UInt8

/-- `eq`: all 32 bytes agree. -/
instance : DecidableEq U256 := fun u v =>
  decidable_of_iff (∀ i, u.bytes i = v.bytes i) (U256.ext_iff.trans funext_iff).symm

/-- The first `width` bytes of a number in an otherwise zero array of 32. -/
def padded (width n : ℕ) : Hash256 := fun i => if i.val < width then byteAt n i else 0

namespace U256

/-- The integer all 32 bytes spell. -/
def value (u : U256) : ℕ := LittleEndian.value (List.ofFn u.bytes)

/-- `u128::from_le_bytes(self.0[..16])`. -/
def asU128 (u : U256) : ℕ := LittleEndian.value ((List.ofFn u.bytes).take 16)

/-- The result array of the arithmetic: 16 bytes copied into zeros. -/
def ofU128 (n : ℕ) : U256 := ⟨padded 16 n⟩

def fromU64 (value : UInt64) : U256 := ⟨padded 8 value.toNat⟩

def isZero (u : U256) : Bool := decide (∀ i, u.bytes i = 0)

/-- The number fits `maxBits` bits: the only check that reads all 32 bytes. -/
def checkRange (u : U256) (maxBits : ℕ) : Bool :=
  decide (256 - leadingZeros (List.ofFn u.bytes).reverse ≤ maxBits)

/-- Multiplication of the low halves; the high halves are dropped unread. -/
def checkedMul (u v : U256) : Option U256 :=
  if u.asU128 * v.asU128 < 2 ^ 128 then some (ofU128 (u.asU128 * v.asU128)) else none

def checkedSub (u v : U256) : Option U256 :=
  if v.asU128 ≤ u.asU128 then some (ofU128 (u.asU128 - v.asU128)) else none

def checkedAdd (u v : U256) : Option U256 :=
  if u.asU128 + v.asU128 < 2 ^ 128 then some (ofU128 (u.asU128 + v.asU128)) else none

def div (u : U256) (divisor : ℕ) : U256 := ofU128 (u.asU128 / divisor)

def lt (u v : U256) : Bool := decide (u.asU128 < v.asU128)

/-- The order goes by the low halves too. -/
def gte (u v : U256) : Bool := decide (v.asU128 ≤ u.asU128)

end U256

/-! ## Batch inputs and output -/

inductive ChainId where
  | theta | osmosis | akash | bittensor | persistence
deriving DecidableEq

inductive MessageType where
  | computeBid | computeResult | inferenceRequest | capabilityQuery | dataAttestation
deriving DecidableEq

inductive ProofType where
  | forwardDeposit | reverseBurn | feeBurn | aiTask | a2aMessage
deriving DecidableEq

inductive ProofOutcome where
  | valid
  | regenerable (reasonHash : Hash256)
  | invalid (reasonHash : Hash256)
deriving DecidableEq

/-- What a forward deposit makes public. -/
structure PublicInputs where
  vaultAddress : Address
  netAmount : U256
  blockNumber : UInt64
  merkleRoot : Hash256
  identityCommitment : Hash256

/-- What the prover supplies of a forward deposit. -/
structure PrivateInputs where
  senderAddress : Address
  grossAmount : U256
  feeAmount : U256
  blockHash : Hash256
  blockTimestamp : UInt64
  txHash : Hash256
  txIndex : UInt16
  merkleProof : List Hash256
  merklePathIndices : List Bool
  identitySecret : Hash256
  identityNullifier : Hash256
  identityTrapdoor : Hash256

/-- What a reverse burn makes public. -/
structure ReverseBurnPublicInputs where
  userAddress : Hash256
  thetaRecipient : Address
  burnedAmount : U256
  nonce : UInt64
  blockHeight : UInt64
  timestamp : UInt64
  chainId : Hash256

structure ReverseBurnPrivateInputs where
  txHash : Hash256
  eventIndex : UInt16
  feeAmount : U256
  grossAmount : U256

structure FeeBurnPublicInputs where
  feeAmount : U256
  burnCount : UInt64
  blockHeight : UInt64
  timestamp : UInt64

/-- What a task makes public. -/
structure AITaskPublicInputs where
  taskType : MessageType
  sourceChain : ChainId
  destinationChain : ChainId
  taskIdHash : Hash256
  senderHash : Hash256
  netAmount : U256
  feeAmount : U256
  feeBps : UInt16
  outputHash : Hash256
  blockHeight : UInt64
  timestamp : UInt64
  nonce : UInt64
  paymentCommitment : Hash256

structure AITaskPrivateInputs where
  grossAmount : U256
  sourceTxHash : Hash256
  modelIdHash : Hash256
  inputHash : Hash256
  providerHash : Hash256
  executionDurationMs : UInt64
  ibcChannelHash : Hash256
  taoEvmTarget : Address
  paymentRefHash : Hash256
  paymentRail : UInt8

/-- What a message makes public. -/
structure A2AMessagePublicInputs where
  msgType : MessageType
  senderChain : ChainId
  recipientChain : ChainId
  payloadHash : Hash256
  nonce : UInt64
  escrowAmount : U256
  timestamp : UInt64
  ttl : UInt64
  blockHeight : UInt64

structure A2AMessagePrivateInputs where
  senderIdentity : Hash256
  senderAddress : Hash256
  recipientAddress : Hash256
  escrowTxHash : Hash256
  ibcChannelHash : Hash256
  payloadSize : UInt32

/-- One batch: its type, its size and the list of that type. -/
structure UnifiedBatchPublicInputs where
  publicValuesVersion : UInt8
  proofType : ProofType
  batchSize : UInt32
  deposits : List PublicInputs
  reverseBurns : List ReverseBurnPublicInputs
  feeBurns : List FeeBurnPublicInputs
  aiTasks : List AITaskPublicInputs
  a2aMessages : List A2AMessagePublicInputs

structure UnifiedBatchPrivateInputs where
  deposits : List PrivateInputs
  reverseBurns : List ReverseBurnPrivateInputs
  aiTasks : List AITaskPrivateInputs
  a2aMessages : List A2AMessagePrivateInputs

/-- What the guest commits. -/
structure UnifiedBatchOutput where
  proofType : ProofType
  batchSize : UInt32
  nullifiers : List Hash256
  batchCommitment : Hash256
  outcome : ProofOutcome
  aggregateFee : U256
  outputHashes : List Hash256
  paymentCommitments : List Hash256
  publicValuesVersion : UInt8

/-! ## Hashing -/

def isValidHash (hash : Hash256) : Bool := decide (∃ i, hash i ≠ 0)

def isValidAddress (addr : Address) : Bool := decide (∃ i, addr i ≠ 0)

def isZeroAddress (addr : Address) : Bool := decide (∀ i, addr i = 0)

/-- `addr_hash[..20].copy_from_slice(addr)`. -/
def paddedAddress (addr : Address) : Hash256 := fun i => if h : i.val < 20 then addr ⟨i, h⟩ else 0

scoped instance neZero_32 : NeZero 32 := ⟨by decide⟩

/-- One input xored in: as `j` runs over the bytes, `(j + rotate) % 32` meets every place once. -/
def absorb (i : ℕ) (result input : Hash256) : Hash256 :=
  fun place => result place ^^^ input (place - Fin.ofNat 32 (i * 7))

/-- The loop over the inputs, from input number `i`. -/
def absorbFrom : ℕ → Hash256 → List Hash256 → Hash256
  | _, result, [] => result
  | i, result, input :: rest => absorbFrom (i + 1) (absorb i result input) rest

/-- The last loop, byte by byte, wrapping. -/
def scramble (result : Hash256) : Hash256 := fun i => result i * 251 + UInt8.ofNat i.val

/-- The hash of the guest, by its name in the source: a rotated xor, scrambled. -/
def poseidonHash (inputs : List Hash256) : Hash256 := scramble (absorbFrom 0 (fun _ => 0) inputs)

/-- The root the loop over siblings ends with. -/
def merklePath : Hash256 → List (Bool × Hash256) → Hash256
  | current, [] => current
  | current, (isRight, sibling) :: rest =>
    merklePath (poseidonHash (if isRight = true then [sibling, current] else [current, sibling])) rest

def verifyMerkleProof (leaf root : Hash256) (proof : List Hash256) (indices : List Bool) : Bool :=
  -- no siblings: the leaf is the root
  if proof = [] then decide (leaf = root)
  else if proof.length ≠ indices.length then false
  else if ∃ sibling ∈ proof, isValidHash sibling = false then false
  else decide (merklePath leaf (indices.zip proof) = root)

/-! ## Payment binding -/

/-- Big-endian, from the low 16 bytes. -/
def u256Be32FromLeBytes (le : U256) : Hash256 :=
  fun i => if 16 ≤ i.val then byteAt le.asU128 (31 - i.val) else 0

def computePaymentCommitment (keccak256 : List UInt8 → Hash256) (paymentRefHash taskIdHash : Hash256)
    (paymentRail : UInt8) (amountBe32 : Hash256) : Hash256 :=
  keccak256 (List.ofFn paymentRefHash ++ List.ofFn taskIdHash ++ [paymentRail] ++ List.ofFn amountBe32)

/-! ## Fees -/

def fifty : U256 := ⟨fun i => if i.val = 0 then 50 else 0⟩

/-- 0.01 TFUEL. -/
def minDeposit : U256 := ⟨padded 8 10000000000000000⟩

/-- The half-percent fee of deposits and reverse burns: the fee and what is left, both as claimed. -/
def checkFee (gross fee rest : U256) (underflow mismatch : String) : Except String Unit := do
  let grossTimes50 ← expect (gross.checkedMul fifty) "Fee calculation overflow"
  let feeExpected := grossTimes50.div 10000
  assert (feeExpected = fee) "Fee calculation mismatch"
  let restCheck ← expect (gross.checkedSub fee) underflow
  assert (restCheck = rest) mismatch

/-- The fee of a task and what is left of its gross amount. -/
def calculateTaskFee (grossAmount : U256) (feeBps : UInt16) : Except String (U256 × U256) := do
  assert (50 ≤ feeBps ∧ feeBps ≤ 100) "Task fee BPS must be 50-100 (0.5%-1.0%)"
  let bpsU256 : U256 := ⟨padded 2 feeBps.toNat⟩
  let grossTimesBps ← expect (grossAmount.checkedMul bpsU256) "Task fee calculation overflow"
  let feeAmount := grossTimesBps.div 10000
  let netAmount ← expect (grossAmount.checkedSub feeAmount) "Task fee subtraction underflow"
  return (feeAmount, netAmount)

def chainDiscriminant : ChainId → UInt8
  | .theta => 0
  | .osmosis => 1
  | .akash => 2
  | .bittensor => 3
  | .persistence => 4

def feeCollectorCommitment (feeAmount : U256) (taskIdHash : Hash256) (sourceChain : ChainId) : Hash256 :=
  poseidonHash [feeAmount.bytes, taskIdHash, fun i => if i.val = 0 then chainDiscriminant sourceChain else 0]

/-! ## Deposits -/

/-- What the leaf of a deposit is hashed from. -/
def leafInputs (pub : PublicInputs) (priv : PrivateInputs) : List Hash256 :=
  [priv.txHash, paddedAddress priv.senderAddress, paddedAddress pub.vaultAddress, priv.grossAmount.bytes,
    padded 8 pub.blockNumber.toNat, padded 2 priv.txIndex.toNat]

def txLeaf (pub : PublicInputs) (priv : PrivateInputs) : Hash256 := poseidonHash (leafInputs pub priv)

/-- The nullifier of a deposit starts from a hash that the prover picks. -/
def depositNullifierInputs (pub : PublicInputs) (priv : PrivateInputs) : List Hash256 :=
  [priv.identityNullifier, priv.txHash, padded 8 pub.blockNumber.toNat, paddedAddress pub.vaultAddress]

/-- The nullifier of a deposit that passes every assertion. -/
def validateDeposit (pub : PublicInputs) (priv : PrivateInputs) : Except String Hash256 := do
  assert (isValidAddress pub.vaultAddress = true) "CRITICAL: Vault address is zero"
  assert (isValidAddress priv.senderAddress = true) "CRITICAL: Sender address is zero"
  assert (priv.grossAmount.isZero = false) "CRITICAL: Gross amount is zero"
  assert (pub.netAmount.isZero = false) "CRITICAL: Net amount is zero"
  assert (isValidHash priv.txHash = true) "CRITICAL: Transaction hash is zero"
  assert (priv.merkleProof ≠ [] → isValidHash pub.merkleRoot = true) "CRITICAL: Merkle root is zero"
  assert (isValidHash priv.blockHash = true) "CRITICAL: Block hash is zero"
  assert (priv.merkleProof ≠ [] → priv.merkleProof.length ≤ 32) "CRITICAL: Merkle proof too long (max 32 levels)"
  assert (priv.merkleProof ≠ [] → priv.merkleProof.length = priv.merklePathIndices.length)
    "CRITICAL: Merkle proof and indices length mismatch"
  assert (0 < pub.blockNumber) "CRITICAL: Block number is zero"
  assert (1600000000 < priv.blockTimestamp) "CRITICAL: Block timestamp too old (before 2020)"
  assert (priv.blockTimestamp < 2000000000) "CRITICAL: Block timestamp too far in future (after 2033)"
  assert (priv.grossAmount.checkRange 252 = true) "Gross amount exceeds 252 bits"
  assert (pub.netAmount.checkRange 252 = true) "Net amount exceeds 252 bits"
  assert (priv.feeAmount.checkRange 252 = true) "Fee amount exceeds 252 bits"
  -- fee and net amount are recomputed from the gross amount
  checkFee priv.grossAmount priv.feeAmount pub.netAmount "Net amount calculation underflow"
    "Net amount calculation mismatch"
  assert (pub.netAmount.lt priv.grossAmount = true) "Net amount not less than gross"
  assert (priv.grossAmount.gte minDeposit = true) "Deposit below minimum (0.01 TFUEL)"
  -- without a path no root is checked
  assert
    (priv.merkleProof ≠ [] →
      verifyMerkleProof (txLeaf pub priv) pub.merkleRoot priv.merkleProof priv.merklePathIndices = true)
    "Merkle proof verification failed"
  return poseidonHash (depositNullifierInputs pub priv)

/-! ## Burns -/

def reverseBurnNullifierInputs (pub : ReverseBurnPublicInputs) (priv : ReverseBurnPrivateInputs) : List Hash256 :=
  [pub.userAddress, padded 8 pub.nonce.toNat, paddedAddress pub.thetaRecipient, pub.burnedAmount.bytes, priv.txHash]

/-- The nullifier of a burn that passes every assertion. -/
def validateReverseBurn (pub : ReverseBurnPublicInputs) (priv : ReverseBurnPrivateInputs) : Except String Hash256 := do
  assert (isValidHash pub.userAddress = true) "CRITICAL: User address is zero"
  assert (isValidAddress pub.thetaRecipient = true) "CRITICAL: Theta recipient is zero"
  assert (pub.burnedAmount.isZero = false) "CRITICAL: Burned amount is zero"
  assert (priv.grossAmount.isZero = false) "CRITICAL: Gross amount is zero"
  assert (isValidHash priv.txHash = true) "CRITICAL: Transaction hash is zero"
  assert (0 < pub.blockHeight) "CRITICAL: Block height is zero"
  assert (1600000000 < pub.timestamp) "CRITICAL: Timestamp too old (before 2020)"
  assert (pub.timestamp < 2000000000) "CRITICAL: Timestamp too far in future (after 2033)"
  assert (priv.grossAmount.checkRange 252 = true) "Gross amount exceeds 252 bits"
  assert (pub.burnedAmount.checkRange 252 = true) "Burned amount exceeds 252 bits"
  assert (priv.feeAmount.checkRange 252 = true) "Fee amount exceeds 252 bits"
  checkFee priv.grossAmount priv.feeAmount pub.burnedAmount "Burned amount calculation underflow"
    "Burned amount calculation mismatch"
  assert (priv.grossAmount.gte minDeposit = true) "Burn below minimum (0.01 TFUEL equivalent)"
  return poseidonHash (reverseBurnNullifierInputs pub priv)

def feeBurnNullifierInputs (pub : FeeBurnPublicInputs) : List Hash256 :=
  [padded 8 pub.burnCount.toNat, pub.feeAmount.bytes, padded 8 pub.blockHeight.toNat]

def validateFeeBurn (pub : FeeBurnPublicInputs) : Except String Hash256 := do
  assert (pub.feeAmount.isZero = false) "CRITICAL: Fee amount is zero"
  assert (0 < pub.burnCount) "CRITICAL: Burn count is zero"
  assert (0 < pub.blockHeight) "CRITICAL: Block height is zero"
  assert (1600000000 < pub.timestamp) "CRITICAL: Timestamp too old (before 2020)"
  assert (pub.timestamp < 2000000000) "CRITICAL: Timestamp too far in future (after 2033)"
  assert (pub.feeAmount.checkRange 252 = true) "Fee amount exceeds 252 bits"
  return poseidonHash (feeBurnNullifierInputs pub)

/-! ## Tasks -/

def checkTaskType (pub : AITaskPublicInputs) (priv : AITaskPrivateInputs) : Except String Unit :=
  match pub.taskType with
  | .computeResult => do
    assert (isValidHash pub.outputHash = true) "COMPUTE_RESULT requires non-zero output_hash"
    assert (0 < priv.executionDurationMs) "COMPUTE_RESULT requires positive execution duration"
  | .inferenceRequest => do
    assert (isValidHash priv.modelIdHash = true) "INFERENCE_REQUEST requires non-zero model_id_hash"
    assert (isValidHash priv.inputHash = true) "INFERENCE_REQUEST requires non-zero input_hash"
  | .computeBid => assert (isValidHash priv.providerHash = true) "COMPUTE_BID requires non-zero provider_hash"
  | .dataAttestation =>
    assert (isValidHash priv.inputHash = true) "DATA_ATTESTATION requires non-zero input_hash (data hash)"
  | .capabilityQuery => .ok ()

/-- The checks that depend on where the task settles. -/
def checkDestination (pub : AITaskPublicInputs) (priv : AITaskPrivateInputs) : Except String Unit :=
  match pub.destinationChain with
  | .osmosis | .akash | .persistence =>
    assert (isValidHash priv.ibcChannelHash = true) "IBC destination requires non-zero ibc_channel_hash"
  | .bittensor =>
    assert (isZeroAddress priv.taoEvmTarget = false → isValidAddress priv.taoEvmTarget = true)
      "TAO EVM target must be valid when specified"
  | .theta => .ok ()

/-- The commitment that is published, checked against its witness where one is bound. -/
def effectivePaymentCommitment (keccak256 : List UInt8 → Hash256) (pub : AITaskPublicInputs)
    (priv : AITaskPrivateInputs) (publicValuesVersion : UInt8) : Except String Hash256 :=
  if publicValuesVersion = 2 ∧ isValidHash pub.paymentCommitment = true then do
    assert (isValidHash priv.paymentRefHash = true) "v2 payment binding requires non-zero payment_ref_hash witness"
    assert (priv.paymentRail = 1 ∨ priv.paymentRail = 2) "Invalid payment rail (expected 1=USDC or 2=TFUEL)"
    assert
      (computePaymentCommitment keccak256 priv.paymentRefHash pub.taskIdHash priv.paymentRail
          (u256Be32FromLeBytes pub.netAmount) = pub.paymentCommitment)
      "Payment commitment mismatch (x402 binding)"
    return pub.paymentCommitment
  else do
    -- a payment that is not bound is published as zero
    assert (isValidHash pub.paymentCommitment = false)
      "payment_commitment must be bytes32(0) unless public_values_version == 2"
    return fun _ => 0

def taskNullifierInputs (pub : AITaskPublicInputs) (priv : AITaskPrivateInputs) : List Hash256 :=
  [pub.taskIdHash, pub.senderHash, padded 8 pub.nonce.toNat, padded 8 pub.blockHeight.toNat, priv.sourceTxHash]

def effectiveOutputHash (pub : AITaskPublicInputs) (priv : AITaskPrivateInputs) : Hash256 :=
  if pub.taskType = .computeResult then poseidonHash [pub.outputHash, pub.taskIdHash, priv.sourceTxHash]
  else poseidonHash [pub.taskIdHash, priv.modelIdHash, priv.inputHash]

/-- The four hashes a validated task yields. -/
structure TaskHashes where
  nullifier : Hash256
  feeCommitment : Hash256
  outputHash : Hash256
  paymentCommitment : Hash256

/-- The hashes of a task that passes every assertion. -/
def validateAiTask (keccak256 : List UInt8 → Hash256) (pub : AITaskPublicInputs) (priv : AITaskPrivateInputs)
    (publicValuesVersion : UInt8) : Except String TaskHashes := do
  assert (isValidHash pub.taskIdHash = true) "CRITICAL: Task ID hash is zero"
  assert (isValidHash pub.senderHash = true) "CRITICAL: Sender hash is zero"
  assert (priv.grossAmount.isZero = false) "CRITICAL: Gross amount is zero"
  assert (pub.netAmount.isZero = false) "CRITICAL: Net amount is zero"
  assert (isValidHash priv.sourceTxHash = true) "CRITICAL: Source transaction hash is zero"
  assert (0 < pub.blockHeight) "CRITICAL: Block height is zero"
  assert (1600000000 < pub.timestamp) "CRITICAL: Timestamp too old (before 2020)"
  assert (pub.timestamp < 2000000000) "CRITICAL: Timestamp too far in future (after 2033)"
  assert (priv.grossAmount.checkRange 252 = true) "Gross amount exceeds 252 bits"
  assert (pub.netAmount.checkRange 252 = true) "Net amount exceeds 252 bits"
  assert (pub.feeAmount.checkRange 252 = true) "Fee amount exceeds 252 bits"
  assert (50 ≤ pub.feeBps ∧ pub.feeBps ≤ 100) "Task fee BPS out of range (must be 50-100)"
  let expected ← calculateTaskFee priv.grossAmount pub.feeBps
  assert (expected.1 = pub.feeAmount) "AI task fee calculation mismatch"
  assert (expected.2 = pub.netAmount) "AI task net amount calculation mismatch"
  assert (pub.netAmount.lt priv.grossAmount = true) "Net amount not less than gross"
  checkTaskType pub priv
  checkDestination pub priv
  assert (priv.grossAmount.gte (U256.fromU64 2000) = true) "Task amount below minimum threshold"
  let paymentCommitment ← effectivePaymentCommitment keccak256 pub priv publicValuesVersion
  return {
    nullifier := poseidonHash (taskNullifierInputs pub priv)
    feeCommitment := feeCollectorCommitment pub.feeAmount pub.taskIdHash pub.sourceChain
    outputHash := effectiveOutputHash pub priv
    paymentCommitment }

/-! ## Messages -/

/-- The checks that depend on the kind of message. -/
def checkMsgType (pub : A2AMessagePublicInputs) : Except String Unit :=
  match pub.msgType with
  | .computeBid => assert (pub.escrowAmount.isZero = false) "COMPUTE_BID requires non-zero escrow"
  | .computeResult => .ok ()
  | .inferenceRequest =>
    assert (pub.escrowAmount.isZero = false) "INFERENCE_REQUEST requires non-zero escrow (budget)"
  | .capabilityQuery => assert (pub.escrowAmount.isZero = true) "CAPABILITY_QUERY should not have escrow"
  | .dataAttestation => .ok ()

def messageNullifierInputs (pub : A2AMessagePublicInputs) (priv : A2AMessagePrivateInputs) : List Hash256 :=
  [priv.senderIdentity, pub.payloadHash, padded 8 pub.nonce.toNat, padded 8 pub.timestamp.toNat, priv.senderAddress]

/-- The nullifier of a message that passes every assertion. -/
def validateA2aMessage (pub : A2AMessagePublicInputs) (priv : A2AMessagePrivateInputs) : Except String Hash256 := do
  assert (isValidHash pub.payloadHash = true) "CRITICAL: Payload hash is zero"
  assert (isValidHash priv.senderIdentity = true) "CRITICAL: Sender identity is zero (agent not registered)"
  assert (isValidHash priv.senderAddress = true) "CRITICAL: Sender address is zero"
  assert (isValidHash priv.recipientAddress = true) "CRITICAL: Recipient address is zero"
  assert (1600000000 < pub.timestamp) "CRITICAL: Timestamp too old (before 2020)"
  assert (pub.timestamp < 2000000000) "CRITICAL: Timestamp too far in future (after 2033)"
  assert (0 < pub.blockHeight) "CRITICAL: Block height is zero"
  assert (0 < pub.ttl) "CRITICAL: TTL is zero"
  assert (pub.ttl ≤ 86400) "CRITICAL: TTL exceeds 24 hours"
  assert (pub.escrowAmount.isZero = false → pub.escrowAmount.checkRange 252 = true) "Escrow amount exceeds 252 bits"
  assert (pub.escrowAmount.isZero = false → isValidHash priv.escrowTxHash = true)
    "Non-zero escrow requires valid escrow_tx_hash"
  assert (pub.senderChain ≠ pub.recipientChain → isValidHash priv.ibcChannelHash = true)
    "Cross-chain A2A message requires valid ibc_channel_hash"
  assert (0 < priv.payloadSize) "CRITICAL: Payload size is zero"
  assert (priv.payloadSize ≤ 1048576) "CRITICAL: Payload exceeds 1MB limit"
  checkMsgType pub
  return poseidonHash (messageNullifierInputs pub priv)

/-! ## The batch -/

/-- What the loops of `main` push to and add up. -/
structure BatchState where
  nullifiers : List Hash256
  aggregateFee : U256
  outputHashes : List Hash256
  paymentCommitments : List Hash256

def BatchState.push (st : BatchState) (nullifier : Hash256) : BatchState :=
  { st with nullifiers := st.nullifiers ++ [nullifier] }

def depositStep (st : BatchState) (e : PublicInputs × PrivateInputs) : Except String BatchState := do
  let nullifier ← validateDeposit e.1 e.2
  return st.push nullifier

def reverseBurnStep (st : BatchState) (e : ReverseBurnPublicInputs × ReverseBurnPrivateInputs) :
    Except String BatchState := do
  let nullifier ← validateReverseBurn e.1 e.2
  return st.push nullifier

def feeBurnStep (st : BatchState) (e : FeeBurnPublicInputs) : Except String BatchState := do
  let nullifier ← validateFeeBurn e
  return st.push nullifier

/-- A task adds its fee to the aggregate; an overflow aborts. -/
def aiTaskStep (keccak256 : List UInt8 → Hash256) (publicValuesVersion : UInt8) (st : BatchState)
    (e : AITaskPublicInputs × AITaskPrivateInputs) : Except String BatchState := do
  let hashes ← validateAiTask keccak256 e.1 e.2 publicValuesVersion
  let aggregateFee ← expect (st.aggregateFee.checkedAdd e.1.feeAmount) "Aggregate fee overflow"
  return {
    nullifiers := st.nullifiers ++ [hashes.nullifier]
    aggregateFee
    outputHashes := st.outputHashes ++ [hashes.outputHash]
    paymentCommitments := st.paymentCommitments ++ [hashes.paymentCommitment] }

/-- The relay fee of a message; an overflow counts as no escrow. -/
def relayFee (escrowAmount : U256) : U256 :=
  ((escrowAmount.checkedMul (U256.fromU64 10)).getD (U256.fromU64 0)).div 10000

/-- A message adds its relay fee; an overflow leaves the aggregate as it was. -/
def a2aMessageStep (st : BatchState) (e : A2AMessagePublicInputs × A2AMessagePrivateInputs) :
    Except String BatchState := do
  let nullifier ← validateA2aMessage e.1 e.2
  let aggregateFee :=
    if e.1.escrowAmount.isZero = true then st.aggregateFee
    else (st.aggregateFee.checkedAdd (relayFee e.1.escrowAmount)).getD st.aggregateFee
  return { st.push nullifier with aggregateFee }

/-- `batch_size == list.len() as u32`. -/
def SizeMatches {α : Type} (batchSize : UInt32) (list : List α) : Prop := batchSize = UInt32.ofNat list.length

instance {α : Type} (batchSize : UInt32) (list : List α) : Decidable (SizeMatches batchSize list) :=
  inferInstanceAs (Decidable (_ = _))

/-- The pairs at indices below the batch size, in the order of the loop. -/
def entries {α β : Type} (batchSize : UInt32) (pub : List α) (priv : List β) : List (α × β) :=
  (pub.zip priv).take batchSize.toNat

/-- The loop of the proof type, once the sizes agree. -/
def processBatch (keccak256 : List UInt8 → Hash256) (pub : UnifiedBatchPublicInputs)
    (priv : UnifiedBatchPrivateInputs) (st : BatchState) : Except String BatchState :=
  match pub.proofType with
  | .forwardDeposit => do
    assert (SizeMatches pub.batchSize pub.deposits) "Batch public size mismatch (ForwardDeposit)"
    assert (SizeMatches pub.batchSize priv.deposits) "Batch private size mismatch (ForwardDeposit)"
    (entries pub.batchSize pub.deposits priv.deposits).foldlM depositStep st
  | .reverseBurn => do
    assert (SizeMatches pub.batchSize pub.reverseBurns) "Batch public size mismatch (ReverseBurn)"
    assert (SizeMatches pub.batchSize priv.reverseBurns) "Batch private size mismatch (ReverseBurn)"
    (entries pub.batchSize pub.reverseBurns priv.reverseBurns).foldlM reverseBurnStep st
  | .feeBurn => do
    assert (SizeMatches pub.batchSize pub.feeBurns) "Batch public size mismatch (FeeBurn)"
    (pub.feeBurns.take pub.batchSize.toNat).foldlM feeBurnStep st
  | .aiTask => do
    assert (SizeMatches pub.batchSize pub.aiTasks) "Batch public size mismatch (AITask)"
    assert (SizeMatches pub.batchSize priv.aiTasks) "Batch private size mismatch (AITask)"
    (entries pub.batchSize pub.aiTasks priv.aiTasks).foldlM (aiTaskStep keccak256 pub.publicValuesVersion) st
  | .a2aMessage => do
    assert (SizeMatches pub.batchSize pub.a2aMessages) "Batch public size mismatch (A2AMessage)"
    assert (SizeMatches pub.batchSize priv.a2aMessages) "Batch private size mismatch (A2AMessage)"
    (entries pub.batchSize pub.a2aMessages priv.a2aMessages).foldlM a2aMessageStep st

/-- The nullifier of a single entry, the hash of several. -/
def batchCommitment (batchSize : UInt32) (nullifiers : List Hash256) : Except String Hash256 :=
  if batchSize = 1 then expect nullifiers[0]? "index out of bounds" else .ok (poseidonHash nullifiers)

/-- The guest, from the two inputs it reads to the output it commits. -/
def main (keccak256 : List UInt8 → Hash256) (pub : UnifiedBatchPublicInputs) (priv : UnifiedBatchPrivateInputs) :
    Except String UnifiedBatchOutput := do
  assert (0 < pub.batchSize) "Batch size must be at least 1"
  assert (pub.batchSize ≤ 20) "Batch size exceeds maximum (20)"
  let st ← processBatch keccak256 pub priv ⟨[], U256.fromU64 0, [], []⟩
  let commitment ← batchCommitment pub.batchSize st.nullifiers
  return {
    proofType := pub.proofType
    batchSize := pub.batchSize
    nullifiers := st.nullifiers
    batchCommitment := commitment
    outcome := .valid
    aggregateFee := st.aggregateFee
    outputHashes := st.outputHashes
    paymentCommitments := st.paymentCommitments
    publicValuesVersion := pub.publicValuesVersion }

end Sp1Guest
