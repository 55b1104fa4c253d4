import Chit402.CustodyProofs
import Chit402.SolidityProofs

/-! # The agent-to-agent circuit

    `A2ACircuit`: staked agents, and three products that hold money of
    theirs in one balance.

    The accounts the contract calls are data, as is the token of a bid: it
    moves what it is asked to, and may call back.  The stake token is the
    deployer's, and makes no calls of its own. -/

namespace A2ACircuit

open ExceptFlow Solidity Custody Function

/-! ## State -/

inductive Role where
  | defaultAdmin | relayer | operator
deriving DecidableEq

structure Agent where
  addr : Address
  identityCommitment : Word
  endpoint : List UInt8
  reputation : Nat
  tasksCompleted : Nat
  registeredAt : Nat
  active : Bool
  capabilities : List Word

inductive BidStatus where
  | «open» | accepted | completed | cancelled | disputed
deriving DecidableEq

structure Bid where
  bidId : Word
  requester : Address
  provider : Address
  taskHash : Word
  capabilityRequired : Word
  escrowAmount : Nat
  maxPrice : Nat
  acceptedPrice : Nat
  status : BidStatus
  createdAt : Nat
  deadline : Nat
  resultHash : Word
  proofNullifier : Word
  paymentToken : Address

structure PaymentChannel where
  channelId : Word
  payer : Address
  payee : Address
  deposit : Nat
  spent : Nat
  openedAt : Nat
  expiresAt : Nat
  active : Bool

inductive SwarmPhase where
  | forming | active | settling | dissolved
deriving DecidableEq

structure Swarm where
  swarmId : Word
  coordinator : Address
  objectiveHash : Word
  escrowPool : Nat
  settledAmount : Nat
  memberCount : Nat
  maxMembers : Nat
  phase : SwarmPhase
  formedAt : Nat
  settledAt : Nat
  settlementNullifier : Word

structure State where
  paused : Bool
  revenueSplitter : Address
  zkVerifier : Address
  fairExchangeProxy : Address
  stakeToken : Address
  minStake : Nat
  agentStakes : Address → Nat
  swarmTimeoutDuration : Nat
  relayFeeBps : Nat
  taskFeeBps : Nat
  agents : Address → Agent
  capabilityProviders : Word → Address
  agentCount : Nat
  bids : Word → Bid
  bidCount : Nat
  totalEscrow : Nat
  activeBids : Nat
  channels : Word → PaymentChannel
  channelCount : Nat
  usedNullifiers : Word → Bool
  swarms : Word → Swarm
  swarmMembers : Word → Address → Bool
  swarmCount : Nat
  totalSwarmSettlements : Nat
  swarmFeeBps : Nat
  totalRelayFees : Nat
  totalTaskFees : Nat
  totalMessagesRelayed : Nat
  totalSettled : Nat

def maxReputation : Nat := 10000

def bpsDenom : Nat := 10000

def maxSwarmSize : Nat := 18

/-- 30 days. -/
def maxDuration : Nat := 2592000

def noAgent : Agent where
  addr := 0
  identityCommitment := 0
  endpoint := []
  reputation := 0
  tasksCompleted := 0
  registeredAt := 0
  active := false
  capabilities := []

/-- The record of an id that no bid has.  Its status reads open. -/
def noBid : Bid where
  bidId := 0
  requester := 0
  provider := 0
  taskHash := 0
  capabilityRequired := 0
  escrowAmount := 0
  maxPrice := 0
  acceptedPrice := 0
  status := .open
  createdAt := 0
  deadline := 0
  resultHash := 0
  proofNullifier := 0
  paymentToken := 0

def noChannel : PaymentChannel where
  channelId := 0
  payer := 0
  payee := 0
  deposit := 0
  spent := 0
  openedAt := 0
  expiresAt := 0
  active := false

def noSwarm : Swarm where
  swarmId := 0
  coordinator := 0
  objectiveHash := 0
  escrowPool := 0
  settledAmount := 0
  memberCount := 0
  maxMembers := 0
  phase := .forming
  formedAt := 0
  settledAt := 0
  settlementNullifier := 0

/-- The constructor. -/
def deploy (revenueSplitter zkVerifier stakeToken : Address) : State where
  paused := false
  revenueSplitter := revenueSplitter
  zkVerifier := zkVerifier
  fairExchangeProxy := 0
  stakeToken := stakeToken
  minStake := 100 * 10 ^ 18
  agentStakes := fun _ => 0
  swarmTimeoutDuration := 604800
  relayFeeBps := 10
  taskFeeBps := 50
  agents := fun _ => noAgent
  capabilityProviders := fun _ => 0
  agentCount := 0
  bids := fun _ => noBid
  bidCount := 0
  totalEscrow := 0
  activeBids := 0
  channels := fun _ => noChannel
  channelCount := 0
  usedNullifiers := fun _ => false
  swarms := fun _ => noSwarm
  swarmMembers := fun _ _ => false
  swarmCount := 0
  totalSwarmSettlements := 0
  swarmFeeBps := 30
  totalRelayFees := 0
  totalTaskFees := 0
  totalMessagesRelayed := 0
  totalSettled := 0

inductive Product where
  | bid | channel | swarm
deriving DecidableEq

/-- A bid, a channel or a swarm. -/
abbrev Source := Product × Word

/-- The contract, and what the tokens let others take from it.  The fields after
    `approved` are no storage: the strings hashed to ids, what each source was given, and
    what was charged to it. -/
structure Chain where
  circuit : State
  approved : Address → Address → Nat
  drawnBids : List (List UInt8)
  drawnChannels : List (List UInt8)
  drawnSwarms : List (List UInt8)
  given : Source → Asset → Nat
  paid : Source → Asset → Nat

def Chain.put (c : State) (s : Chain) : Chain := { s with circuit := c }

@[simp] theorem Chain.put_circuit (c : State) (s : Chain) : (s.put c).circuit = c := rfl

/-- The token's `approve`: the contract's allowance for `spender` becomes `amount`. -/
def approve (token spender : Address) (amount : Nat) (s : Chain) : Chain :=
  { s with approved := update s.approved token (update (s.approved token) spender amount) }

/-- `amount` was deposited for `src`. -/
def noteGiven (src : Source) (a : Asset) (amount : Nat) (s : Chain) : Chain :=
  { s with given := update s.given src (update (s.given src) a (s.given src a + amount)) }

/-- `amount` is charged to `src`: paid to someone, or kept as a fee. -/
def notePaid (src : Source) (a : Asset) (amount : Nat) (s : Chain) : Chain :=
  { s with paid := update s.paid src (update (s.paid src) a (s.paid src a + amount)) }

abbrev World := Custody.World Chain Asset

/-- The caller with its roles, and the block.  Block times are positive and fit `uint64`. -/
structure Msg where
  sender : Address
  timestamp : Nat
  blockNumber : Nat
  holds : Role → Bool
  positive : 0 < timestamp
  inRange : timestamp < 2 ^ 64

inductive Revert where
  | enforcedPause | expectedPause
  | unauthorized (account : Address) (role : Role)
  | agentNotRegistered | agentAlreadyRegistered | bidNotFound | bidNotOpen | bidExpired
  | bidNotAccepted | insufficientEscrow | channelNotFound | channelExpired | channelNotActive
  | insufficientChannelBalance | nullifierUsed | fairExchangeDisabled
  | invalidFairExchangeSignature | fairExchangeTFUELOnly | onlyRequester | priceTooHigh
  | swarmNotFound | swarmNotActive | swarmFull | alreadySwarmMember | slashAmountZero
  | slashExceedsStake | swarmNotTimedOut | notSwarmMember | stakeTransferFailed
  | notAuthorized | notAdminOrOperator | zeroEscrow | pastDeadline | zeroToken
  | tdropTransferFailed | proofFailed | providerPay | refund | refundFailed | zeroDeposit | invalidPayee
  | invalidDuration | onlyPayee | claimPay | notExpiredOrPayer | invalidSize | agentPay
  | notCoordinator | feeFwd | maxFee | feeRange | insufficientAllowance
  | panic
deriving DecidableEq

section Roles

variable (m : Msg)

def onlyRole (role : Role) : Except Revert Unit :=
  revertIf (m.holds role = false) (.unauthorized m.sender role)

end Roles

/-! ## Agents and configuration -/

section Configuration

variable (m : Msg)

/-- The first provider of each capability stays. -/
def indexCapabilities (capabilities : List Word) (providers : Word → Address) : Word → Address :=
  capabilities.foldl (fun providers cap =>
    if providers cap = 0 then update providers cap m.sender else providers) providers

def enrol (identityCommitment : Word) (endpoint : List UInt8) (capabilities : List Word) (c : State) :
    Except Revert State := do
  let agentCount ← addU .panic c.agentCount 1
  .ok { c with
    agents := update c.agents m.sender {
      addr := m.sender
      identityCommitment := identityCommitment
      endpoint := endpoint
      reputation := 0
      tasksCompleted := 0
      registeredAt := m.timestamp
      active := true
      capabilities := capabilities }
    capabilityProviders := indexCapabilities m capabilities c.capabilityProviders
    agentCount := agentCount }

def setStake (agent : Address) (amount : Nat) (c : State) : State :=
  { c with agentStakes := update c.agentStakes agent amount }

/-- `transferred` is the answer of the stake token. -/
def registerAgent (identityCommitment : Word) (endpoint : List UInt8) (capabilities : List Word)
    (transferred : Bool) (w : World) : Except Revert World := do
  let c := w.state.circuit
  revertIf c.paused .enforcedPause
  revertIf ((c.agents m.sender).registeredAt ≠ 0) .agentAlreadyRegistered
  if c.stakeToken ≠ 0 ∧ 0 < c.minStake then do
    revertIf (¬ transferred) .stakeTransferFailed
    let enrolled ← enrol m identityCommitment endpoint capabilities (setStake m.sender c.minStake c)
    .ok ((w.credit (.erc20 c.stakeToken) c.minStake).write (w.state.put enrolled))
  else do
    let enrolled ← enrol m identityCommitment endpoint capabilities c
    .ok (w.write (w.state.put enrolled))

def deactivateAgent (agent : Address) (c : State) : Except Revert State := do
  revertIf (m.sender ≠ agent ∧ m.holds .defaultAdmin = false) .notAuthorized
  revertIf ((c.agents agent).registeredAt = 0) .agentNotRegistered
  .ok { c with agents := update c.agents agent { c.agents agent with active := false } }

def slashAgent (agent : Address) (slashAmount : Nat) (transferred : Bool) (w : World) : Except Revert World := do
  let c := w.state.circuit
  revertIf (m.holds .defaultAdmin = false ∧ m.holds .operator = false) .notAdminOrOperator
  revertIf ((c.agents agent).registeredAt = 0) .agentNotRegistered
  revertIf (slashAmount = 0) .slashAmountZero
  revertIf (c.agentStakes agent < slashAmount) .slashExceedsStake
  let w := w.write (w.state.put (setStake agent (c.agentStakes agent - slashAmount) c))
  if c.stakeToken ≠ 0 ∧ c.revenueSplitter ≠ 0 then do
    revertIf (¬ transferred ∨ w.holdings (.erc20 c.stakeToken) < slashAmount) .stakeTransferFailed
    .ok (w.debit (.erc20 c.stakeToken) slashAmount)
  else .ok w

def updateReputation (agent : Address) (newReputation : Nat) (c : State) : Except Revert State := do
  onlyRole m .defaultAdmin
  revertIf ((c.agents agent).registeredAt = 0) .agentNotRegistered
  .ok { c with
    agents := update c.agents agent { c.agents agent with reputation := min newReputation maxReputation } }

def setRelayFee (bps : Nat) (c : State) : Except Revert State := do
  onlyRole m .defaultAdmin
  revertIf (100 < bps) .maxFee
  .ok { c with relayFeeBps := bps }

def setTaskFee (bps : Nat) (c : State) : Except Revert State := do
  onlyRole m .defaultAdmin
  revertIf (bps < 10 ∨ 100 < bps) .feeRange
  .ok { c with taskFeeBps := bps }

def setSwarmFee (bps : Nat) (c : State) : Except Revert State := do
  onlyRole m .defaultAdmin
  revertIf (100 < bps) .maxFee
  .ok { c with swarmFeeBps := bps }

def setRevenueSplitter (rs : Address) (c : State) : Except Revert State := do
  onlyRole m .defaultAdmin
  .ok { c with revenueSplitter := rs }

def setZKVerifier (zk : Address) (c : State) : Except Revert State := do
  onlyRole m .defaultAdmin
  .ok { c with zkVerifier := zk }

def setFairExchangeProxy (proxy : Address) (c : State) : Except Revert State := do
  onlyRole m .defaultAdmin
  .ok { c with fairExchangeProxy := proxy }

def setMinStake (minStake : Nat) (c : State) : Except Revert State := do
  onlyRole m .defaultAdmin
  .ok { c with minStake := minStake }

def setSwarmTimeout (duration : Nat) (c : State) : Except Revert State := do
  onlyRole m .defaultAdmin
  .ok { c with swarmTimeoutDuration := duration }

def pause (c : State) : Except Revert State := do
  onlyRole m .operator
  revertIf c.paused .enforcedPause
  .ok { c with paused := true }

def unpause (c : State) : Except Revert State := do
  onlyRole m .operator
  revertIf (¬ c.paused) .expectedPause
  .ok { c with paused := false }

end Configuration

/-! ## Acceptance and membership -/

section Joining

variable (m : Msg)

def acceptBid (bidId : Word) (price : Nat) (c : State) : Except Revert State := do
  revertIf c.paused .enforcedPause
  let b := c.bids bidId
  revertIf (b.createdAt = 0) .bidNotFound
  revertIf (b.status ≠ .open) .bidNotOpen
  revertIf (b.deadline < m.timestamp) .bidExpired
  revertIf (b.escrowAmount < price) .priceTooHigh
  revertIf (¬ (c.agents m.sender).active) .agentNotRegistered
  .ok { c with
    bids := update c.bids bidId { b with provider := m.sender, acceptedPrice := price, status := .accepted } }

def joinSwarm (swarmId : Word) (c : State) : Except Revert State := do
  revertIf c.paused .enforcedPause
  let s := c.swarms swarmId
  revertIf (s.formedAt = 0) .swarmNotFound
  revertIf (s.phase ≠ .forming ∧ s.phase ≠ .active) .swarmNotActive
  revertIf (s.maxMembers ≤ s.memberCount) .swarmFull
  revertIf (c.swarmMembers swarmId m.sender) .alreadySwarmMember
  revertIf (¬ (c.agents m.sender).active) .agentNotRegistered
  .ok { c with
    swarmMembers := update c.swarmMembers swarmId (update (c.swarmMembers swarmId) m.sender true)
    swarms := update c.swarms swarmId { s with
      memberCount := s.memberCount + 1
      phase := if s.phase = .forming then .active else s.phase } }

end Joining

/-! ## Calls that let others in -/

/-- The entry points without a reentrancy guard, and what others do to the contract's
    tokens: send it some, or take what it approved. -/
inductive OpenCall where
  | registerAgent (identityCommitment : Word) (endpoint : List UInt8) (capabilities : List Word)
      (transferred : Bool)
  | deactivateAgent (agent : Address)
  | slashAgent (agent : Address) (slashAmount : Nat) (transferred : Bool)
  | acceptBid (bidId : Word) (price : Nat)
  | joinSwarm (swarmId : Word)
  | updateReputation (agent : Address) (newReputation : Nat)
  | setRelayFee (bps : Nat)
  | setTaskFee (bps : Nat)
  | setSwarmFee (bps : Nat)
  | setRevenueSplitter (rs : Address)
  | setZKVerifier (zk : Address)
  | setFairExchangeProxy (proxy : Address)
  | setMinStake (minStake : Nat)
  | setSwarmTimeout (duration : Nat)
  | pause
  | unpause
  | receive (value : Nat)
  | sendTokens (token : Address) (amount : Nat)
  | takeApproved (token : Address) (amount : Nat)

section Open

variable (m : Msg)

/-- The calls that write only the contract's own storage. -/
def execConfig : OpenCall → State → Except Revert State
  | .deactivateAgent agent, c => deactivateAgent m agent c
  | .acceptBid bidId price, c => acceptBid m bidId price c
  | .joinSwarm swarmId, c => joinSwarm m swarmId c
  | .updateReputation agent newReputation, c => updateReputation m agent newReputation c
  | .setRelayFee bps, c => setRelayFee m bps c
  | .setTaskFee bps, c => setTaskFee m bps c
  | .setSwarmFee bps, c => setSwarmFee m bps c
  | .setRevenueSplitter rs, c => setRevenueSplitter m rs c
  | .setZKVerifier zk, c => setZKVerifier m zk c
  | .setFairExchangeProxy proxy, c => setFairExchangeProxy m proxy c
  | .setMinStake minStake, c => setMinStake m minStake c
  | .setSwarmTimeout duration, c => setSwarmTimeout m duration c
  | .pause, c => pause m c
  | .unpause, c => unpause m c
  | _, c => .ok c

/-- `transferFrom` of the contract's tokens by an approved spender. -/
def takeApproved (token : Address) (amount : Nat) (w : World) : Except Revert World := do
  revertIf (w.state.approved token m.sender < amount ∨ w.holdings (.erc20 token) < amount) .insufficientAllowance
  .ok ((w.debit (.erc20 token) amount).write
    (approve token m.sender (w.state.approved token m.sender - amount) w.state))

def execOpen (call : OpenCall) (w : World) : Except Revert World := do
  match call with
  | .registerAgent identityCommitment endpoint capabilities transferred =>
    registerAgent m identityCommitment endpoint capabilities transferred w
  | .slashAgent agent slashAmount transferred => slashAgent m agent slashAmount transferred w
  | .receive value => .ok (w.credit .native value)
  | .sendTokens token amount => .ok (w.credit (.erc20 token) amount)
  | .takeApproved token amount => takeApproved m token amount w
  | call =>
    let c ← execConfig m call w.state.circuit
    .ok (w.write (w.state.put c))

/-- A call made back.  One that reverts changes nothing. -/
def play (w : World) (n : Msg × OpenCall) : World :=
  match execOpen n.1 n.2 w with
  | .ok w' => w'
  | .error _ => w

end Open

abbrev Reply := Custody.Reply (Msg × OpenCall)

/-- How the accounts that a call reaches answer: who is paid, who is refunded, the
    splitter, the verifier and a bid's token. -/
structure Peers where
  payout : Reply
  refund : Reply
  depositFee : Reply
  plainFee : Reply
  verifyProof : Reply
  transferFrom : Reply
  approve : Reply
  receiveERC20Fee : Reply

/-- The hash, and the recovery of a signer, of the chain. -/
structure Crypto where
  keccak256 : List UInt8 → Word
  ecrecover : Word → Nat → Word → Word → Address

/-! ## Payments -/

section Payments

variable (p : Peers)

/-- `_forwardFee`. -/
def forwardFee (amount : Nat) (w : World) : Except Revert World :=
  if amount = 0 ∨ w.state.circuit.revenueSplitter = 0 then .ok w
  else forward play .feeFwd .native p.depositFee p.plainFee amount w

/-- A payment out of `src`. -/
def payFrom (src : Source) (e : Revert) (r : Reply) (amount : Nat) (w : World) : Except Revert World :=
  send play e .native r amount (w.write (notePaid src .native amount w.state))

/-- A payment out of `src`, where there is something to pay. -/
def payIf (src : Source) (e : Revert) (r : Reply) (amount : Nat) (w : World) : Except Revert World :=
  if 0 < amount then payFrom src e r amount w else .ok w

/-- The task fee of a payment out of `src`. -/
def chargeFee (src : Source) (fee : Nat) (w : World) : Except Revert World :=
  if 0 < fee then do
    let total ← addU .panic w.state.circuit.totalTaskFees fee
    forwardFee p fee (w.write (notePaid src .native fee
      (w.state.put { w.state.circuit with totalTaskFees := total })))
  else .ok w

/-- The call to the proof verifier; none is mock mode. -/
def verifyProof (w : World) : Except Revert World :=
  if w.state.circuit.zkVerifier ≠ 0 then ask play .proofFailed p.verifyProof w else .ok w

/-- `tasksCompleted` and `_addReputationClamped` of an agent. -/
def creditAgent (agent : Address) (c : State) : Except Revert State := do
  let a := c.agents agent
  let tasksCompleted ← addU .panic a.tasksCompleted 1
  let next ← addU .panic a.reputation 1
  .ok { c with
    agents := update c.agents agent
      { a with tasksCompleted := tasksCompleted, reputation := min next maxReputation } }

def useNullifier (nullifier : Word) (c : State) : State :=
  { c with usedNullifiers := update c.usedNullifiers nullifier true }

end Payments

/-! ## Bids -/

section Bids

variable (crypto : Crypto) (m : Msg)

def circuitId : Word := crypto.keccak256 "A2A_CIRCUIT".toUTF8.toList

/-- The packed string of a bid id, up to the bid count. -/
def bidHead : List UInt8 :=
  wordBytes (circuitId crypto) ++ addressBytes m.sender ++ bigEndian 32 m.blockNumber

def newBid (bidId taskHash capabilityRequired : Word) (netEscrow deadline : Nat) (paymentToken : Address) :
    Bid where
  bidId := bidId
  requester := m.sender
  provider := 0
  taskHash := taskHash
  capabilityRequired := capabilityRequired
  escrowAmount := netEscrow
  maxPrice := netEscrow
  acceptedPrice := 0
  status := .open
  createdAt := m.timestamp
  deadline := deadline
  resultHash := 0
  proofNullifier := 0
  paymentToken := paymentToken

/-- A bid in native value has no payment token. -/
def assetOf (paymentToken : Address) : Asset := if paymentToken = 0 then .native else .erc20 paymentToken

/-- The record and the counters that both submissions write. -/
def openBid (taskHash capabilityRequired : Word) (netEscrow deadline : Nat) (paymentToken : Address) (s : Chain) :
    Except Revert Chain := do
  let c := s.circuit
  let name := bidHead crypto m ++ bigEndian 32 c.bidCount
  let bidId := crypto.keccak256 name
  let bidCount ← addU .panic c.bidCount 1
  let totalEscrow ← addU .panic c.totalEscrow netEscrow
  let activeBids ← addU .panic c.activeBids 1
  .ok (noteGiven (.bid, bidId) (assetOf paymentToken) netEscrow
    { s with
      circuit := { c with
        bids := update c.bids bidId (newBid m bidId taskHash capabilityRequired netEscrow deadline paymentToken)
        bidCount := bidCount
        totalEscrow := totalEscrow
        activeBids := activeBids }
      drawnBids := s.drawnBids ++ [name] })

/-- The relay fee is counted, and forwarded. -/
def relay (p : Peers) (relayFee : Nat) (w : World) : Except Revert World := do
  let total ← addU .panic w.state.circuit.totalRelayFees relayFee
  forwardFee p relayFee (w.write (w.state.put { w.state.circuit with totalRelayFees := total }))

def submitBid (value : Nat) (taskHash capabilityRequired : Word) (deadline : Nat) (p : Peers) (w : World) :
    Except Revert World := do
  let c := w.state.circuit
  revertIf c.paused .enforcedPause
  revertIf (value = 0) .zeroEscrow
  revertIf (deadline ≤ m.timestamp) .pastDeadline
  let scaled ← mulU .panic value c.relayFeeBps
  let relayFee := scaled / bpsDenom
  let netEscrow ← subU .panic value relayFee
  let s ← openBid crypto m taskHash capabilityRequired netEscrow deadline 0 w.state
  let w := (w.credit .native value).write s
  if 0 < relayFee then relay p relayFee w else .ok w

/-- Approve the splitter for the fee and tell it; either may fail. -/
def forwardTokenFee (token : Address) (fee : Nat) (p : Peers) (w : World) : World :=
  if p.approve.ok then
    notify play p.receiveERC20Fee (Trace.run play
      (w.write (approve token w.state.circuit.revenueSplitter fee w.state)) p.approve.calls)
  else w

def submitBidWithTDROP (tdropToken : Address) (escrowTdrop : Nat) (taskHash capabilityRequired : Word)
    (deadline : Nat) (p : Peers) (w : World) : Except Revert World := do
  revertIf w.state.circuit.paused .enforcedPause
  revertIf (tdropToken = 0) .zeroToken
  revertIf (escrowTdrop = 0) .zeroEscrow
  revertIf (deadline ≤ m.timestamp) .pastDeadline
  let w ← pull play .tdropTransferFailed (.erc20 tdropToken) p.transferFrom escrowTdrop w
  let scaled ← mulU .panic escrowTdrop w.state.circuit.relayFeeBps
  let relayFee := scaled / bpsDenom
  let netEscrow ← subU .panic escrowTdrop relayFee
  let s ← openBid crypto m taskHash capabilityRequired netEscrow deadline tdropToken w.state
  if 0 < relayFee ∧ s.circuit.revenueSplitter ≠ 0 then do
    let total ← addU .panic s.circuit.totalRelayFees relayFee
    .ok (forwardTokenFee tdropToken relayFee p (w.write (s.put { s.circuit with totalRelayFees := total })))
  else .ok (w.write s)

/-- A bid leaves the escrow with a final status. -/
def closeBid (bidId : Word) (b : Bid) (c : State) : Except Revert State := do
  let totalEscrow ← subU .panic c.totalEscrow b.escrowAmount
  let activeBids ← subU .panic c.activeBids 1
  .ok { c with bids := update c.bids bidId b, totalEscrow := totalEscrow, activeBids := activeBids }

/-- The part that `settleBid` and `settleBidFairExchange` share, with the result they note:
    the provider, the requester and the task fee are paid in native value, whatever token
    the bid is in. -/
def payBid (bidId : Word) (result : Bid → Bid) (p : Peers) (w : World) : Except Revert World := do
  let c := w.state.circuit
  let b := c.bids bidId
  let scaled ← mulU .panic b.acceptedPrice c.taskFeeBps
  let taskFee := scaled / bpsDenom
  let providerPayout ← subU .panic b.acceptedPrice taskFee
  let refund ← subU .panic b.escrowAmount b.acceptedPrice
  let c ← closeBid bidId { result b with status := .completed } c
  let totalSettled ← addU .panic c.totalSettled b.acceptedPrice
  let w := w.write (w.state.put { c with totalSettled := totalSettled })
  let w ← payIf (.bid, bidId) .providerPay p.payout providerPayout w
  let w ← payIf (.bid, bidId) .refund p.refund refund w
  let w ← chargeFee p (.bid, bidId) taskFee w
  let c ← creditAgent (w.state.circuit.bids bidId).provider w.state.circuit
  let relayed ← addU .panic c.totalMessagesRelayed 1
  .ok (w.write (w.state.put { c with totalMessagesRelayed := relayed }))

def settleBid (bidId resultHash nullifier : Word) (p : Peers) (w : World) : Except Revert World := do
  let c := w.state.circuit
  onlyRole m .relayer
  revertIf c.paused .enforcedPause
  let b := c.bids bidId
  revertIf (b.createdAt = 0) .bidNotFound
  revertIf (b.status ≠ .accepted) .bidNotAccepted
  revertIf (c.usedNullifiers nullifier) .nullifierUsed
  let w ← verifyProof p (w.write (w.state.put (useNullifier nullifier c)))
  payBid bidId (fun b => { b with resultHash := resultHash, proofNullifier := nullifier }) p w

/-- `abi.encode(CIRCUIT_ID, "settleBidFairExchange", bidId, provider, acceptedPrice)`. -/
def fairExchangeMessage (bidId : Word) (b : Bid) : List UInt8 :=
  abiEncode [circuitId crypto, uintWord 160, bidId, addressWord b.provider, uintWord b.acceptedPrice, uintWord 21]
    ++ "settleBidFairExchange".toUTF8.toList ++ List.replicate 11 0

def ethSignedHash (message : List UInt8) : Word :=
  crypto.keccak256 (0x19 :: "Ethereum Signed Message:\n32".toUTF8.toList ++ wordBytes (crypto.keccak256 message))

def settleBidFairExchange (bidId resultHash : Word) (v : Nat) (r s : Word) (p : Peers) (w : World) :
    Except Revert World := do
  let c := w.state.circuit
  revertIf c.paused .enforcedPause
  revertIf (c.fairExchangeProxy = 0) .fairExchangeDisabled
  let b := c.bids bidId
  revertIf (b.createdAt = 0) .bidNotFound
  revertIf (b.status ≠ .accepted) .bidNotAccepted
  revertIf (b.paymentToken ≠ 0) .fairExchangeTFUELOnly
  let signer := crypto.ecrecover (ethSignedHash crypto (fairExchangeMessage crypto bidId b)) v r s
  revertIf (signer ≠ c.fairExchangeProxy) .invalidFairExchangeSignature
  payBid bidId (fun b => { b with resultHash := resultHash }) p w

/-- The refund is in native value, whatever token the bid is in. -/
def cancelBid (bidId : Word) (p : Peers) (w : World) : Except Revert World := do
  let c := w.state.circuit
  let b := c.bids bidId
  revertIf (b.createdAt = 0) .bidNotFound
  revertIf (m.sender ≠ b.requester) .onlyRequester
  revertIf (b.status ≠ .open) .bidNotOpen
  let c ← closeBid bidId { b with status := .cancelled } c
  payFrom (.bid, bidId) .refundFailed p.refund b.escrowAmount (w.write (w.state.put c))

end Bids

/-! ## Channels -/

def setChannel (channelId : Word) (ch : PaymentChannel) (c : State) : State :=
  { c with channels := update c.channels channelId ch }

def PaymentChannel.spendTo (spent : Nat) (ch : PaymentChannel) : PaymentChannel := { ch with spent := spent }

def PaymentChannel.close (ch : PaymentChannel) : PaymentChannel := { ch with active := false }

section Channels

variable (crypto : Crypto) (m : Msg)

/-- The packed string of a channel id, up to the channel count. -/
def channelHead (payee : Address) : List UInt8 :=
  wordBytes (circuitId crypto) ++ addressBytes m.sender ++ addressBytes payee ++ bigEndian 32 m.blockNumber

def newChannel (channelId : Word) (value : Nat) (payee : Address) (duration : Nat) : PaymentChannel where
  channelId := channelId
  payer := m.sender
  payee := payee
  deposit := value
  spent := 0
  openedAt := m.timestamp
  expiresAt := (m.timestamp + duration) % 2 ^ 64
  active := true

def recordChannel (value : Nat) (payee : Address) (duration : Nat) (s : Chain) : Except Revert Chain := do
  let c := s.circuit
  let name := channelHead crypto m payee ++ bigEndian 32 c.channelCount
  let channelId := crypto.keccak256 name
  let channelCount ← addU .panic c.channelCount 1
  .ok (noteGiven (.channel, channelId) .native value
    { s with
      circuit := { c with
        channels := update c.channels channelId (newChannel m channelId value payee duration)
        channelCount := channelCount }
      drawnChannels := s.drawnChannels ++ [name] })

def openChannel (value : Nat) (payee : Address) (duration : Nat) (w : World) : Except Revert World := do
  let c := w.state.circuit
  revertIf c.paused .enforcedPause
  revertIf (value = 0) .zeroDeposit
  revertIf (payee = 0 ∨ payee = m.sender) .invalidPayee
  revertIf (duration = 0 ∨ maxDuration < duration) .invalidDuration
  let s ← recordChannel crypto m value payee duration w.state
  .ok ((w.credit .native value).write s)

/-- What `claimChannel` does once the proof is verified. -/
def payClaim (channelId : Word) (amount : Nat) (p : Peers) (w : World) : Except Revert World := do
  let c := w.state.circuit
  let ch := c.channels channelId
  let spent ← addU .panic ch.spent amount
  let scaled ← mulU .panic amount c.taskFeeBps
  let fee := scaled / bpsDenom
  let payout ← subU .panic amount fee
  let w := w.write (w.state.put (setChannel channelId (ch.spendTo spent) c))
  let w ← payFrom (.channel, channelId) .claimPay p.payout payout w
  let w ← chargeFee p (.channel, channelId) fee w
  let relayed ← addU .panic w.state.circuit.totalMessagesRelayed 1
  .ok (w.write (w.state.put { w.state.circuit with totalMessagesRelayed := relayed }))

def claimChannel (channelId : Word) (amount : Nat) (nullifier : Word) (p : Peers) (w : World) :
    Except Revert World := do
  let c := w.state.circuit
  revertIf c.paused .enforcedPause
  let ch := c.channels channelId
  revertIf (ch.openedAt = 0) .channelNotFound
  revertIf (¬ ch.active) .channelNotActive
  revertIf (ch.expiresAt < m.timestamp) .channelExpired
  revertIf (m.sender ≠ ch.payee) .onlyPayee
  let wanted ← addU .panic ch.spent amount
  revertIf (ch.deposit < wanted) .insufficientChannelBalance
  revertIf (c.usedNullifiers nullifier) .nullifierUsed
  let w ← verifyProof p (w.write (w.state.put (useNullifier nullifier c)))
  payClaim channelId amount p w

def closeChannel (channelId : Word) (p : Peers) (w : World) : Except Revert World := do
  let c := w.state.circuit
  let ch := c.channels channelId
  revertIf (ch.openedAt = 0) .channelNotFound
  revertIf (¬ ch.active) .channelNotActive
  revertIf (m.sender ≠ ch.payer ∧ m.timestamp ≤ ch.expiresAt) .notExpiredOrPayer
  let refund ← subU .panic ch.deposit ch.spent
  let w := w.write (w.state.put (setChannel channelId ch.close c))
  payIf (.channel, channelId) .refundFailed p.refund refund w

/-- The relay fee of a message; none without value. -/
def messageFee (value : Nat) (c : State) : Except Revert Nat :=
  if 0 < value then do
    let scaled ← mulU .panic value c.relayFeeBps
    .ok (scaled / bpsDenom)
  else .ok 0

def relayMessage (value relayFee : Nat) (p : Peers) (w : World) : Except Revert World :=
  if 0 < value then relay p relayFee w else .ok w

/-- The value of a message beyond its relay fee stays with the contract. -/
def sendMessage (value : Nat) (recipient : Address) (p : Peers) (w : World) : Except Revert World := do
  let c := w.state.circuit
  revertIf c.paused .enforcedPause
  revertIf (¬ (c.agents recipient).active) .agentNotRegistered
  let relayFee ← messageFee value c
  let w ← relayMessage value relayFee p (w.credit .native value)
  let relayed ← addU .panic w.state.circuit.totalMessagesRelayed 1
  -- the event says what is left of the value
  let _ ← subU .panic value relayFee
  .ok (w.write (w.state.put { w.state.circuit with totalMessagesRelayed := relayed }))

end Channels

/-! ## Swarms -/

def setSwarm (swarmId : Word) (s : Swarm) (c : State) : State := { c with swarms := update c.swarms swarmId s }

def Swarm.settleTo (settledAmount : Nat) (s : Swarm) : Swarm :=
  { s with
    phase := if s.phase = .active then .settling else s.phase
    settledAmount := settledAmount }

/-- A swarm dissolved at `now`. -/
def Swarm.dissolve (now : Nat) (s : Swarm) : Swarm := { s with phase := .dissolved, settledAt := now }

section Swarms

variable (crypto : Crypto) (m : Msg)

/-- The packed string of a swarm id, up to the swarm count. -/
def swarmHead (objectiveHash : Word) : List UInt8 :=
  wordBytes (circuitId crypto) ++ addressBytes m.sender ++ wordBytes objectiveHash

def newSwarm (swarmId : Word) (value : Nat) (objectiveHash : Word) (maxMembers : Nat) : Swarm where
  swarmId := swarmId
  coordinator := m.sender
  objectiveHash := objectiveHash
  escrowPool := value
  settledAmount := 0
  memberCount := 1
  maxMembers := maxMembers
  phase := .forming
  formedAt := m.timestamp
  settledAt := 0
  settlementNullifier := 0

def recordSwarm (value : Nat) (objectiveHash : Word) (maxMembers : Nat) (s : Chain) : Except Revert Chain := do
  let c := s.circuit
  let name := swarmHead crypto m objectiveHash ++ bigEndian 32 c.swarmCount
  let swarmId := crypto.keccak256 name
  let swarmCount ← addU .panic c.swarmCount 1
  .ok (noteGiven (.swarm, swarmId) .native value
    { s with
      circuit := { c with
        swarms := update c.swarms swarmId (newSwarm m swarmId value objectiveHash maxMembers)
        swarmMembers := update c.swarmMembers swarmId (update (c.swarmMembers swarmId) m.sender true)
        swarmCount := swarmCount }
      drawnSwarms := s.drawnSwarms ++ [name] })

def formSwarm (value : Nat) (objectiveHash : Word) (maxMembers : Nat) (w : World) : Except Revert World := do
  let c := w.state.circuit
  revertIf c.paused .enforcedPause
  revertIf (value = 0) .zeroEscrow
  revertIf (maxMembers = 0 ∨ maxSwarmSize < maxMembers) .invalidSize
  revertIf (¬ (c.agents m.sender).active) .agentNotRegistered
  let s ← recordSwarm crypto m value objectiveHash maxMembers w.state
  .ok ((w.credit .native value).write s)

/-- What `settleSwarmAgent` does once the proof is verified. -/
def payAgent (swarmId : Word) (agent : Address) (amount : Nat) (p : Peers) (w : World) : Except Revert World := do
  let c := w.state.circuit
  let s := c.swarms swarmId
  let scaled ← mulU .panic amount c.swarmFeeBps
  let fee := scaled / bpsDenom
  let payout ← subU .panic amount fee
  let settledAmount ← addU .panic s.settledAmount amount
  let w := w.write (w.state.put (setSwarm swarmId (s.settleTo settledAmount) c))
  let w ← payIf (.swarm, swarmId) .agentPay p.payout payout w
  let w ← chargeFee p (.swarm, swarmId) fee w
  let c ← creditAgent agent w.state.circuit
  let settlements ← addU .panic c.totalSwarmSettlements 1
  let totalSettled ← addU .panic c.totalSettled amount
  .ok (w.write (w.state.put { c with totalSwarmSettlements := settlements, totalSettled := totalSettled }))

def settleSwarmAgent (swarmId : Word) (agent : Address) (amount : Nat) (nullifier : Word) (p : Peers)
    (w : World) : Except Revert World := do
  let c := w.state.circuit
  onlyRole m .relayer
  revertIf c.paused .enforcedPause
  let s := c.swarms swarmId
  revertIf (s.formedAt = 0) .swarmNotFound
  revertIf (s.phase ≠ .active ∧ s.phase ≠ .settling) .swarmNotActive
  revertIf (¬ c.swarmMembers swarmId agent) .agentNotRegistered
  revertIf (c.usedNullifiers nullifier) .nullifierUsed
  let wanted ← addU .panic s.settledAmount amount
  revertIf (s.escrowPool < wanted) .insufficientEscrow
  let w ← verifyProof p (w.write (w.state.put (useNullifier nullifier c)))
  payAgent swarmId agent amount p w

def dissolveSwarm (swarmId : Word) (p : Peers) (w : World) : Except Revert World := do
  let c := w.state.circuit
  let s := c.swarms swarmId
  revertIf (s.formedAt = 0) .swarmNotFound
  revertIf (m.sender ≠ s.coordinator ∧ m.holds .defaultAdmin = false) .notCoordinator
  let refund ← subU .panic s.escrowPool s.settledAmount
  let w := w.write (w.state.put (setSwarm swarmId (s.dissolve m.timestamp) c))
  if 0 < refund then do
    let scaled ← mulU .panic refund c.swarmFeeBps
    let dissolveFee := scaled / bpsDenom
    let netRefund ← subU .panic refund dissolveFee
    let w ← payIf (.swarm, swarmId) .refundFailed p.refund netRefund w
    if 0 < dissolveFee then
      forwardFee p dissolveFee (w.write (notePaid (.swarm, swarmId) .native dissolveFee w.state))
    else .ok w
  else .ok w

def forceDissolveSwarm (swarmId : Word) (p : Peers) (w : World) : Except Revert World := do
  let c := w.state.circuit
  let s := c.swarms swarmId
  revertIf (s.formedAt = 0) .swarmNotFound
  revertIf (¬ c.swarmMembers swarmId m.sender) .notSwarmMember
  revertIf (s.phase = .dissolved) .swarmNotActive
  let timeout ← addU .panic s.formedAt c.swarmTimeoutDuration
  revertIf (m.timestamp ≤ timeout) .swarmNotTimedOut
  let refund ← subU .panic s.escrowPool s.settledAmount
  let w := w.write (w.state.put (setSwarm swarmId (s.dissolve m.timestamp) c))
  payIf (.swarm, swarmId) .refundFailed p.refund refund w

end Swarms

/-! ## Transactions -/

inductive Call where
  | submitBid (value : Nat) (taskHash capabilityRequired : Word) (deadline : Nat)
  | submitBidWithTDROP (tdropToken : Address) (escrowTdrop : Nat) (taskHash capabilityRequired : Word)
      (deadline : Nat)
  | settleBid (bidId resultHash nullifier : Word)
  | settleBidFairExchange (bidId resultHash : Word) (v : Nat) (r s : Word)
  | cancelBid (bidId : Word)
  | openChannel (value : Nat) (payee : Address) (duration : Nat)
  | claimChannel (channelId : Word) (amount : Nat) (nullifier : Word)
  | closeChannel (channelId : Word)
  | sendMessage (value : Nat) (recipient : Address)
  | formSwarm (value : Nat) (objectiveHash : Word) (maxMembers : Nat)
  | settleSwarmAgent (swarmId : Word) (agent : Address) (amount : Nat) (nullifier : Word)
  | dissolveSwarm (swarmId : Word)
  | forceDissolveSwarm (swarmId : Word)
  | openCall (call : OpenCall)

/-- A transaction, and how the accounts it reaches answer. -/
structure Tx where
  msg : Msg
  call : Call
  peers : Peers

section Run

variable (crypto : Crypto)

def exec (tx : Tx) (w : World) : Except Revert World :=
  match tx.call with
  | .submitBid value taskHash capability deadline =>
    submitBid crypto tx.msg value taskHash capability deadline tx.peers w
  | .submitBidWithTDROP token escrow taskHash capability deadline =>
    submitBidWithTDROP crypto tx.msg token escrow taskHash capability deadline tx.peers w
  | .settleBid bidId resultHash nullifier => settleBid tx.msg bidId resultHash nullifier tx.peers w
  | .settleBidFairExchange bidId resultHash v r s =>
    settleBidFairExchange crypto bidId resultHash v r s tx.peers w
  | .cancelBid bidId => cancelBid tx.msg bidId tx.peers w
  | .openChannel value payee duration => openChannel crypto tx.msg value payee duration w
  | .claimChannel channelId amount nullifier => claimChannel tx.msg channelId amount nullifier tx.peers w
  | .closeChannel channelId => closeChannel tx.msg channelId tx.peers w
  | .sendMessage value recipient => sendMessage value recipient tx.peers w
  | .formSwarm value objectiveHash maxMembers => formSwarm crypto tx.msg value objectiveHash maxMembers w
  | .settleSwarmAgent swarmId agent amount nullifier =>
    settleSwarmAgent tx.msg swarmId agent amount nullifier tx.peers w
  | .dissolveSwarm swarmId => dissolveSwarm tx.msg swarmId tx.peers w
  | .forceDissolveSwarm swarmId => forceDissolveSwarm tx.msg swarmId tx.peers w
  | .openCall call => execOpen tx.msg call w

/-- A transaction that reverts changes nothing. -/
def step (w : World) (tx : Tx) : World :=
  match exec crypto tx w with
  | .ok w' => w'
  | .error _ => w

/-- A contract as deployed, whatever it was sent before. -/
def start (revenueSplitter zkVerifier stakeToken : Address) (holdings : Asset → Nat) : World where
  state := {
    circuit := deploy revenueSplitter zkVerifier stakeToken
    approved := fun _ _ => 0
    drawnBids := []
    drawnChannels := []
    drawnSwarms := []
    given := fun _ _ => 0
    paid := fun _ _ => 0 }
  holdings := holdings

def run (w : World) (txs : List Tx) : World := Trace.run (step crypto) w txs

end Run

end A2ACircuit
