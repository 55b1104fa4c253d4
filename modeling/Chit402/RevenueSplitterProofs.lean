import Chit402.CustodyProofs
import Chit402.SolidityProofs

/-! # The core revenue splitter

    `CoreRevenueSplitter` with the configuration of its constructor: fees
    come in, `distribute` splits the contract's whole balance, and escrows,
    deferred claims and agent grants are paid out of the same balance.

    A payment is `_safeTransfer`, which skips a zero amount and the zero
    address; how the paid account answers is data. -/

namespace RevenueSplitter

open ExceptFlow Solidity Custody Function

/-! ## State -/

inductive Role where
  | defaultAdmin | feeManager | circuit | governance
deriving DecidableEq

structure GrantProposal where
  proposalId : Word
  recipient : Address
  amount : Nat
  submitter : Address
  createdAt : Nat
  votesFor : Nat
  votesAgainst : Nat
  executed : Bool
  cancelled : Bool

structure StakeRoute where
  pool : Address
  chainId : Nat
  label : String
  weightBps : Nat
  active : Bool

structure Escrow where
  payer : Address
  payee : Address
  amount : Nat
  maxAmount : Nat
  taskId : Word
  createdAt : Nat
  expiresAt : Nat
  claimed : Bool
  refunded : Bool

structure DeferredClaim where
  claimant : Address
  amount : Nat
  proofNullifier : Word
  claimableAfter : Nat
  claimed : Bool

structure State where
  paused : Bool
  bbbBps : Nat
  getBps : Nat
  stakerBps : Nat
  incentivesBps : Nat
  lpBoostBps : Nat
  boostMultiplier : Nat
  monthlyVolume : Nat
  thetaNativeFeesSinceReset : Nat
  totalFeesSinceReset : Nat
  totalThetaNativeFees : Nat
  dynamicBoostEnabled : Bool
  grantProposalCount : Nat
  grantProposals : Nat → GrantProposal
  grantVotes : Nat → Address → Bool
  grantPoolBalance : Nat
  lastGrantActivity : Nat
  feeToStakeBps : Nat
  bbbWallet : Address
  getWallet : Address
  stakerVault : Address
  treasuryWallet : Address
  stakePool : Address
  stakeRoutes : List StakeRoute
  totalStakeWeight : Nat
  escrowCount : Nat
  escrows : Nat → Escrow
  payerEscrows : Address → List Nat
  payeeEscrows : Address → List Nat
  deferredClaimCount : Nat
  deferredClaims : Nat → DeferredClaim
  totalDeferred : Address → Nat
  totalEscrowed : Nat
  totalClaimed : Nat
  totalRefunded : Nat
  totalCollected : Nat
  totalDistributed : Nat
  totalBBB : Nat
  totalGET : Nat
  totalStaker : Nat
  totalTreasury : Nat
  totalFeeToStake : Nat
  distributionCount : Nat
  totalIncentivesDistributed : Nat
  totalLPBoostDistributed : Nat
  totalGrantsDistributed : Nat
  circuitFees : Word → Nat
  chainStakeTotal : Nat → Nat

def totalBps : Nat := 10000

def minBoost : Nat := 10000

def maxBoost : Nat := 25000

def protocolFeeBps : Nat := 100

/-- 180 days. -/
def grantExpiry : Nat := 15552000

def providerTagThetaNative : Nat := 1

def noProposal : GrantProposal where
  proposalId := 0
  recipient := 0
  amount := 0
  submitter := 0
  createdAt := 0
  votesFor := 0
  votesAgainst := 0
  executed := false
  cancelled := false

def noEscrow : Escrow where
  payer := 0
  payee := 0
  amount := 0
  maxAmount := 0
  taskId := 0
  createdAt := 0
  expiresAt := 0
  claimed := false
  refunded := false

def noClaim : DeferredClaim where
  claimant := 0
  amount := 0
  proofNullifier := 0
  claimableAfter := 0
  claimed := false

/-- The wallets given to the constructor. -/
structure Wallets where
  bbbWallet : Address
  getWallet : Address
  stakerVault : Address
  treasuryWallet : Address
  stakePool : Address

/-- The constructor, at block time `now`. -/
def deploy (wallets : Wallets) (now : Nat) : State where
  paused := false
  bbbBps := 3000
  getBps := 3000
  stakerBps := 2500
  incentivesBps := 5000
  lpBoostBps := 3000
  boostMultiplier := 10000
  monthlyVolume := 0
  thetaNativeFeesSinceReset := 0
  totalFeesSinceReset := 0
  totalThetaNativeFees := 0
  dynamicBoostEnabled := true
  grantProposalCount := 0
  grantProposals := fun _ => noProposal
  grantVotes := fun _ _ => false
  grantPoolBalance := 0
  lastGrantActivity := now
  feeToStakeBps := 2000
  bbbWallet := wallets.bbbWallet
  getWallet := wallets.getWallet
  stakerVault := wallets.stakerVault
  treasuryWallet := wallets.treasuryWallet
  stakePool := wallets.stakePool
  stakeRoutes := []
  totalStakeWeight := 0
  escrowCount := 0
  escrows := fun _ => noEscrow
  payerEscrows := fun _ => []
  payeeEscrows := fun _ => []
  deferredClaimCount := 0
  deferredClaims := fun _ => noClaim
  totalDeferred := fun _ => 0
  totalEscrowed := 0
  totalClaimed := 0
  totalRefunded := 0
  totalCollected := 0
  totalDistributed := 0
  totalBBB := 0
  totalGET := 0
  totalStaker := 0
  totalTreasury := 0
  totalFeeToStake := 0
  distributionCount := 0
  totalIncentivesDistributed := 0
  totalLPBoostDistributed := 0
  totalGrantsDistributed := 0
  circuitFees := fun _ => 0
  chainStakeTotal := fun _ => 0

abbrev World := Custody.World State Asset

/-- The caller with its roles, and the block.  Block times are positive and fit `uint64`. -/
structure Msg where
  sender : Address
  timestamp : Nat
  chainid : Nat
  holds : Role → Bool
  positive : 0 < timestamp
  inRange : timestamp < 2 ^ 64

inductive Revert where
  | enforcedPause
  | unauthorized (account : Address) (role : Role)
  | transferFailed (recipient : String)
  | nothingToDistribute | escrowNotFound | escrowAlreadyClaimed | escrowExpired | escrowNotExpired
  | notEscrowPayee | notEscrowPayer | exceedsPayUpTo | claimNotReady | claimAlreadyClaimed
  | grantAlreadyVoted | grantNotFound | grantAlreadyExecuted
  | zeroAmount | invalidPayee | exceedsMax | invalidDuration | zeroClaimant | delayTooLong
  | zeroRecipient | exceedsPoolCap | notApproved | insufficientGrantPool
  | overflow | underflow
deriving DecidableEq

/-! ## Calls without the reentrancy guard -/

section Open

variable (m : Msg)

def receive (value : Nat) (s : State) : Except Revert State := do
  let totalCollected ← addU .overflow s.totalCollected value
  .ok { s with totalCollected := totalCollected }

def depositFee (value : Nat) (circuitId : Word) (s : State) : Except Revert State := do
  revertIf s.paused .enforcedPause
  revertIf (value = 0) .zeroAmount
  let totalCollected ← addU .overflow s.totalCollected value
  let fees ← addU .overflow (s.circuitFees circuitId) value
  let totalFees ← addU .overflow s.totalFeesSinceReset value
  .ok { s with
    totalCollected := totalCollected
    circuitFees := update s.circuitFees circuitId fees
    totalFeesSinceReset := totalFees }

/-- The counters of fees tagged `THETA_NATIVE`. -/
def countNative (providerTag amount : Nat) (s : State) : Except Revert State := do
  if providerTag = providerTagThetaNative then
    let native ← addU .overflow s.thetaNativeFeesSinceReset amount
    let total ← addU .overflow s.totalThetaNativeFees amount
    .ok { s with thetaNativeFeesSinceReset := native, totalThetaNativeFees := total }
  else .ok s

def depositFeeWithTag (value : Nat) (circuitId : Word) (providerTag : Nat) (s : State) : Except Revert State := do
  let s ← depositFee value circuitId s
  countNative providerTag value s

def tagFeeOrigin (providerTag amount : Nat) (s : State) : Except Revert State := do
  revertIf s.paused .enforcedPause
  revertIf (amount = 0) .zeroAmount
  let totalFees ← addU .overflow s.totalFeesSinceReset amount
  countNative providerTag amount { s with totalFeesSinceReset := totalFees }

def createDeferredClaim (value : Nat) (claimant : Address) (proofNullifier : Word) (delaySeconds : Nat)
    (s : State) : Except Revert State := do
  revertIf (m.holds .circuit = false) (.unauthorized m.sender .circuit)
  revertIf s.paused .enforcedPause
  revertIf (claimant = 0) .zeroClaimant
  revertIf (value = 0) .zeroAmount
  revertIf (7 * 86400 < delaySeconds) .delayTooLong
  let claimId ← addU .overflow s.deferredClaimCount 1
  let deferred ← addU .overflow (s.totalDeferred claimant) value
  .ok { s with
    deferredClaimCount := claimId
    deferredClaims := update s.deferredClaims claimId {
      claimant := claimant
      amount := value
      proofNullifier := proofNullifier
      claimableAfter := m.timestamp + delaySeconds
      claimed := false }
    totalDeferred := update s.totalDeferred claimant deferred }

def agentGrantProposal (proposalId : Word) (amount : Nat) (recipient : Address) (s : State) : Except Revert State := do
  revertIf s.paused .enforcedPause
  revertIf (recipient = 0) .zeroRecipient
  revertIf (amount = 0) .zeroAmount
  let scaled ← mulU .overflow s.grantPoolBalance 500
  revertIf (scaled / totalBps < amount) .exceedsPoolCap
  let index ← addU .overflow s.grantProposalCount 1
  .ok { s with
    grantProposalCount := index
    grantProposals := update s.grantProposals index {
      proposalId := proposalId
      recipient := recipient
      amount := amount
      submitter := m.sender
      createdAt := m.timestamp
      votesFor := 0
      votesAgainst := 0
      executed := false
      cancelled := false } }

/-- The proposal after one more vote. -/
def castVote (support : Bool) (p : GrantProposal) : Except Revert GrantProposal := do
  if support then
    let votes ← addU .overflow p.votesFor 1
    .ok { p with votesFor := votes }
  else
    let votes ← addU .overflow p.votesAgainst 1
    .ok { p with votesAgainst := votes }

def voteGrant (index : Nat) (support : Bool) (s : State) : Except Revert State := do
  revertIf (m.holds .governance = false) (.unauthorized m.sender .governance)
  let p := s.grantProposals index
  revertIf (p.createdAt = 0) .grantNotFound
  revertIf (p.executed ∨ p.cancelled) .grantAlreadyExecuted
  revertIf (s.grantVotes index m.sender) .grantAlreadyVoted
  let p ← castVote support p
  .ok { s with
    grantVotes := update s.grantVotes index (update (s.grantVotes index) m.sender true)
    grantProposals := update s.grantProposals index p }

end Open

inductive OpenCall where
  | receive (value : Nat)
  | depositFee (value : Nat) (circuitId : Word)
  | depositFeeWithTag (value : Nat) (circuitId : Word) (providerTag : Nat)
  | tagFeeOrigin (circuitId : Word) (providerTag amount : Nat)
  | createDeferredClaim (value : Nat) (claimant : Address) (proofNullifier : Word) (delaySeconds : Nat)
  | agentGrantProposal (proposalId : Word) (amount : Nat) (recipient : Address)
  | voteGrant (index : Nat) (support : Bool)

/-- The value sent along. -/
def OpenCall.value : OpenCall → Nat
  | .receive value => value
  | .depositFee value _ => value
  | .depositFeeWithTag value _ _ => value
  | .createDeferredClaim value _ _ _ => value
  | _ => 0

/-- What the call writes. -/
def execState (m : Msg) : OpenCall → State → Except Revert State
  | .receive value, s => receive value s
  | .depositFee value circuitId, s => depositFee value circuitId s
  | .depositFeeWithTag value circuitId tag, s => depositFeeWithTag value circuitId tag s
  | .tagFeeOrigin _ tag amount, s => tagFeeOrigin tag amount s
  | .createDeferredClaim value claimant nullifier delay, s => createDeferredClaim m value claimant nullifier delay s
  | .agentGrantProposal proposalId amount recipient, s => agentGrantProposal m proposalId amount recipient s
  | .voteGrant index support, s => voteGrant m index support s

def execOpen (m : Msg) (call : OpenCall) (w : World) : Except Revert World := do
  let s ← execState m call w.state
  .ok ((w.credit .native call.value).write s)

/-- A call made back.  One that reverts changes nothing. -/
def play (w : World) (n : Msg × OpenCall) : World :=
  match execOpen n.1 n.2 w with
  | .ok w' => w'
  | .error _ => w

abbrev Reply := Custody.Reply (Msg × OpenCall)

/-- How the account of the `i`-th transfer of a call answers. -/
abbrev Replies := Nat → Reply

/-- `_safeTransfer`. -/
def safeTransfer (dst : Address) (r : Reply) (amount : Nat) (label : String) (w : World) : Except Revert World :=
  if amount = 0 ∨ dst = 0 then .ok w else send play (.transferFailed label) .native r amount w

/-! ## Distribution -/

section Distribute

variable (m : Msg) (replies : Replies)

def computeBoost (s : State) : Except Revert Nat :=
  if s.dynamicBoostEnabled = false ∨ s.totalFeesSinceReset = 0 then .ok s.boostMultiplier
  else do
    let scaled ← mulU .overflow s.thetaNativeFeesSinceReset totalBps
    let ratioBps := scaled / s.totalFeesSinceReset
    let extra ← mulU .overflow (maxBoost - minBoost) ratioBps
    let boost ← addU .overflow minBoost (extra / totalBps)
    .ok (if maxBoost < boost then maxBoost else boost)

/-- The parts of a distributed balance. -/
structure Shares where
  bbbAmount : Nat
  getAmount : Nat
  getForwarded : Nat
  stakerAmount : Nat
  treasuryAmount : Nat
  feeToStakeAmount : Nat
  incentivesAmount : Nat
  lpBoostAmount : Nat
  grantsAmount : Nat

def splitShares (balance effectiveBoost : Nat) (s : State) : Except Revert Shares := do
  let bbb ← mulU .overflow balance s.bbbBps
  let get ← mulU .overflow balance s.getBps
  let staker ← mulU .overflow balance s.stakerBps
  let afterBbb ← subU .underflow balance (bbb / totalBps)
  let afterGet ← subU .underflow afterBbb (get / totalBps)
  let treasuryRaw ← subU .underflow afterGet (staker / totalBps)
  let feeToStake ← mulU .overflow treasuryRaw s.feeToStakeBps
  let treasuryAmount ← subU .underflow treasuryRaw (feeToStake / totalBps)
  let getAmount := get / totalBps
  let incentives ← mulU .overflow getAmount s.incentivesBps
  let boosted ← mulU .overflow incentives effectiveBoost
  let incentivesAmount := boosted / (totalBps * totalBps)
  let lpBoost ← mulU .overflow getAmount s.lpBoostBps
  let afterIncentives ← subU .underflow getAmount (incentives / totalBps)
  let grantsAmount ← subU .underflow afterIncentives (lpBoost / totalBps)
  let getForwarded ← subU .underflow getAmount grantsAmount
  .ok {
    bbbAmount := bbb / totalBps
    getAmount := getAmount
    getForwarded := getForwarded
    stakerAmount := staker / totalBps
    treasuryAmount := treasuryAmount
    feeToStakeAmount := feeToStake / totalBps
    incentivesAmount := if getAmount < incentivesAmount then getAmount else incentivesAmount
    lpBoostAmount := lpBoost / totalBps
    grantsAmount := grantsAmount }

/-- The writes of a distribution, all before its transfers. -/
def recordShares (balance effectiveBoost : Nat) (parts : Shares) (s : State) : Except Revert State := do
  let distributionCount ← addU .overflow s.distributionCount 1
  let grantPoolBalance ← addU .overflow s.grantPoolBalance parts.grantsAmount
  let totalDistributed ← addU .overflow s.totalDistributed balance
  let totalBBB ← addU .overflow s.totalBBB parts.bbbAmount
  let totalGET ← addU .overflow s.totalGET parts.getAmount
  let totalStaker ← addU .overflow s.totalStaker parts.stakerAmount
  let totalTreasury ← addU .overflow s.totalTreasury parts.treasuryAmount
  let totalFeeToStake ← addU .overflow s.totalFeeToStake parts.feeToStakeAmount
  let totalIncentives ← addU .overflow s.totalIncentivesDistributed parts.incentivesAmount
  let totalLPBoost ← addU .overflow s.totalLPBoostDistributed parts.lpBoostAmount
  let totalGrants ← addU .overflow s.totalGrantsDistributed parts.grantsAmount
  let monthlyVolume ← addU .overflow s.monthlyVolume balance
  .ok { s with
    distributionCount := distributionCount
    boostMultiplier := effectiveBoost
    thetaNativeFeesSinceReset := 0
    totalFeesSinceReset := 0
    grantPoolBalance := grantPoolBalance
    lastGrantActivity := m.timestamp
    totalDistributed := totalDistributed
    totalBBB := totalBBB
    totalGET := totalGET
    totalStaker := totalStaker
    totalTreasury := totalTreasury
    totalFeeToStake := totalFeeToStake
    totalIncentivesDistributed := totalIncentives
    totalLPBoostDistributed := totalLPBoost
    totalGrantsDistributed := totalGrants
    monthlyVolume := monthlyVolume }

/-- A stake payment: the chain's total first, then the transfer. -/
def stakeShare (chainId : Nat) (pool : Address) (r : Reply) (share : Nat) (label : String) (w : World) :
    Except Revert World := do
  let total ← addU .overflow (w.state.chainStakeTotal chainId) share
  safeTransfer pool r share label
    (w.write { w.state with chainStakeTotal := update w.state.chainStakeTotal chainId total })

/-- A route's share: its weight, and for the last one what is left. -/
def routeShare (amount distributed totalStakeWeight : Nat) (r : StakeRoute) (last : Bool) : Except Revert Nat :=
  if last then subU .underflow amount distributed
  else do
    let scaled ← mulU .overflow amount r.weightBps
    .ok (scaled / totalStakeWeight)

/-- The loop over the stake routes from the `i`-th on. -/
def routeLoop (amount : Nat) : List StakeRoute → Nat → Nat → World → Except Revert World
  | [], _, _, w => .ok w
  | r :: rest, i, distributed, w =>
    if r.active = false ∨ r.pool = 0 then routeLoop amount rest (i + 1) distributed w
    else do
      let share ← routeShare amount distributed w.state.totalStakeWeight r rest.isEmpty
      if 0 < share then do
        let w ← stakeShare r.chainId r.pool (replies (4 + i)) share r.label w
        routeLoop amount rest (i + 1) (distributed + share) w
      else routeLoop amount rest (i + 1) distributed w

/-- `_routeStake`. -/
def routeStake (amount : Nat) (w : World) : Except Revert World :=
  let s := w.state
  if 0 < s.stakeRoutes.length ∧ 0 < s.totalStakeWeight then routeLoop replies amount s.stakeRoutes 0 0 w
  else if s.stakePool ≠ 0 then stakeShare m.chainid s.stakePool (replies 4) amount "StakePool" w
  else do
    let totalTreasury ← addU .overflow s.totalTreasury amount
    safeTransfer s.treasuryWallet (replies 4) amount "Treasury(stake)"
      (w.write { s with totalTreasury := totalTreasury })

/-- The distributed balance is the contract's whole balance, whatever part of it is promised. -/
def distribute (w : World) : Except Revert World := do
  revertIf w.state.paused .enforcedPause
  let balance := w.holdings .native
  revertIf (balance = 0) .nothingToDistribute
  let effectiveBoost ← computeBoost w.state
  let parts ← splitShares balance effectiveBoost w.state
  let s ← recordShares m balance effectiveBoost parts w.state
  let w ← safeTransfer s.bbbWallet (replies 0) parts.bbbAmount "BBB" (w.write s)
  let w ← safeTransfer w.state.getWallet (replies 1) parts.getForwarded "GET" w
  let w ← safeTransfer w.state.stakerVault (replies 2) parts.stakerAmount "Staker" w
  let w ← safeTransfer w.state.treasuryWallet (replies 3) parts.treasuryAmount "Treasury" w
  if 0 < parts.feeToStakeAmount then routeStake m replies parts.feeToStakeAmount w else .ok w

end Distribute

/-! ## Escrows, deferred claims, grants -/

section Pots

variable (m : Msg) (replies : Replies)

def createEscrow (value : Nat) (payee : Address) (maxAmount : Nat) (taskId : Word) (duration : Nat) (w : World) :
    Except Revert World := do
  let s := w.state
  revertIf s.paused .enforcedPause
  revertIf (payee = 0 ∨ payee = m.sender) .invalidPayee
  revertIf (value = 0) .zeroAmount
  revertIf (maxAmount < value) .exceedsMax
  revertIf (duration = 0 ∨ 30 * 86400 < duration) .invalidDuration
  let escrowId ← addU .overflow s.escrowCount 1
  let totalEscrowed ← addU .overflow s.totalEscrowed value
  .ok ((w.credit .native value).write { s with
    escrowCount := escrowId
    escrows := update s.escrows escrowId {
      payer := m.sender
      payee := payee
      amount := value
      maxAmount := maxAmount
      taskId := taskId
      createdAt := m.timestamp
      expiresAt := m.timestamp + duration
      claimed := false
      refunded := false }
    payerEscrows := update s.payerEscrows m.sender (s.payerEscrows m.sender ++ [escrowId])
    payeeEscrows := update s.payeeEscrows payee (s.payeeEscrows payee ++ [escrowId])
    totalEscrowed := totalEscrowed })

def Escrow.claim (e : Escrow) : Escrow := { e with claimed := true }

def Escrow.refund (e : Escrow) : Escrow := { e with refunded := true }

def setEscrow (escrowId : Nat) (e : Escrow) (s : State) : State :=
  { s with escrows := update s.escrows escrowId e }

def collectFee (protocolFee : Nat) (taskId : Word) (s : State) : Except Revert State := do
  if 0 < protocolFee then
    let totalCollected ← addU .overflow s.totalCollected protocolFee
    let fees ← addU .overflow (s.circuitFees taskId) protocolFee
    .ok { s with totalCollected := totalCollected, circuitFees := update s.circuitFees taskId fees }
  else .ok s

def claimEscrow (escrowId claimAmount : Nat) (w : World) : Except Revert World := do
  revertIf w.state.paused .enforcedPause
  let e := w.state.escrows escrowId
  revertIf (e.payer = 0) .escrowNotFound
  revertIf (e.claimed ∨ e.refunded) .escrowAlreadyClaimed
  revertIf (m.sender ≠ e.payee) .notEscrowPayee
  revertIf (e.expiresAt < m.timestamp) .escrowExpired
  revertIf (e.maxAmount < claimAmount) .exceedsPayUpTo
  let claimAmount := if e.amount < claimAmount then e.amount else claimAmount
  let scaled ← mulU .overflow claimAmount protocolFeeBps
  let protocolFee := scaled / totalBps
  let payeeAmount ← subU .underflow claimAmount protocolFee
  let w ← safeTransfer e.payee (replies 0) payeeAmount "EscrowClaim" (w.write (setEscrow escrowId e.claim w.state))
  let e := w.state.escrows escrowId
  let s ← collectFee protocolFee e.taskId w.state
  let remainder ← subU .underflow e.amount claimAmount
  let w ← safeTransfer e.payer (replies 1) remainder "EscrowRemainder" (w.write s)
  let totalClaimed ← addU .overflow w.state.totalClaimed claimAmount
  .ok (w.write { w.state with totalClaimed := totalClaimed })

def refundEscrow (escrowId : Nat) (w : World) : Except Revert World := do
  let e := w.state.escrows escrowId
  revertIf (e.payer = 0) .escrowNotFound
  revertIf (e.claimed ∨ e.refunded) .escrowAlreadyClaimed
  revertIf (m.sender ≠ e.payer) .notEscrowPayer
  revertIf (m.timestamp ≤ e.expiresAt) .escrowNotExpired
  let w ← safeTransfer e.payer (replies 0) e.amount "EscrowRefund" (w.write (setEscrow escrowId e.refund w.state))
  let totalRefunded ← addU .overflow w.state.totalRefunded (w.state.escrows escrowId).amount
  .ok (w.write { w.state with totalRefunded := totalRefunded })

def DeferredClaim.execute (c : DeferredClaim) : DeferredClaim := { c with claimed := true }

/-- The claim leaves the deferred total of its claimant. -/
def markExecuted (claimId : Nat) (s : State) : Except Revert State := do
  let c := s.deferredClaims claimId
  let deferred ← subU .underflow (s.totalDeferred c.claimant) c.amount
  .ok { s with
    deferredClaims := update s.deferredClaims claimId c.execute
    totalDeferred := update s.totalDeferred c.claimant deferred }

def executeDeferredClaim (claimId : Nat) (w : World) : Except Revert World := do
  revertIf w.state.paused .enforcedPause
  let c := w.state.deferredClaims claimId
  revertIf (c.claimant = 0) .escrowNotFound
  revertIf c.claimed .claimAlreadyClaimed
  revertIf (m.timestamp < c.claimableAfter) .claimNotReady
  let s ← markExecuted claimId w.state
  let scaled ← mulU .overflow c.amount protocolFeeBps
  let protocolFee := scaled / totalBps
  let claimantAmount ← subU .underflow c.amount protocolFee
  let w ← safeTransfer c.claimant (replies 0) claimantAmount "DeferredClaim" (w.write s)
  let totalCollected ← addU .overflow w.state.totalCollected protocolFee
  let totalClaimed ← addU .overflow w.state.totalClaimed (w.state.deferredClaims claimId).amount
  .ok (w.write { w.state with totalCollected := totalCollected, totalClaimed := totalClaimed })

/-- A grant leaves the pool. -/
def markGranted (index : Nat) (s : State) : Except Revert State := do
  let p := s.grantProposals index
  let pool ← subU .underflow s.grantPoolBalance p.amount
  .ok { s with
    grantProposals := update s.grantProposals index { p with executed := true }
    grantPoolBalance := pool
    lastGrantActivity := m.timestamp }

def claimGrant (index : Nat) (w : World) : Except Revert World := do
  revertIf w.state.paused .enforcedPause
  let p := w.state.grantProposals index
  revertIf (p.createdAt = 0) .grantNotFound
  revertIf (p.executed ∨ p.cancelled) .grantAlreadyExecuted
  if p.createdAt + grantExpiry < m.timestamp then
    .ok (w.write { w.state with
      grantProposals := update w.state.grantProposals index { p with cancelled := true } })
  else do
    revertIf (p.votesFor ≤ p.votesAgainst) .notApproved
    revertIf (w.state.grantPoolBalance < p.amount) .insufficientGrantPool
    let s ← markGranted m index w.state
    safeTransfer p.recipient (replies 0) p.amount "Grant" (w.write s)

end Pots

/-! ## Transactions -/

inductive Call where
  | distribute
  | createEscrow (value : Nat) (payee : Address) (maxAmount : Nat) (taskId : Word) (duration : Nat)
  | claimEscrow (escrowId claimAmount : Nat)
  | refundEscrow (escrowId : Nat)
  | executeDeferredClaim (claimId : Nat)
  | claimGrant (index : Nat)
  | openCall (call : OpenCall)

/-- A transaction, and how the accounts it pays answer. -/
structure Tx where
  msg : Msg
  call : Call
  replies : Replies

def exec (tx : Tx) (w : World) : Except Revert World :=
  match tx.call with
  | .distribute => distribute tx.msg tx.replies w
  | .createEscrow value payee maxAmount taskId duration =>
    createEscrow tx.msg value payee maxAmount taskId duration w
  | .claimEscrow escrowId claimAmount => claimEscrow tx.msg tx.replies escrowId claimAmount w
  | .refundEscrow escrowId => refundEscrow tx.msg tx.replies escrowId w
  | .executeDeferredClaim claimId => executeDeferredClaim tx.msg tx.replies claimId w
  | .claimGrant index => claimGrant tx.msg tx.replies index w
  | .openCall call => execOpen tx.msg call w

/-- A transaction that reverts changes nothing. -/
def step (w : World) (tx : Tx) : World :=
  match exec tx w with
  | .ok w' => w'
  | .error _ => w

/-- The contract as deployed, with what it was sent before. -/
def start (wallets : Wallets) (now balance : Nat) : World where
  state := deploy wallets now
  holdings := fun
    | .native => balance
    | .erc20 _ => 0

def run (w : World) (txs : List Tx) : World := Trace.run step w txs

end RevenueSplitter
