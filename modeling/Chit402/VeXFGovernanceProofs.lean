import Chit402.FiniteSumProofs
import Chit402.SolidityProofs
import Chit402.TraceProofs

/-! # Vote-escrowed governance

    `veXFGovernance`: XF is locked until a week boundary, a lock gives voting
    power that decays to nothing as it runs out, and a vote counts the power
    its sender has when it is cast.  No snapshot is taken.

    The token stands next to the contract: it moves exactly what it is asked
    to.  How much an account put in since its last unlock, what was sent to
    the contract without a lock, and the lock each vote was cast with are
    kept beside the storage. -/

namespace VeXFGovernance

open ExceptFlow Solidity Function

/-! ## State -/

/-- 26 weeks. -/
def minLock : Nat := 15724800

/-- 3 * 365 days. -/
def maxLock : Nat := 94608000

def maxMultiplier : Nat := 3

/-- `1 weeks`. -/
def oneWeek : Nat := 604800

/-- 3 days. -/
def votingPeriod : Nat := 259200

structure Lock where
  amount : Nat
  lockStart : Nat
  unlockTime : Nat

inductive ProposalType where
  | circuitPriority | lpAllocation | feeStructure | treasurySpend | emergencyPause
deriving DecidableEq

structure Proposal where
  id : Nat
  pType : ProposalType
  targetCircuit : Word
  description : String
  forVotes : Nat
  againstVotes : Nat
  startTime : Nat
  endTime : Nat
  executed : Bool
  proposer : Address
  executionData : List UInt8

structure State where
  locks : Address → Lock
  totalLocked : Nat
  lockCount : Nat
  proposalCount : Nat
  proposals : Nat → Proposal
  hasVoted : Nat → Address → Bool
  usedVoteNullifiers : Word → Bool

def noLock : Lock where
  amount := 0
  lockStart := 0
  unlockTime := 0

/-- The record of an id that no proposal has. -/
def noProposal : Proposal where
  id := 0
  pType := .circuitPriority
  targetCircuit := 0
  description := ""
  forVotes := 0
  againstVotes := 0
  startTime := 0
  endTime := 0
  executed := false
  proposer := 0
  executionData := []

def deploy : State where
  locks := fun _ => noLock
  totalLocked := 0
  lockCount := 0
  proposalCount := 0
  proposals := fun _ => noProposal
  hasVoted := fun _ _ => false
  usedVoteNullifiers := fun _ => false

/-- The lock a vote was cast with, and when. -/
structure Ballot where
  amount : Nat
  unlockTime : Nat
  votedAt : Nat

def noBallot : Ballot where
  amount := 0
  unlockTime := 0
  votedAt := 0

/-- The contract and the token.  `balance` is what the accounts hold, `held` what the
    contract does; the last three fields are no storage of either. -/
structure World where
  gov : State
  now : Nat
  balance : Address → Nat
  held : Nat
  putIn : Address → Nat
  donated : Nat
  ballots : Nat → Address → Ballot

/-- All addresses.  Irreducible, so that no proof counts them. -/
@[irreducible] def allAddresses : Fintype Address :=
  Fintype.ofEquiv (Fin (2 ^ 160)) ⟨BitVec.ofFin, BitVec.toFin, fun _ => rfl, fun _ => rfl⟩

instance : Fintype Address := allAddresses

/-- The total supply of the token. -/
def World.supply (w : World) : Nat := ∑ u, w.balance u + w.held

inductive Revert where
  | zeroAmount | lockTooShort | lockTooLong | existingLock | noExistingLock | lockExpired
  | mustBeLonger | lockNotExpired | insufficientVotingPower | invalidProposal | votingClosed
  | alreadyVoted | nullifierAlreadyUsed | transferFailed | panic
deriving DecidableEq

def setLock (u : Address) (l : Lock) (s : State) : State := { s with locks := update s.locks u l }

def World.put (s : State) (w : World) : World := { w with gov := s }

/-! ## The token -/

/-- `transferFrom` to the contract. -/
def pullTokens (src : Address) (amount : Nat) (approved : Bool) (w : World) : Except Revert World := do
  revertIf (approved = false ∨ w.balance src < amount) .transferFailed
  .ok { w with
    balance := update w.balance src (w.balance src - amount)
    held := w.held + amount
    putIn := update w.putIn src (w.putIn src + amount) }

/-- `transfer` from the contract; nothing that `dst` put in is left. -/
def pushTokens (dst : Address) (amount : Nat) (w : World) : Except Revert World := do
  revertIf (w.held < amount) .transferFailed
  .ok { w with
    balance := update w.balance dst (w.balance dst + amount)
    held := w.held - amount
    putIn := update w.putIn dst 0 }

/-- A transfer between two accounts. -/
def transfer (src dst : Address) (amount : Nat) (w : World) : Except Revert World := do
  revertIf (w.balance src < amount) .transferFailed
  let balance := update w.balance src (w.balance src - amount)
  .ok { w with balance := update balance dst (balance dst + amount) }

/-- A transfer to the contract, without a lock. -/
def donate (src : Address) (amount : Nat) (w : World) : Except Revert World := do
  revertIf (w.balance src < amount) .transferFailed
  .ok { w with
    balance := update w.balance src (w.balance src - amount)
    held := w.held + amount
    donated := w.donated + amount }

/-! ## Locks -/

/-- The voting power of a lock at `now`. -/
def votingPower (now : Nat) (l : Lock) : Except Revert Nat :=
  if l.amount = 0 ∨ l.unlockTime ≤ now then .ok 0
  else do
    let scaled ← mulU .panic l.amount maxMultiplier
    let scaled ← mulU .panic scaled (l.unlockTime - now)
    .ok (scaled / maxLock)

section Locks

variable (sender : Address) (now : Nat)

/-- The record of a lock: each field is cut to its width. -/
def newLock (amount unlockTime : Nat) : Lock where
  amount := amount % 2 ^ 128
  lockStart := now % 2 ^ 64
  unlockTime := unlockTime % 2 ^ 64

/-- The event of a lock says its voting power. -/
def writeLock (l : Lock) (s : State) (w : World) : Except Revert World := do
  let _ ← votingPower now l
  .ok (w.put (setLock sender l s))

def lock (amount unlockTime : Nat) (approved : Bool) (w : World) : Except Revert World := do
  revertIf (amount = 0) .zeroAmount
  let unlockTime := unlockTime / oneWeek * oneWeek
  let duration ← subU .panic unlockTime now
  revertIf (duration < minLock) .lockTooShort
  revertIf (maxLock < duration) .lockTooLong
  revertIf ((w.gov.locks sender).amount ≠ 0) .existingLock
  let w ← pullTokens sender amount approved w
  let totalLocked ← addU .panic w.gov.totalLocked amount
  let lockCount ← addU .panic w.gov.lockCount 1
  writeLock sender now (newLock now amount unlockTime)
    { w.gov with totalLocked := totalLocked, lockCount := lockCount } w

/-- `l.amount += uint128(addAmount)`. -/
def addAmount (added : Nat) (l : Lock) : Except Revert Lock := do
  revertIf (2 ^ 128 ≤ l.amount + added % 2 ^ 128) .panic
  .ok { l with amount := l.amount + added % 2 ^ 128 }

def increaseLock (added : Nat) (approved : Bool) (w : World) : Except Revert World := do
  revertIf (added = 0) .zeroAmount
  let l := w.gov.locks sender
  revertIf (l.amount = 0) .noExistingLock
  revertIf (l.unlockTime ≤ now) .lockExpired
  let w ← pullTokens sender added approved w
  let l ← addAmount added l
  let totalLocked ← addU .panic w.gov.totalLocked added
  writeLock sender now l { w.gov with totalLocked := totalLocked } w

def extendLock (newUnlockTime : Nat) (w : World) : Except Revert World := do
  let newUnlockTime := newUnlockTime / oneWeek * oneWeek
  let l := w.gov.locks sender
  revertIf (l.amount = 0) .noExistingLock
  revertIf (newUnlockTime ≤ l.unlockTime) .mustBeLonger
  let duration ← subU .panic newUnlockTime now
  revertIf (maxLock < duration) .lockTooLong
  writeLock sender now { l with unlockTime := newUnlockTime % 2 ^ 64 } w.gov w

def unlock (w : World) : Except Revert World := do
  let l := w.gov.locks sender
  revertIf (l.amount = 0) .noExistingLock
  revertIf (now < l.unlockTime) .lockNotExpired
  let totalLocked ← subU .panic w.gov.totalLocked l.amount
  pushTokens sender l.amount (w.put { setLock sender noLock w.gov with totalLocked := totalLocked })

end Locks

/-! ## Proposals -/

section Proposals

variable (keccak256 : List UInt8 → Word) (sender : Address) (now : Nat)

def newProposal (id endTime : Nat) (pType : ProposalType) (targetCircuit : Word) (description : String)
    (executionData : List UInt8) (p : Proposal) : Proposal :=
  { p with
    id := id
    pType := pType
    targetCircuit := targetCircuit
    description := description
    startTime := now
    endTime := endTime
    proposer := sender
    executionData := executionData }

def createProposal (pType : ProposalType) (targetCircuit : Word) (description : String)
    (executionData : List UInt8) (w : World) : Except Revert World := do
  let s := w.gov
  let power ← votingPower now (s.locks sender)
  revertIf (power = 0) .insufficientVotingPower
  let id ← addU .panic s.proposalCount 1
  let endTime ← addU .panic now votingPeriod
  .ok (w.put { s with
    proposalCount := id
    proposals := update s.proposals id
      (newProposal sender now id endTime pType targetCircuit description executionData (s.proposals id)) })

/-- `keccak256(abi.encodePacked(proposalId, voter, weight))`. -/
def voteNullifier (proposalId weight : Nat) : Word :=
  keccak256 (bigEndian 32 proposalId ++ addressBytes sender ++ bigEndian 32 weight)

/-- The tally with `weight` more on one side. -/
def count (support : Bool) (weight : Nat) (p : Proposal) : Except Revert Proposal :=
  if support then do
    let votes ← addU .panic p.forVotes weight
    .ok { p with forVotes := votes }
  else do
    let votes ← addU .panic p.againstVotes weight
    .ok { p with againstVotes := votes }

/-- The ballot of a vote cast now with the lock `l`. -/
def castNow (l : Lock) : Ballot where
  amount := l.amount
  unlockTime := l.unlockTime
  votedAt := now

def vote (proposalId : Nat) (support : Bool) (w : World) : Except Revert World := do
  let s := w.gov
  let p := s.proposals proposalId
  revertIf (p.id = 0) .invalidProposal
  revertIf (p.endTime < now) .votingClosed
  revertIf (s.hasVoted proposalId sender) .alreadyVoted
  let weight ← votingPower now (s.locks sender)
  revertIf (weight = 0) .insufficientVotingPower
  let nullifier := voteNullifier keccak256 sender proposalId weight
  revertIf (s.usedVoteNullifiers nullifier) .nullifierAlreadyUsed
  let p ← count support weight p
  .ok { w with
    gov := { s with
      usedVoteNullifiers := update s.usedVoteNullifiers nullifier true
      hasVoted := update s.hasVoted proposalId (update (s.hasVoted proposalId) sender true)
      proposals := update s.proposals proposalId p }
    ballots := update w.ballots proposalId (update (w.ballots proposalId) sender (castNow now (s.locks sender))) }

end Proposals

/-! ## Transactions -/

inductive Call where
  | lock (amount unlockTime : Nat)
  | increaseLock (added : Nat)
  | extendLock (newUnlockTime : Nat)
  | unlock
  | createProposal (pType : ProposalType) (targetCircuit : Word) (description : String)
      (executionData : List UInt8)
  | vote (proposalId : Nat) (support : Bool)
  | transfer (dst : Address) (amount : Nat)
  | donate (amount : Nat)

/-- A transaction; `approved` says whether the sender let the contract take its tokens. -/
structure Tx where
  sender : Address
  timestamp : Nat
  call : Call
  approved : Bool

section Run

variable (keccak256 : List UInt8 → Word)

def exec (tx : Tx) (w : World) : Except Revert World :=
  match tx.call with
  | .lock amount unlockTime => lock tx.sender tx.timestamp amount unlockTime tx.approved w
  | .increaseLock added => increaseLock tx.sender tx.timestamp added tx.approved w
  | .extendLock newUnlockTime => extendLock tx.sender tx.timestamp newUnlockTime w
  | .unlock => unlock tx.sender tx.timestamp w
  | .createProposal pType targetCircuit description executionData =>
    createProposal tx.sender tx.timestamp pType targetCircuit description executionData w
  | .vote proposalId support => vote keccak256 tx.sender tx.timestamp proposalId support w
  | .transfer dst amount => transfer tx.sender dst amount w
  | .donate amount => donate tx.sender amount w

/-- A transaction that reverts changes nothing; the clock goes on. -/
def step (w : World) (tx : Tx) : World :=
  match exec keccak256 tx w with
  | .ok w' => { w' with now := tx.timestamp }
  | .error _ => { w with now := tx.timestamp }

def run (w : World) (txs : List Tx) : World := Trace.run (step keccak256) w txs

end Run

/-- The contract as deployed, with the tokens spread over the accounts. -/
def start (balance : Address → Nat) : World where
  gov := deploy
  now := 0
  balance := balance
  held := 0
  putIn := fun _ => 0
  donated := 0
  ballots := fun _ _ => noBallot

end VeXFGovernance
