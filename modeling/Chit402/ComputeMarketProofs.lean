import Chit402.ExceptFlowProofs
import Chit402.OrderedMapProofs
import Chit402.TraceProofs

/-! # The compute marketplace contract

    The CosmWasm contract of the compute marketplace: tasks with an escrow,
    bids with a deposit, and the bank messages its handlers emit.

    A message is delivered with its coins credited first; the handler runs,
    and the bank messages of its response are then paid in order.  A failure
    anywhere leaves the world as it was.  A bank message here names, next to
    receiver and coin, the record whose money it moves; the bank does not
    read that. -/

namespace ComputeMarket

open ExceptFlow OrderedMap

/-! ## State -/

def FEE_BPS_DEFAULT : ℕ := 50

def BPS_DENOM : ℕ := 10000

structure Config where
  admin : String
  revenueSplitter : String
  zkVerifier : String
  feeBps : ℕ
  ibcChannel : String
  mockMode : Bool

structure GPUSpec where
  specId : String
  vendor : String
  model : String
  vramMb : ℕ
  cudaCores : ℕ
  basePrice : ℕ
  available : Bool

inductive TaskStatus where
  | open | bidding | assigned | computing | completed | settled | cancelled
deriving DecidableEq

structure Task where
  taskId : String
  requester : String
  specId : String
  sdlHash : String
  maxPrice : ℕ
  escrow : ℕ
  duration : ℕ
  status : TaskStatus
  createdAt : ℕ
  settledAt : ℕ
  winningBidId : String
  completionNullifier : String
deriving DecidableEq

structure Bid where
  bidId : String
  taskId : String
  provider : String
  price : ℕ
  deposit : ℕ
  active : Bool
  submittedAt : ℕ
deriving DecidableEq

structure Settlement where
  taskId : String
  provider : String
  payout : ℕ
  protocolFee : ℕ
  nullifier : String
  outputHash : String
  settledAt : ℕ

structure Metrics where
  totalTasks : ℕ
  totalBids : ℕ
  totalSettled : ℕ
  totalFailed : ℕ
  totalVolume : ℕ
  totalFees : ℕ

structure Store where
  config : Config
  gpuSpecs : OrderedMap String GPUSpec
  tasks : OrderedMap String Task
  bids : OrderedMap String Bid
  taskBidList : OrderedMap String (List String)
  settlements : OrderedMap String Settlement
  nullifiers : OrderedMap String Bool
  metrics : Metrics
  taskCount : ℕ
  bidCount : ℕ

/-! ## Messages -/

structure Coin where
  denom : String
  amount : ℕ
deriving DecidableEq

structure MessageInfo where
  sender : String
  funds : List Coin

/-- The block's height and time in seconds. -/
structure Env where
  height : ℕ
  time : ℕ

/-- The contract's own address, and the chain's check of an address. -/
structure Chain where
  contract : String
  addrValidate : String → Option String

structure InstantiateMsg where
  admin : String
  revenueSplitter : String
  zkVerifier : String
  feeBps : Option ℕ
  ibcChannel : Option String
  mockMode : Option Bool

inductive ExecuteMsg where
  | registerGPUSpec (vendor model : String) (vramMb cudaCores basePrice : ℕ)
  | submitTask (specId sdlHash : String) (maxPrice duration : ℕ)
  | placeBid (taskId : String) (price : ℕ)
  | acceptBid (bidId : String)
  | settleTask (taskId outputHash nullifier : String)
  | cancelTask (taskId : String)
  | updateConfig (feeBps : Option ℕ) (revenueSplitter zkVerifier : Option String)

/-- Why a message fails: an error with a text, a missing record, an address the chain
    does not take, an overflow that aborts, or a bank message that cannot be paid. -/
inductive StdError where
  | genericErr (msg : String)
  | notFound
  | invalidAddress
  | overflow
  | bank
deriving DecidableEq

/-- The record whose money a bank message moves. -/
inductive Purpose where
  | fee (taskId : String)
  | escrow (taskId : String)
  | deposit (bidId : String)
deriving DecidableEq

/-- `BankMsg::Send` of one coin. -/
structure BankSend where
  purpose : Purpose
  toAddress : String
  amount : Coin
deriving DecidableEq

abbrev Response := Store × List BankSend

/-! ## Checked arithmetic and storage -/

def Uint128.bound : ℕ := 2 ^ 128

def checkedMul (a b : ℕ) (e : StdError) : Except StdError ℕ :=
  if a * b < Uint128.bound then .ok (a * b) else .error e

def checkedSub (a b : ℕ) (e : StdError) : Except StdError ℕ :=
  if b ≤ a then .ok (a - b) else .error e

/-- `multiply_ratio`: rounded down, aborts where the result does not fit. -/
def multiplyRatio (a numerator denominator : ℕ) : Except StdError ℕ :=
  if a * numerator / denominator < Uint128.bound then .ok (a * numerator / denominator) else .error .overflow

/-- `+=` on a `Uint128`. -/
def add128 (a b : ℕ) : Except StdError ℕ := if a + b < Uint128.bound then .ok (a + b) else .error .overflow

/-- `+ 1` on a `u64`. -/
def increment (n : ℕ) : Except StdError ℕ := if n + 1 < 2 ^ 64 then .ok (n + 1) else .error .overflow

def load {α : Type} (m : OrderedMap String α) (key : String) (e : StdError) : Except StdError α :=
  match m.lookup key with
  | some v => .ok v
  | none => .error e

def addrValidate (chain : Chain) (addr : String) : Except StdError String :=
  match chain.addrValidate addr with
  | some a => .ok a
  | none => .error .invalidAddress

/-- An address of an update: checked where it is given, else as before. -/
def updatedAddr (chain : Chain) (current : String) : Option String → Except StdError String
  | some addr => addrValidate chain addr
  | none => .ok current

/-! ## The handlers -/

def instantiate (chain : Chain) (msg : InstantiateMsg) : Except StdError Store := do
  let admin ← addrValidate chain msg.admin
  let revenueSplitter ← addrValidate chain msg.revenueSplitter
  let zkVerifier ← addrValidate chain msg.zkVerifier
  return {
    config := { admin, revenueSplitter, zkVerifier, feeBps := msg.feeBps.getD FEE_BPS_DEFAULT,
                ibcChannel := msg.ibcChannel.getD "", mockMode := msg.mockMode.getD true }
    gpuSpecs := ∅, tasks := ∅, bids := ∅, taskBidList := ∅, settlements := ∅, nullifiers := ∅
    metrics := ⟨0, 0, 0, 0, 0, 0⟩, taskCount := 0, bidCount := 0 }

def registerGPUSpec (info : MessageInfo) (vendor model : String) (vramMb cudaCores basePrice : ℕ) (s : Store) :
    Except StdError Response := do
  revertIf (info.sender ≠ s.config.admin) (.genericErr "Unauthorized")
  let specId := vendor ++ "-" ++ model
  let spec : GPUSpec := { specId, vendor, model, vramMb, cudaCores, basePrice, available := true }
  return ({ s with gpuSpecs := set s.gpuSpecs specId spec }, [])

/-- The first attached coin in one of the two denominations the contract takes. -/
def acceptedCoin (funds : List Coin) : Option Coin := funds.find? fun c => c.denom = "uakt" ∨ c.denom = "uosmo"

def acceptedAmount (funds : List Coin) : ℕ := (acceptedCoin funds).elim 0 Coin.amount

def taskIdOf (height count : ℕ) : String := "cmp-" ++ toString height ++ "-" ++ toString count

def bidIdOf (taskId : String) (count : ℕ) : String := "bid-" ++ taskId ++ "-" ++ toString count

/-- A message over `amount` uakt, left out where there is nothing to send. -/
def sendNonzero (purpose : Purpose) (toAddress : String) (amount : ℕ) : List BankSend :=
  if amount = 0 then [] else [{ purpose, toAddress, amount := ⟨"uakt", amount⟩ }]

def submitTask (env : Env) (info : MessageInfo) (specId sdlHash : String) (maxPrice duration : ℕ) (s : Store) :
    Except StdError Response := do
  let _ ← load s.gpuSpecs specId (.genericErr "SpecNotFound")
  let sent := acceptedAmount info.funds
  let required ← checkedMul maxPrice duration (.genericErr "Overflow")
  revertIf (sent < required) (.genericErr "InsufficientEscrow")
  let fee ← multiplyRatio sent s.config.feeBps BPS_DENOM
  let netEscrow ← checkedSub sent fee (.genericErr "FeeOverflow")
  let taskId := taskIdOf env.height s.taskCount
  let taskCount ← increment s.taskCount
  let totalTasks ← increment s.metrics.totalTasks
  let totalVolume ← add128 s.metrics.totalVolume sent
  let totalFees ← add128 s.metrics.totalFees fee
  let task : Task := {
    taskId, requester := info.sender, specId, sdlHash, maxPrice, escrow := netEscrow, duration
    status := .open, createdAt := env.time, settledAt := 0, winningBidId := "", completionNullifier := "" }
  return ({ s with
    tasks := set s.tasks taskId task
    taskCount
    taskBidList := set s.taskBidList taskId []
    metrics := { s.metrics with totalTasks, totalVolume, totalFees } },
    sendNonzero (.fee taskId) s.config.revenueSplitter fee)

/-- 0.01 AKT. -/
def minDeposit : ℕ := 10000

def placeBid (env : Env) (info : MessageInfo) (taskId : String) (price : ℕ) (s : Store) :
    Except StdError Response := do
  let task ← load s.tasks taskId (.genericErr "TaskNotFound")
  revertIf (task.status ≠ .open ∧ task.status ≠ .bidding) (.genericErr "InvalidTaskStatus")
  revertIf (task.maxPrice < price) (.genericErr "BidTooHigh")
  let deposit := acceptedAmount info.funds
  revertIf (deposit < minDeposit) (.genericErr "BidDepositTooLow")
  let bidId := bidIdOf taskId s.bidCount
  let bidCount ← increment s.bidCount
  let bidList ← load s.taskBidList taskId .notFound
  let totalBids ← increment s.metrics.totalBids
  let bid : Bid := {
    bidId, taskId, provider := info.sender, price, deposit, active := true, submittedAt := env.time }
  return ({ s with
    bids := set s.bids bidId bid
    bidCount
    taskBidList := set s.taskBidList taskId (bidList ++ [bidId])
    tasks := if task.status = .open then set s.tasks taskId { task with status := .bidding } else s.tasks
    metrics := { s.metrics with totalBids } }, [])

/-- One turn of the loops over a task's bids: an active bid with a deposit is closed, and
    the deposit sent back.  A bid that does not load is passed over. -/
def releaseBid (bidId : String) (bids : OrderedMap String Bid) : OrderedMap String Bid × List BankSend :=
  match bids.lookup bidId with
  | some bid =>
    if bid.active = true ∧ bid.deposit ≠ 0 then
      (set bids bidId { bid with active := false }, [⟨.deposit bidId, bid.provider, ⟨"uakt", bid.deposit⟩⟩])
    else (bids, [])
  | none => (bids, [])

def releaseBids : List String → OrderedMap String Bid → OrderedMap String Bid × List BankSend
  | [], bids => (bids, [])
  | bidId :: rest, bids =>
    let first := releaseBid bidId bids
    let others := releaseBids rest first.1
    (others.1, first.2 ++ others.2)

/-- The status of the task is not looked at. -/
def acceptBid (info : MessageInfo) (bidId : String) (s : Store) : Except StdError Response := do
  let bid ← load s.bids bidId (.genericErr "BidNotFound")
  revertIf (bid.active = false) (.genericErr "BidNotActive")
  let task ← load s.tasks bid.taskId .notFound
  revertIf (task.requester ≠ info.sender) (.genericErr "NotRequester")
  let bidList ← load s.taskBidList bid.taskId .notFound
  let others := releaseBids (bidList.filter fun id => id ≠ bidId) (set s.bids bidId { bid with active := false })
  return ({ s with
    tasks := set s.tasks bid.taskId { task with status := .assigned, winningBidId := bidId }
    bids := others.1 },
    sendNonzero (.deposit bidId) bid.provider bid.deposit ++ others.2)

def settleTask (env : Env) (info : MessageInfo) (taskId outputHash nullifier : String) (s : Store) :
    Except StdError Response := do
  revertIf (info.sender ≠ s.config.admin) (.genericErr "Unauthorized")
  revertIf ((s.nullifiers.lookup nullifier).getD false = true) (.genericErr "NullifierUsed")
  let task ← load s.tasks taskId (.genericErr "TaskNotFound")
  revertIf (task.status ≠ .assigned ∧ task.status ≠ .computing) (.genericErr "InvalidTaskStatus")
  let bid ← load s.bids task.winningBidId .notFound
  let payout ← checkedMul bid.price task.duration (.genericErr "Overflow")
  let actualPayout := if task.escrow < payout then task.escrow else payout
  let refund ← checkedSub task.escrow actualPayout (.genericErr "Underflow")
  let totalSettled ← increment s.metrics.totalSettled
  let settlement : Settlement := {
    taskId, provider := bid.provider, payout := actualPayout, protocolFee := 0
    nullifier, outputHash, settledAt := env.time }
  return ({ s with
    nullifiers := set s.nullifiers nullifier true
    tasks := set s.tasks taskId
      { task with status := .settled, settledAt := env.time, completionNullifier := nullifier }
    settlements := set s.settlements nullifier settlement
    metrics := { s.metrics with totalSettled } },
    sendNonzero (.escrow taskId) bid.provider actualPayout ++ sendNonzero (.escrow taskId) task.requester refund)

def cancelTask (info : MessageInfo) (taskId : String) (s : Store) : Except StdError Response := do
  let task ← load s.tasks taskId (.genericErr "TaskNotFound")
  revertIf (task.requester ≠ info.sender) (.genericErr "NotRequester")
  revertIf (task.status ≠ .open ∧ task.status ≠ .bidding) (.genericErr "InvalidTaskStatus")
  let released := releaseBids ((s.taskBidList.lookup taskId).getD []) s.bids
  return ({ s with
    tasks := set s.tasks taskId { task with status := .cancelled, escrow := 0 }
    bids := released.1 },
    released.2 ++ sendNonzero (.escrow taskId) task.requester task.escrow)

def updateConfig (chain : Chain) (info : MessageInfo) (feeBps : Option ℕ) (revenueSplitter zkVerifier : Option String)
    (s : Store) : Except StdError Response := do
  revertIf (info.sender ≠ s.config.admin) (.genericErr "Unauthorized")
  revertIf (∃ f ∈ feeBps, f < 10 ∨ 100 < f) (.genericErr "FeeRange")
  let splitter ← updatedAddr chain s.config.revenueSplitter revenueSplitter
  let verifier ← updatedAddr chain s.config.zkVerifier zkVerifier
  return ({ s with config := { s.config with
    feeBps := feeBps.getD s.config.feeBps, revenueSplitter := splitter, zkVerifier := verifier } }, [])

def execute (chain : Chain) (env : Env) (info : MessageInfo) (msg : ExecuteMsg) (s : Store) :
    Except StdError Response :=
  match msg with
  | .registerGPUSpec vendor model vramMb cudaCores basePrice =>
    registerGPUSpec info vendor model vramMb cudaCores basePrice s
  | .submitTask specId sdlHash maxPrice duration => submitTask env info specId sdlHash maxPrice duration s
  | .placeBid taskId price => placeBid env info taskId price s
  | .acceptBid bidId => acceptBid info bidId s
  | .settleTask taskId outputHash nullifier => settleTask env info taskId outputHash nullifier s
  | .cancelTask taskId => cancelTask info taskId s
  | .updateConfig feeBps revenueSplitter zkVerifier => updateConfig chain info feeBps revenueSplitter zkVerifier s

/-! ## The chain around it -/

/-- What was taken in for each record, and what was paid out. -/
structure History where
  taskFunds : String → Option Coin
  bidFunds : String → Option Coin
  payments : List BankSend

structure World where
  store : Store
  balance : String → ℕ
  history : History

/-- The bank moves a coin out of the contract's account. -/
def pay (chain : Chain) (balance : String → ℕ) (m : BankSend) : Except StdError (String → ℕ) :=
  if balance m.amount.denom < m.amount.amount then .error .bank
  else if m.toAddress = chain.contract then .ok balance
  else .ok (Function.update balance m.amount.denom (balance m.amount.denom - m.amount.amount))

def credit (balance : String → ℕ) (c : Coin) : String → ℕ :=
  Function.update balance c.denom (balance c.denom + c.amount)

/-- The coin a message leaves with the record it makes. -/
def History.take (env : Env) (info : MessageInfo) (s : Store) (h : History) : ExecuteMsg → History
  | .submitTask .. =>
    { h with taskFunds := Function.update h.taskFunds (taskIdOf env.height s.taskCount) (acceptedCoin info.funds) }
  | .placeBid taskId _ =>
    { h with bidFunds := Function.update h.bidFunds (bidIdOf taskId s.bidCount) (acceptedCoin info.funds) }
  | _ => h

structure Tx where
  env : Env
  info : MessageInfo
  msg : ExecuteMsg

def deliver (chain : Chain) (tx : Tx) (w : World) : Except StdError World := do
  let (store, sends) ← execute chain tx.env tx.info tx.msg w.store
  let balance ← sends.foldlM (pay chain) (tx.info.funds.foldl credit w.balance)
  let history := w.history.take tx.env tx.info w.store tx.msg
  return ⟨store, balance, { history with payments := history.payments ++ sends }⟩

/-- A message that fails is rolled back. -/
def step (chain : Chain) (w : World) (tx : Tx) : World :=
  match deliver chain tx w with
  | .ok w' => w'
  | .error _ => w

def start (s : Store) (balance : String → ℕ) : World := ⟨s, balance, ⟨fun _ => none, fun _ => none, []⟩⟩

def run (chain : Chain) (w : World) (txs : List Tx) : World := Trace.run (step chain) w txs

end ComputeMarket
