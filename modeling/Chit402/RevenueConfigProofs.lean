import Chit402.RevenueSplitterProofs

/-! # Configuring the splitter

    `CoreRevenueSplitter` with the calls of its role holders: splits, boost,
    wallets, stake routes.  They come as transactions of their own, in any
    order with every other call, with token fees and with value that arrives
    without a call.

    What a token fee received during a payment writes to the counters, a
    call back of `tagFeeOrigin` writes. -/

namespace RevenueConfig

open ExceptFlow Solidity Custody RevenueSplitter Function

/-! ## The contract and its role holders -/

structure Splitter where
  world : World
  treasuryBps : Nat
  grantsBps : Nat
  lastVolumeReset : Nat
  erc20Balances : Address → Nat
  circuitErc20Fees : Word → Address → Nat
  totalErc20Collected : Address → Nat

def Splitter.write (s : State) (c : Splitter) : Splitter := { c with world := c.world.write s }

inductive Refusal where
  | reverted (e : Revert)
  | zeroWallet (label : String)
  | expectedPause | notAdminOrGovernance
  | invalidSplit | invalidSubSplit | invalidBoostMultiplier | invalidFeeToStake
  | invalidStakeRoute | routeIndexOutOfBounds | zeroAddress | zeroToken | erc20TransferFailed
deriving DecidableEq

def minFeeToStakeBps : Nat := 1500

def maxFeeToStakeBps : Nat := 2500

/-- 30 days. -/
def volumeWindow : Nat := 2592000

/-- A `uint16` addition. -/
def addU16 (a b : Nat) : Except Refusal Nat :=
  if 2 ^ 16 ≤ a + b then .error (.reverted .overflow) else .ok (a + b)

/-- The constructor's checks, then the contract with `balance` sent to its address before. -/
def construct (admin : Address) (wallets : Wallets) (now balance : Nat) : Except Refusal Splitter := do
  revertIf (admin = 0) (.zeroWallet "ZeroAdmin")
  revertIf (wallets.bbbWallet = 0) (.zeroWallet "ZeroBBB")
  revertIf (wallets.getWallet = 0) (.zeroWallet "ZeroGET")
  revertIf (wallets.stakerVault = 0) (.zeroWallet "ZeroStaker")
  revertIf (wallets.treasuryWallet = 0) (.zeroWallet "ZeroTreasury")
  .ok {
    world := start wallets now balance
    treasuryBps := 1500
    grantsBps := 2000
    lastVolumeReset := now
    erc20Balances := fun _ => 0
    circuitErc20Fees := fun _ _ => 0
    totalErc20Collected := fun _ => 0 }

/-- The wallets the admin may replace. -/
inductive Wallet where
  | bbb | get | staker | treasury

inductive ConfigCall where
  | setSplit (bbb get staker treasury : UInt16)
  | setSubSplits (incentives lpBoost grants : UInt16)
  | volumeTriggeredBoost (multiplier : UInt16)
  | setDynamicBoostEnabled (enabled : Bool)
  | addStakeRoute (pool : Address) (chainId : Nat) (label : String) (weightBps : UInt16)
  | updateStakeRoute (index : Nat) (active : Bool) (weightBps : UInt16)
  | setFeeToStake (bps : UInt16)
  | setWallet (wallet : Wallet) (a : Address)
  | setStakePool (a : Address)
  | pause
  | unpause

section Config

variable (m : Msg)

def onlyRole (role : Role) : Except Refusal Unit :=
  revertIf (m.holds role = false) (.reverted (.unauthorized m.sender role))

def adminOrGovernance : Except Refusal Unit :=
  revertIf (m.holds .defaultAdmin = false ∧ m.holds .governance = false) .notAdminOrGovernance

def setSplit (bbb get staker treasury : UInt16) (c : Splitter) : Except Refusal Splitter := do
  onlyRole m .feeManager
  let sum ← addU16 bbb.toNat get.toNat
  let sum ← addU16 sum staker.toNat
  let sum ← addU16 sum treasury.toNat
  revertIf (sum ≠ totalBps) .invalidSplit
  let c := { c with treasuryBps := treasury.toNat }
  .ok (c.write { c.world.state with bbbBps := bbb.toNat, getBps := get.toNat, stakerBps := staker.toNat })

def setSubSplits (incentives lpBoost grants : UInt16) (c : Splitter) : Except Refusal Splitter := do
  adminOrGovernance m
  let sum ← addU16 incentives.toNat lpBoost.toNat
  let sum ← addU16 sum grants.toNat
  revertIf (sum ≠ totalBps) .invalidSubSplit
  let c := { c with grantsBps := grants.toNat }
  .ok (c.write { c.world.state with incentivesBps := incentives.toNat, lpBoostBps := lpBoost.toNat })

def volumeTriggeredBoost (multiplier : UInt16) (c : Splitter) : Except Refusal Splitter := do
  onlyRole m .feeManager
  revertIf (multiplier.toNat < minBoost ∨ maxBoost < multiplier.toNat) .invalidBoostMultiplier
  if c.lastVolumeReset + volumeWindow ≤ m.timestamp then
    let c := { c with lastVolumeReset := m.timestamp }
    .ok (c.write { c.world.state with monthlyVolume := 0, boostMultiplier := multiplier.toNat })
  else .ok (c.write { c.world.state with boostMultiplier := multiplier.toNat })

def setDynamicBoostEnabled (enabled : Bool) (c : Splitter) : Except Refusal Splitter := do
  adminOrGovernance m
  .ok (c.write { c.world.state with dynamicBoostEnabled := enabled })

def addStakeRoute (pool : Address) (chainId : Nat) (label : String) (weightBps : UInt16) (c : Splitter) :
    Except Refusal Splitter := do
  onlyRole m .feeManager
  revertIf (pool = 0 ∨ weightBps.toNat = 0) .invalidStakeRoute
  let total ← addU (.reverted .overflow) c.world.state.totalStakeWeight weightBps.toNat
  .ok (c.write { c.world.state with
    stakeRoutes := c.world.state.stakeRoutes ++ [{
      pool := pool
      chainId := chainId
      label := label
      weightBps := weightBps.toNat
      active := true }]
    totalStakeWeight := total })

/-- A route keeps its place and its pool; only an added one is checked for a weight. -/
def updateStakeRoute (index : Nat) (active : Bool) (weightBps : UInt16) (c : Splitter) : Except Refusal Splitter := do
  onlyRole m .feeManager
  match c.world.state.stakeRoutes[index]? with
  | none => .error .routeIndexOutOfBounds
  | some r =>
    let rest ← subU (.reverted .underflow) c.world.state.totalStakeWeight r.weightBps
    let total ← addU (.reverted .overflow) rest weightBps.toNat
    .ok (c.write { c.world.state with
      stakeRoutes := c.world.state.stakeRoutes.set index { r with active := active, weightBps := weightBps.toNat }
      totalStakeWeight := total })

def setFeeToStake (bps : UInt16) (c : Splitter) : Except Refusal Splitter := do
  onlyRole m .feeManager
  revertIf (bps.toNat < minFeeToStakeBps ∨ maxFeeToStakeBps < bps.toNat) .invalidFeeToStake
  .ok (c.write { c.world.state with feeToStakeBps := bps.toNat })

def withWallet (a : Address) (s : State) : Wallet → State
  | .bbb => { s with bbbWallet := a }
  | .get => { s with getWallet := a }
  | .staker => { s with stakerVault := a }
  | .treasury => { s with treasuryWallet := a }

/-- `setBBBWallet`, `setGETWallet`, `setStakerVault` and `setTreasuryWallet`. -/
def setWallet (wallet : Wallet) (a : Address) (c : Splitter) : Except Refusal Splitter := do
  onlyRole m .defaultAdmin
  revertIf (a = 0) .zeroAddress
  .ok (c.write (withWallet a c.world.state wallet))

def setStakePool (a : Address) (c : Splitter) : Except Refusal Splitter := do
  onlyRole m .defaultAdmin
  .ok (c.write { c.world.state with stakePool := a })

def pause (c : Splitter) : Except Refusal Splitter := do
  onlyRole m .defaultAdmin
  revertIf c.world.state.paused (.reverted .enforcedPause)
  .ok (c.write { c.world.state with paused := true })

def unpause (c : Splitter) : Except Refusal Splitter := do
  onlyRole m .defaultAdmin
  revertIf (c.world.state.paused = false) .expectedPause
  .ok (c.write { c.world.state with paused := false })

def execConfig : ConfigCall → Splitter → Except Refusal Splitter
  | .setSplit bbb get staker treasury, c => setSplit m bbb get staker treasury c
  | .setSubSplits incentives lpBoost grants, c => setSubSplits m incentives lpBoost grants c
  | .volumeTriggeredBoost multiplier, c => volumeTriggeredBoost m multiplier c
  | .setDynamicBoostEnabled enabled, c => setDynamicBoostEnabled m enabled c
  | .addStakeRoute pool chainId label weightBps, c => addStakeRoute m pool chainId label weightBps c
  | .updateStakeRoute index active weightBps, c => updateStakeRoute m index active weightBps c
  | .setFeeToStake bps, c => setFeeToStake m bps c
  | .setWallet wallet a, c => setWallet m wallet a c
  | .setStakePool a, c => setStakePool m a c
  | .pause, c => pause m c
  | .unpause, c => unpause m c

end Config

/-! ## Token fees -/

/-- A token fee tagged `THETA_NATIVE` counts as a fee of the period. -/
def countTokenFee (providerTag amount : Nat) (s : State) : Except Revert State := do
  if providerTag = providerTagThetaNative then
    let native ← addU .overflow s.thetaNativeFeesSinceReset amount
    let lifetime ← addU .overflow s.totalThetaNativeFees amount
    let total ← addU .overflow s.totalFeesSinceReset amount
    .ok { s with
      thetaNativeFeesSinceReset := native
      totalThetaNativeFees := lifetime
      totalFeesSinceReset := total }
  else .ok s

/-- The token is the caller's choice: its `transferFrom` answers, and calls back, as it likes. -/
def receiveERC20Fee (circuitId : Word) (token : Address) (amount providerTag : Nat) (r : Reply) (c : Splitter) :
    Except Refusal Splitter := do
  revertIf c.world.state.paused (.reverted .enforcedPause)
  revertIf (token = 0) .zeroToken
  revertIf (amount = 0) (.reverted .zeroAmount)
  let w ← pull play .erc20TransferFailed (.erc20 token) r amount c.world
  let held ← addU (.reverted .overflow) (c.erc20Balances token) amount
  let fees ← addU (.reverted .overflow) (c.circuitErc20Fees circuitId token) amount
  let collected ← addU (.reverted .overflow) (c.totalErc20Collected token) amount
  let s ← (countTokenFee providerTag amount w.state).mapError .reverted
  .ok { c with
    world := w.write s
    erc20Balances := update c.erc20Balances token held
    circuitErc20Fees := update c.circuitErc20Fees circuitId (update (c.circuitErc20Fees circuitId) token fees)
    totalErc20Collected := update c.totalErc20Collected token collected }

/-! ## Runs -/

inductive Op where
  | call (tx : Tx)
  | config (m : Msg) (call : ConfigCall)
  | receiveERC20Fee (circuitId : Word) (token : Address) (amount providerTag : Nat) (reply : Reply)
  | forced (value : Nat)

def execOp (c : Splitter) : Op → Except Refusal Splitter
  | .call tx => do
      let w ← (exec tx c.world).mapError .reverted
      .ok { c with world := w }
  | .config m call => execConfig m call c
  | .receiveERC20Fee circuitId token amount tag reply => receiveERC20Fee circuitId token amount tag reply c
  | .forced value => .ok { c with world := c.world.credit .native value }

/-- What reverts changes nothing. -/
def stepOp (c : Splitter) (op : Op) : Splitter :=
  match execOp c op with
  | .ok c' => c'
  | .error _ => c

def runOps (c : Splitter) (ops : List Op) : Splitter := Trace.run stepOp c ops

/-! ## What the configuration calls write -/

/-- The fields only a configuration call writes. -/
structure Settings where
  paused : Bool
  bbbBps : Nat
  getBps : Nat
  stakerBps : Nat
  incentivesBps : Nat
  lpBoostBps : Nat
  feeToStakeBps : Nat
  dynamicBoostEnabled : Bool
  bbbWallet : Address
  getWallet : Address
  stakerVault : Address
  treasuryWallet : Address
  stakePool : Address
  stakeRoutes : List StakeRoute
  totalStakeWeight : Nat

def settings (s : State) : Settings where
  paused := s.paused
  bbbBps := s.bbbBps
  getBps := s.getBps
  stakerBps := s.stakerBps
  incentivesBps := s.incentivesBps
  lpBoostBps := s.lpBoostBps
  feeToStakeBps := s.feeToStakeBps
  dynamicBoostEnabled := s.dynamicBoostEnabled
  bbbWallet := s.bbbWallet
  getWallet := s.getWallet
  stakerVault := s.stakerVault
  treasuryWallet := s.treasuryWallet
  stakePool := s.stakePool
  stakeRoutes := s.stakeRoutes
  totalStakeWeight := s.totalStakeWeight

/-- The fields a call back does not reach. -/
structure Ledger where
  boostMultiplier : Nat
  grantPoolBalance : Nat
  totalDistributed : Nat
  totalTreasury : Nat
  totalFeeToStake : Nat
  totalIncentivesDistributed : Nat
  totalLPBoostDistributed : Nat
  totalGrantsDistributed : Nat
  monthlyVolume : Nat
  chainStakeTotal : Nat → Nat

def ledger (s : State) : Ledger where
  boostMultiplier := s.boostMultiplier
  grantPoolBalance := s.grantPoolBalance
  totalDistributed := s.totalDistributed
  totalTreasury := s.totalTreasury
  totalFeeToStake := s.totalFeeToStake
  totalIncentivesDistributed := s.totalIncentivesDistributed
  totalLPBoostDistributed := s.totalLPBoostDistributed
  totalGrantsDistributed := s.totalGrantsDistributed
  monthlyVolume := s.monthlyVolume
  chainStakeTotal := s.chainStakeTotal

def totalWeight (routes : List StakeRoute) : Nat := (routes.map (·.weightBps)).sum

/-- What the checks of the configuration calls are there for. -/
structure Settings.Valid (c : Settings) : Prop where
  split : c.bbbBps + c.getBps + c.stakerBps ≤ totalBps
  subSplit : c.incentivesBps + c.lpBoostBps ≤ totalBps
  feeToStake : c.feeToStakeBps ≤ maxFeeToStakeBps
  weights : c.totalStakeWeight = totalWeight c.stakeRoutes
  pools : ∀ r ∈ c.stakeRoutes, r.pool ≠ 0
  weightsFit : ∀ r ∈ c.stakeRoutes, r.weightBps < 2 ^ 16
  bbbWallet : c.bbbWallet ≠ 0
  getWallet : c.getWallet ≠ 0
  stakerVault : c.stakerVault ≠ 0
  treasuryWallet : c.treasuryWallet ≠ 0

/-- **CONFIGURED**: valid settings, a boost in its range, and no more native fees than fees. -/
structure Configured (s : State) : Prop where
  valid : (settings s).Valid
  minBoost : minBoost ≤ s.boostMultiplier
  maxBoost : s.boostMultiplier ≤ maxBoost
  native : s.thetaNativeFeesSinceReset ≤ s.totalFeesSinceReset

/-- Nothing that `Configured` speaks about changes. -/
structure SamePolicy (s s' : State) : Prop where
  settings : settings s' = settings s
  boost : s'.boostMultiplier = s.boostMultiplier
  native : s'.thetaNativeFeesSinceReset = s.thetaNativeFeesSinceReset
  total : s'.totalFeesSinceReset = s.totalFeesSinceReset

variable {admin : Address} {routes : List StakeRoute} {balance boost chainId escrowId index now tag value : Nat}
  {parts : Shares} {c c' : Splitter} {s s' : State} {weightBps : UInt16} {wallets : Wallets} {circuitId taskId : Word}
  {w : World}

theorem Configured.settle (h : Configured s) (hvalid : (settings s').Valid)
    (hboost : s'.boostMultiplier = s.boostMultiplier)
    (hnative : s'.thetaNativeFeesSinceReset = s.thetaNativeFeesSinceReset)
    (htotal : s'.totalFeesSinceReset = s.totalFeesSinceReset) : Configured s' := by
  refine ⟨hvalid, ?_, ?_, ?_⟩
  · rw [hboost]
    exact h.minBoost
  · rw [hboost]
    exact h.maxBoost
  · rw [hnative, htotal]
    exact h.native

theorem Configured.same (h : Configured s) (hsame : SamePolicy s s') : Configured s' := by
  refine h.settle ?_ hsame.boost hsame.native hsame.total
  rw [hsame.settings]
  exact h.valid

/-! ## Calls made back -/

variable {m : Msg} {replies : Replies}

/-- What a call counts as a fee of the period. -/
def counted : OpenCall → Nat
  | .depositFee value _ => value
  | .depositFeeWithTag value _ _ => value
  | .tagFeeOrigin _ _ amount => amount
  | _ => 0

/-- What of it the call tags `THETA_NATIVE`. -/
def countedNative : OpenCall → Nat
  | .depositFeeWithTag value _ tag => if tag = providerTagThetaNative then value else 0
  | .tagFeeOrigin _ tag amount => if tag = providerTagThetaNative then amount else 0
  | _ => 0

theorem countedNative_le (call : OpenCall) : countedNative call ≤ counted call := by
  cases call with
  | depositFeeWithTag | tagFeeOrigin =>
    rw [countedNative, counted]
    split <;> omega
  | _ => exact Nat.zero_le _

/-- A call that counts `fees` as fees, `tagged` of them as native. -/
structure Counts (s s' : State) (fees tagged : Nat) : Prop where
  settings : settings s' = settings s
  ledger : ledger s' = ledger s
  total : s'.totalFeesSinceReset = s.totalFeesSinceReset + fees
  native : s'.thetaNativeFeesSinceReset = s.thetaNativeFeesSinceReset + tagged

theorem Counts.configured {fees tagged : Nat} (h : Counts s s' fees tagged) (hle : tagged ≤ fees) (hs : Configured s) :
    Configured s' := by
  have hboost : s'.boostMultiplier = s.boostMultiplier := congrArg Ledger.boostMultiplier h.ledger
  refine ⟨?_, ?_, ?_, ?_⟩
  · rw [h.settings]
    exact hs.valid
  · rw [hboost]
    exact hs.minBoost
  · rw [hboost]
    exact hs.maxBoost
  · have := hs.native
    rw [h.native, h.total]
    omega

theorem countNative_counts {amount : Nat} (h : countNative tag amount s = .ok s') :
    Counts s s' 0 (if tag = providerTagThetaNative then amount else 0) := by
  rw [countNative] at h
  split at h
  · rename_i htag
    obtain ⟨native, hnative, h⟩ := bind_iff.mp h
    obtain ⟨lifetime, -, h⟩ := bind_iff.mp h
    cases h
    rw [if_pos htag]
    exact ⟨rfl, rfl, rfl, (addU_ok_iff.mp hnative).2⟩
  · rename_i htag
    cases h
    rw [if_neg htag]
    exact ⟨rfl, rfl, rfl, rfl⟩

theorem depositFee_counts (h : depositFee value circuitId s = .ok s') : Counts s s' value 0 := by
  rw [depositFee, guarded_iff, guarded_iff, bind_iff] at h
  obtain ⟨-, -, collected, -, h⟩ := h
  obtain ⟨fees, -, h⟩ := bind_iff.mp h
  obtain ⟨total, htotal, h⟩ := bind_iff.mp h
  cases h
  exact ⟨rfl, rfl, (addU_ok_iff.mp htotal).2, rfl⟩

theorem tagFeeOrigin_counts {amount : Nat} (h : tagFeeOrigin tag amount s = .ok s') :
    Counts s s' amount (if tag = providerTagThetaNative then amount else 0) := by
  rw [tagFeeOrigin, guarded_iff, guarded_iff, bind_iff] at h
  obtain ⟨-, -, total, htotal, h⟩ := h
  have hrest := countNative_counts h
  exact ⟨hrest.settings, hrest.ledger, hrest.total.trans (addU_ok_iff.mp htotal).2, hrest.native⟩

/-- **COUNTED**: what a call without the guard does to the fees of the period. -/
theorem execState_counts {call : OpenCall} :
    Ensures (fun s' => Counts s s' (counted call) (countedNative call)) (execState m call s) := by
  cases call with
  | receive value => exact ensures_skip fun _ => ensures_ok ⟨rfl, rfl, rfl, rfl⟩
  | depositFee value circuitId => exact fun s' h => depositFee_counts h
  | depositFeeWithTag value circuitId tag =>
    intro s' h
    obtain ⟨mid, hmid, h⟩ := bind_iff.mp h
    have hdeposit := depositFee_counts hmid
    have htag := countNative_counts h
    refine ⟨htag.settings.trans hdeposit.settings, htag.ledger.trans hdeposit.ledger,
      htag.total.trans hdeposit.total, ?_⟩
    rw [htag.native, hdeposit.native]
    rfl
  | tagFeeOrigin circuitId tag amount => exact fun s' h => tagFeeOrigin_counts h
  | createDeferredClaim value claimant nullifier delay =>
    rw [execState, createDeferredClaim]
    iterate 7 refine ensures_skip fun _ => ?_
    exact ensures_ok ⟨rfl, rfl, rfl, rfl⟩
  | agentGrantProposal proposalId amount recipient =>
    rw [execState, agentGrantProposal]
    iterate 6 refine ensures_skip fun _ => ?_
    exact ensures_ok ⟨rfl, rfl, rfl, rfl⟩
  | voteGrant index support =>
    rw [execState, voteGrant]
    iterate 5 refine ensures_skip fun _ => ?_
    exact ensures_ok ⟨rfl, rfl, rfl, rfl⟩

/-- What a call back leaves as it was. -/
structure Untouched (s s' : State) : Prop where
  settings : settings s' = settings s
  ledger : ledger s' = ledger s

theorem Untouched.refl (s : State) : Untouched s s := ⟨rfl, rfl⟩

theorem Untouched.trans {t u : State} (h1 : Untouched s t) (h2 : Untouched t u) : Untouched s u :=
  ⟨h2.settings.trans h1.settings, h2.ledger.trans h1.ledger⟩

theorem play_leaves (w : World) (n : Msg × OpenCall) :
    (Configured w.state → Configured (play w n).state) ∧ Untouched w.state (play w n).state := by
  rw [play]
  split
  · rename_i w' h
    rw [execOpen, bind_iff] at h
    obtain ⟨s, hs, h⟩ := h
    cases h
    have hcounts := execState_counts s hs
    exact ⟨hcounts.configured (countedNative_le n.2), hcounts.settings, hcounts.ledger⟩
  · exact ⟨id, .refl _⟩

theorem calls_untouched (w : World) (calls : List (Msg × OpenCall)) :
    Untouched w.state (Trace.run play w calls).state :=
  Trace.run_invariant (fun w' : World => Untouched w.state w'.state) calls (.refl _)
    fun w' n h => h.trans (play_leaves w' n).2

theorem calls_configured {w : World} (calls : List (Msg × OpenCall)) (h : Configured w.state) :
    Configured (Trace.run play w calls).state :=
  Trace.run_invariant (fun w' : World => Configured w'.state) calls h fun w' n => (play_leaves w' n).1

variable {r : Reply} {dst : Address} {amount : Nat} {label : String}

theorem safeTransfer_configured {w : World} (h : Configured w.state) :
    Ensures (fun w' : World => Configured w'.state) (safeTransfer dst r amount label w) := by
  intro w' hw'
  rw [safeTransfer] at hw'
  split at hw'
  · cases hw'
    exact h
  · obtain ⟨-, -, rfl⟩ := send_ok_iff.mp hw'
    exact calls_configured r.calls h

/-! ## Transactions -/

/-- Every transaction leaves the state configured, for then each call back in it did. -/
abbrev Keeps (x : Except Revert World) : Prop := Ensures (fun w' : World => Configured w'.state) x

theorem paid_keeps (hw : Configured w.state) (hsame : SamePolicy w.state s) :
    Keeps (safeTransfer dst r amount label (w.write s)) :=
  safeTransfer_configured (hw.same hsame)

theorem stakeShare_keeps (h : Configured w.state) : Keeps (stakeShare chainId dst r amount label w) := by
  rw [stakeShare]
  exact ensures_skip fun total => paid_keeps h ⟨rfl, rfl, rfl, rfl⟩

theorem routeLoop_keeps {i distributed : Nat} (h : Configured w.state) :
    Keeps (routeLoop replies amount routes i distributed w) := by
  induction routes generalizing i distributed w with
  | nil => exact ensures_ok h
  | cons route rest ih =>
    rw [routeLoop]
    refine ensures_ite (ih h) (ensures_skip fun share => ensures_ite ?_ (ih h))
    exact ensures_bind (stakeShare_keeps h) fun w' hw' => ih hw'

theorem routeStake_keeps (h : Configured w.state) : Keeps (routeStake m replies amount w) := by
  rw [routeStake]
  refine ensures_ite (routeLoop_keeps h) (ensures_ite (stakeShare_keeps h) (ensures_skip fun total => ?_))
  exact paid_keeps h ⟨rfl, rfl, rfl, rfl⟩

/-- The boost is interpolated between its bounds. -/
theorem computeBoost_range (hs : Configured s) (h : computeBoost s = .ok boost) :
    minBoost ≤ boost ∧ boost ≤ maxBoost := by
  rw [computeBoost] at h
  split at h
  · cases h
    exact ⟨hs.minBoost, hs.maxBoost⟩
  · obtain ⟨scaled, -, h⟩ := bind_iff.mp h
    obtain ⟨extra, -, h⟩ := bind_iff.mp h
    obtain ⟨b, hb, h⟩ := bind_iff.mp h
    obtain ⟨-, rfl⟩ := addU_ok_iff.mp hb
    have hrange : minBoost ≤ maxBoost := by decide
    cases h
    split
    · exact ⟨hrange, Nat.le_refl _⟩
    · exact ⟨Nat.le_add_right _ _, by omega⟩

/-- The product of the boost fits, where one is computed. -/
def TagsFit (s : State) : Prop :=
  s.dynamicBoostEnabled = true → 0 < s.totalFeesSinceReset → s.thetaNativeFeesSinceReset * totalBps < 2 ^ 256

theorem ratio_le (hs : Configured s) (htotal : 0 < s.totalFeesSinceReset) :
    s.thetaNativeFeesSinceReset * totalBps / s.totalFeesSinceReset ≤ totalBps := by
  rw [Nat.div_le_iff_le_mul_add_pred htotal]
  have := Nat.mul_le_mul_right totalBps hs.native
  omega

/-- The boost fails only where the native fees do not fit. -/
theorem computeBoost_yields {P : Revert → Prop} {s : State} (hs : Configured s) (hfull : ¬ TagsFit s → P .overflow) :
    Yields (fun boost => computeBoost s = .ok boost) P (computeBoost s) := by
  cases h : computeBoost s with
  | ok boost => exact rfl
  | error e =>
    rw [computeBoost] at h
    split at h
    · cases h
    · rename_i hdynamic
      rw [not_or, Bool.not_eq_false, ← ne_eq, ← Nat.pos_iff_ne_zero] at hdynamic
      have hratio := ratio_le hs hdynamic.2
      have hyields : Yields (fun _ => True) P (do
          let scaled ← mulU .overflow s.thetaNativeFeesSinceReset totalBps
          let ratioBps := scaled / s.totalFeesSinceReset
          let extra ← mulU .overflow (maxBoost - minBoost) ratioBps
          let boost ← addU .overflow minBoost (extra / totalBps)
          .ok (if maxBoost < boost then maxBoost else boost)) := by
        refine yields_bind (yields_mulU_full fun hlarge => ?_) fun scaled hscaled => ?_
        · exact hfull fun hfit => absurd (hfit hdynamic.1 hdynamic.2) (by omega)
        · rw [hscaled]
          generalize s.thetaNativeFeesSinceReset * totalBps / s.totalFeesSinceReset = ratio at hratio ⊢
          -- The ratio is at most 10000, so these two are small.
          rw [totalBps] at hratio ⊢
          rw [minBoost, maxBoost]
          refine yields_bind (yields_mulU_full fun hlarge => by omega) fun extra hextra => ?_
          refine yields_bind (yields_addU_full fun hlarge => by omega) fun boost _ => trivial
      exact hyields.raises e h

/-- What a distribution records: the boost it used, and a new period. -/
structure Recorded (s s' : State) (balance boost : Nat) (parts : Shares) : Prop where
  settings : settings s' = settings s
  boost : s'.boostMultiplier = boost
  native : s'.thetaNativeFeesSinceReset = 0
  total : s'.totalFeesSinceReset = 0
  totalTreasury : s'.totalTreasury = s.totalTreasury + parts.treasuryAmount
  chainStakeTotal : s'.chainStakeTotal = s.chainStakeTotal
  grantPoolBalance : s'.grantPoolBalance = s.grantPoolBalance + parts.grantsAmount
  totalIncentives : s'.totalIncentivesDistributed = s.totalIncentivesDistributed + parts.incentivesAmount
  totalLPBoost : s'.totalLPBoostDistributed = s.totalLPBoostDistributed + parts.lpBoostAmount
  totalGrants : s'.totalGrantsDistributed = s.totalGrantsDistributed + parts.grantsAmount

/-- The counters after a distribution. -/
def recordedCounters (balance : Nat) (parts : Shares) (s : State) : List Nat := [
  s.distributionCount + 1, s.grantPoolBalance + parts.grantsAmount, s.totalDistributed + balance,
  s.totalBBB + parts.bbbAmount, s.totalGET + parts.getAmount, s.totalStaker + parts.stakerAmount,
  s.totalTreasury + parts.treasuryAmount, s.totalFeeToStake + parts.feeToStakeAmount,
  s.totalIncentivesDistributed + parts.incentivesAmount, s.totalLPBoostDistributed + parts.lpBoostAmount,
  s.totalGrantsDistributed + parts.grantsAmount, s.monthlyVolume + balance]

/-- Recording fails only where a counter is full. -/
theorem recordShares_yields {P : Revert → Prop} {balance boost : Nat} {parts : Shares} {s : State}
    (hfull : (¬ ∀ x ∈ recordedCounters balance parts s, x < 2 ^ 256) → P .overflow) :
    Yields (fun s' => Recorded s s' balance boost parts) P (recordShares m balance boost parts s) := by
  have hadd : ∀ a b, a + b ∈ recordedCounters balance parts s →
      Yields (fun c => c = a + b) P (addU .overflow a b) := by
    intro a b hmem
    refine yields_addU_full fun hlarge => hfull fun hall => ?_
    have := hall _ hmem
    omega
  simp only [recordedCounters, List.mem_cons, List.not_mem_nil, or_false] at hadd
  rw [recordShares]
  refine yields_bind (hadd _ _ (by simp)) fun count _ => ?_
  refine yields_bind (hadd _ _ (by simp)) fun pool hpool => ?_
  refine yields_bind (hadd _ _ (by simp)) fun distributed _ => ?_
  refine yields_bind (hadd _ _ (by simp)) fun bbb _ => ?_
  refine yields_bind (hadd _ _ (by simp)) fun get _ => ?_
  refine yields_bind (hadd _ _ (by simp)) fun staker _ => ?_
  refine yields_bind (hadd _ _ (by simp)) fun treasury htreasury => ?_
  refine yields_bind (hadd _ _ (by simp)) fun stake _ => ?_
  refine yields_bind (hadd _ _ (by simp)) fun incentives hincentives => ?_
  refine yields_bind (hadd _ _ (by simp)) fun lpBoost hlpBoost => ?_
  refine yields_bind (hadd _ _ (by simp)) fun grants hgrants => ?_
  refine yields_bind (hadd _ _ (by simp)) fun volume _ => ?_
  exact ⟨rfl, rfl, rfl, rfl, htreasury, rfl, hpool, hincentives, hlpBoost, hgrants⟩

theorem recordShares_recorded (h : recordShares m balance boost parts s = .ok s') : Recorded s s' balance boost parts :=
  (@recordShares_yields m (fun _ => True) balance boost parts s fun _ => trivial).ok h

theorem Recorded.configured (h : Recorded s s' balance boost parts) (hs : Configured s)
    (hboost : computeBoost s = .ok boost) : Configured s' := by
  have hrange := computeBoost_range hs hboost
  refine ⟨?_, ?_, ?_, ?_⟩
  · rw [h.settings]
    exact hs.valid
  · rw [h.boost]
    exact hrange.1
  · rw [h.boost]
    exact hrange.2
  · rw [h.native, h.total]

theorem distribute_keeps (hw : Configured w.state) : Keeps (distribute m replies w) := by
  intro w' h
  rw [distribute, guarded_iff, guarded_iff, bind_iff] at h
  obtain ⟨-, -, boost, hboost, h⟩ := h
  obtain ⟨parts, -, h⟩ := bind_iff.mp h
  obtain ⟨s, hs, h⟩ := bind_iff.mp h
  have hrecorded : Configured (w.write s).state := (recordShares_recorded hs).configured hw hboost
  obtain ⟨w1, h1, h⟩ := bind_iff.mp h
  obtain ⟨w2, h2, h⟩ := bind_iff.mp h
  obtain ⟨w3, h3, h⟩ := bind_iff.mp h
  obtain ⟨w4, h4, h⟩ := bind_iff.mp h
  have h1 := safeTransfer_configured hrecorded w1 h1
  have h2 := safeTransfer_configured h1 w2 h2
  have h3 := safeTransfer_configured h2 w3 h3
  have h4 := safeTransfer_configured h3 w4 h4
  split at h
  · exact routeStake_keeps h4 w' h
  · cases h
    exact h4

theorem collectFee_policy {protocolFee : Nat} : Ensures (SamePolicy s) (collectFee protocolFee taskId s) := by
  rw [collectFee]
  refine ensures_ite ?_ (ensures_ok ⟨rfl, rfl, rfl, rfl⟩)
  exact ensures_skip fun collected => ensures_skip fun fees => ensures_ok ⟨rfl, rfl, rfl, rfl⟩

section

variable (hw : Configured w.state)
include hw

theorem claimEscrow_keeps {claimAmount : Nat} : Keeps (claimEscrow m replies escrowId claimAmount w) := by
  rw [claimEscrow]
  iterate 8 refine ensures_skip fun _ => ?_
  refine ensures_bind (paid_keeps hw ⟨rfl, rfl, rfl, rfl⟩) fun w1 h1 => ensures_bind collectFee_policy fun s hs => ?_
  refine ensures_skip fun remainder => ensures_bind (paid_keeps h1 hs) fun w2 h2 => ?_
  exact ensures_skip fun total => ensures_ok (h2.same ⟨rfl, rfl, rfl, rfl⟩)

theorem refundEscrow_keeps : Keeps (refundEscrow m replies escrowId w) := by
  rw [refundEscrow]
  iterate 4 refine ensures_skip fun _ => ?_
  refine ensures_bind (paid_keeps hw ⟨rfl, rfl, rfl, rfl⟩) fun w1 h1 => ?_
  exact ensures_skip fun total => ensures_ok (h1.same ⟨rfl, rfl, rfl, rfl⟩)

theorem executeDeferredClaim_keeps {claimId : Nat} : Keeps (executeDeferredClaim m replies claimId w) := by
  rw [executeDeferredClaim]
  iterate 4 refine ensures_skip fun _ => ?_
  have hdeferred : Ensures (SamePolicy w.state) (markExecuted claimId w.state) :=
    ensures_skip fun deferred => ensures_ok ⟨rfl, rfl, rfl, rfl⟩
  refine ensures_bind hdeferred fun s hs => ensures_skip fun scaled => ensures_skip fun claimantAmount => ?_
  refine ensures_bind (paid_keeps hw hs) fun w1 h1 => ensures_skip fun collected => ensures_skip fun total => ?_
  exact ensures_ok (h1.same ⟨rfl, rfl, rfl, rfl⟩)

theorem claimGrant_keeps : Keeps (claimGrant m replies index w) := by
  rw [claimGrant]
  iterate 3 refine ensures_skip fun _ => ?_
  refine ensures_ite (ensures_ok (hw.same ⟨rfl, rfl, rfl, rfl⟩)) (ensures_skip fun _ => ensures_skip fun _ => ?_)
  have hpool : Ensures (SamePolicy w.state) (markGranted m index w.state) :=
    ensures_skip fun pool => ensures_ok ⟨rfl, rfl, rfl, rfl⟩
  exact ensures_bind hpool fun s hs => paid_keeps hw hs

theorem createEscrow_keeps {maxAmount duration : Nat} {payee : Address} :
    Keeps (createEscrow m value payee maxAmount taskId duration w) := by
  rw [createEscrow]
  iterate 7 refine ensures_skip fun _ => ?_
  exact ensures_ok (hw.same ⟨rfl, rfl, rfl, rfl⟩)

/-- **TRANSACTIONS**: none of them leaves the configuration out of order. -/
theorem exec_keeps {tx : Tx} : Keeps (exec tx w) := by
  rw [exec]
  cases tx.call with
  | distribute => exact distribute_keeps hw
  | createEscrow value payee maxAmount taskId duration => exact createEscrow_keeps hw
  | claimEscrow escrowId claimAmount => exact claimEscrow_keeps hw
  | refundEscrow escrowId => exact refundEscrow_keeps hw
  | executeDeferredClaim claimId => exact executeDeferredClaim_keeps hw
  | claimGrant index => exact claimGrant_keeps hw
  | openCall call =>
    intro w' h
    have hplay := (play_leaves w (tx.msg, call)).1 hw
    rw [play] at hplay
    simp only at h
    rw [h] at hplay
    exact hplay

end

/-! ## Configuration calls -/

theorem totalWeight_append (routes : List StakeRoute) (r : StakeRoute) :
    totalWeight (routes ++ [r]) = totalWeight routes + r.weightBps := by
  rw [totalWeight, List.map_append, List.sum_append, List.map_singleton, List.sum_singleton]
  rfl

/-- The old weight goes, the new one comes. -/
theorem totalWeight_set {old : StakeRoute} (new : StakeRoute) (h : routes[index]? = some old) :
    totalWeight (routes.set index new) + old.weightBps = totalWeight routes + new.weightBps := by
  induction routes generalizing index with
  | nil => cases h
  | cons r rest ih =>
    cases index with
    | zero =>
      obtain rfl := Option.some.inj h
      show new.weightBps + totalWeight rest + r.weightBps = r.weightBps + totalWeight rest + new.weightBps
      omega
    | succ index =>
      have hrest := @ih index h
      show r.weightBps + totalWeight (rest.set index new)
        + old.weightBps = r.weightBps + totalWeight rest + new.weightBps
      omega

theorem addU16_ok_iff {a b c : Nat} : addU16 a b = .ok c ↔ a + b < 2 ^ 16 ∧ c = a + b := by
  rw [addU16, ite_error_ok_iff, Nat.not_le, Except.ok.injEq, eq_comm]

section

variable (hc : Configured c.world.state)
include hc

theorem setSplit_keeps {bbb get staker treasury : UInt16}
    (h : setSplit m bbb get staker treasury c = .ok c') : Configured c'.world.state := by
  rw [setSplit, onlyRole, guarded_iff, bind_iff] at h
  obtain ⟨-, two, htwo, h⟩ := h
  obtain ⟨three, hthree, h⟩ := bind_iff.mp h
  obtain ⟨all, hall, h⟩ := bind_iff.mp h
  obtain ⟨hsum, h⟩ := guarded_iff.mp h
  cases h
  obtain ⟨-, rfl⟩ := addU16_ok_iff.mp htwo
  obtain ⟨-, rfl⟩ := addU16_ok_iff.mp hthree
  obtain ⟨-, rfl⟩ := addU16_ok_iff.mp hall
  have hsplit : bbb.toNat + get.toNat + staker.toNat ≤ totalBps := by
    have := not_not.mp hsum
    omega
  exact hc.settle { hc.valid with split := hsplit } rfl rfl rfl

theorem setSubSplits_keeps {incentives lpBoost grants : UInt16}
    (h : setSubSplits m incentives lpBoost grants c = .ok c') : Configured c'.world.state := by
  rw [setSubSplits, adminOrGovernance, guarded_iff, bind_iff] at h
  obtain ⟨-, two, htwo, h⟩ := h
  obtain ⟨all, hall, h⟩ := bind_iff.mp h
  obtain ⟨hsum, h⟩ := guarded_iff.mp h
  cases h
  obtain ⟨-, rfl⟩ := addU16_ok_iff.mp htwo
  obtain ⟨-, rfl⟩ := addU16_ok_iff.mp hall
  have hsplit : incentives.toNat + lpBoost.toNat ≤ totalBps := by
    have := not_not.mp hsum
    omega
  exact hc.settle { hc.valid with subSplit := hsplit } rfl rfl rfl

theorem volumeTriggeredBoost_keeps {multiplier : UInt16}
    (h : volumeTriggeredBoost m multiplier c = .ok c') : Configured c'.world.state := by
  rw [volumeTriggeredBoost, onlyRole, guarded_iff, guarded_iff] at h
  obtain ⟨-, hrange, h⟩ := h
  rw [not_or, Nat.not_lt, Nat.not_lt] at hrange
  split at h
  · cases h
    exact ⟨hc.valid, hrange.1, hrange.2, hc.native⟩
  · cases h
    exact ⟨hc.valid, hrange.1, hrange.2, hc.native⟩

theorem addStakeRoute_keeps {pool : Address} {label : String}
    (h : addStakeRoute m pool chainId label weightBps c = .ok c') : Configured c'.world.state := by
  rw [addStakeRoute, onlyRole, guarded_iff, guarded_iff, bind_iff] at h
  obtain ⟨-, hroute, total, htotal, h⟩ := h
  cases h
  obtain ⟨-, rfl⟩ := addU_ok_iff.mp htotal
  rw [not_or] at hroute
  refine hc.settle { hc.valid with weights := ?_, pools := ?_, weightsFit := ?_ } rfl rfl rfl
  · have hweights : c.world.state.totalStakeWeight = totalWeight c.world.state.stakeRoutes := hc.valid.weights
    show c.world.state.totalStakeWeight + weightBps.toNat = totalWeight (c.world.state.stakeRoutes ++ [_])
    rw [totalWeight_append, hweights]
  · intro r hr
    rcases List.mem_append.mp hr with hr | hr
    · exact hc.valid.pools r hr
    · rw [List.mem_singleton.mp hr]
      exact hroute.1
  · intro r hr
    rcases List.mem_append.mp hr with hr | hr
    · exact hc.valid.weightsFit r hr
    · rw [List.mem_singleton.mp hr]
      exact weightBps.toNat_lt

theorem updateStakeRoute_keeps {active : Bool}
    (h : updateStakeRoute m index active weightBps c = .ok c') : Configured c'.world.state := by
  rw [updateStakeRoute, onlyRole, guarded_iff] at h
  obtain ⟨-, h⟩ := h
  split at h
  · cases h
  · rename_i r hr
    obtain ⟨rest, hrest, h⟩ := bind_iff.mp h
    obtain ⟨total, htotal, h⟩ := bind_iff.mp h
    cases h
    obtain ⟨hle, rfl⟩ := subU_ok_iff.mp hrest
    obtain ⟨-, rfl⟩ := addU_ok_iff.mp htotal
    refine hc.settle { hc.valid with weights := ?_, pools := ?_, weightsFit := ?_ } rfl rfl rfl
    · have hset : totalWeight (c.world.state.stakeRoutes.set index
        { r with active := active, weightBps := weightBps.toNat })
          + r.weightBps = totalWeight c.world.state.stakeRoutes + weightBps.toNat := totalWeight_set _ hr
      have hweights : c.world.state.totalStakeWeight = totalWeight c.world.state.stakeRoutes := hc.valid.weights
      show c.world.state.totalStakeWeight - r.weightBps + weightBps.toNat
        = totalWeight (c.world.state.stakeRoutes.set index _)
      omega
    · intro r' hr'
      rcases List.mem_or_eq_of_mem_set hr' with hold | hnew
      · exact hc.valid.pools r' hold
      · rw [hnew]
        exact hc.valid.pools r (List.mem_of_getElem? hr)
    · intro r' hr'
      rcases List.mem_or_eq_of_mem_set hr' with hold | hnew
      · exact hc.valid.weightsFit r' hold
      · rw [hnew]
        exact weightBps.toNat_lt

theorem setFeeToStake_keeps {bps : UInt16} (h : setFeeToStake m bps c = .ok c') : Configured c'.world.state := by
  rw [setFeeToStake, onlyRole, guarded_iff, guarded_iff] at h
  obtain ⟨-, hrange, h⟩ := h
  cases h
  rw [not_or, Nat.not_lt, Nat.not_lt] at hrange
  exact hc.settle { hc.valid with feeToStake := hrange.2 } rfl rfl rfl

theorem setWallet_keeps {wallet : Wallet} {a : Address}
    (h : setWallet m wallet a c = .ok c') : Configured c'.world.state := by
  rw [setWallet, onlyRole, guarded_iff, guarded_iff] at h
  obtain ⟨-, ha, h⟩ := h
  cases h
  cases wallet with
  | bbb => exact hc.settle { hc.valid with bbbWallet := ha } rfl rfl rfl
  | get => exact hc.settle { hc.valid with getWallet := ha } rfl rfl rfl
  | staker => exact hc.settle { hc.valid with stakerVault := ha } rfl rfl rfl
  | treasury => exact hc.settle { hc.valid with treasuryWallet := ha } rfl rfl rfl

/-- **CONFIGURATION CALLS**: each checks what it writes. -/
theorem execConfig_keeps {call : ConfigCall} (h : execConfig m call c = .ok c') : Configured c'.world.state := by
  cases call with
  | setSplit bbb get staker treasury => exact setSplit_keeps hc h
  | setSubSplits incentives lpBoost grants => exact setSubSplits_keeps hc h
  | volumeTriggeredBoost multiplier => exact volumeTriggeredBoost_keeps hc h
  | setDynamicBoostEnabled enabled =>
    rw [execConfig, setDynamicBoostEnabled, adminOrGovernance, guarded_iff] at h
    cases h.2
    exact hc.settle { hc.valid with } rfl rfl rfl
  | addStakeRoute pool chainId label weightBps => exact addStakeRoute_keeps hc h
  | updateStakeRoute index active weightBps => exact updateStakeRoute_keeps hc h
  | setFeeToStake bps => exact setFeeToStake_keeps hc h
  | setWallet wallet a => exact setWallet_keeps hc h
  | setStakePool a =>
    rw [execConfig, setStakePool, onlyRole, guarded_iff] at h
    cases h.2
    exact hc.settle { hc.valid with } rfl rfl rfl
  | pause =>
    rw [execConfig, pause, onlyRole, guarded_iff, guarded_iff] at h
    cases h.2.2
    exact hc.settle { hc.valid with } rfl rfl rfl
  | unpause =>
    rw [execConfig, unpause, onlyRole, guarded_iff, guarded_iff] at h
    cases h.2.2
    exact hc.settle { hc.valid with } rfl rfl rfl

end

/-! ## Every reachable state -/

theorem countTokenFee_counts (h : countTokenFee tag amount s = .ok s') : ∃ n, Counts s s' n n := by
  rw [countTokenFee] at h
  split at h
  · obtain ⟨native, hnative, h⟩ := bind_iff.mp h
    obtain ⟨lifetime, -, h⟩ := bind_iff.mp h
    obtain ⟨total, htotal, h⟩ := bind_iff.mp h
    cases h
    exact ⟨amount, rfl, rfl, (addU_ok_iff.mp htotal).2, (addU_ok_iff.mp hnative).2⟩
  · cases h
    exact ⟨0, rfl, rfl, rfl, rfl⟩

theorem receiveERC20Fee_keeps {token : Address} (hc : Configured c.world.state)
    (h : receiveERC20Fee circuitId token amount tag r c = .ok c') : Configured c'.world.state := by
  rw [receiveERC20Fee, guarded_iff, guarded_iff, guarded_iff, bind_iff] at h
  obtain ⟨-, -, -, w, hpull, h⟩ := h
  obtain ⟨held, -, h⟩ := bind_iff.mp h
  obtain ⟨fees, -, h⟩ := bind_iff.mp h
  obtain ⟨collected, -, h⟩ := bind_iff.mp h
  obtain ⟨s, hs, h⟩ := bind_iff.mp h
  cases h
  obtain ⟨-, rfl⟩ := pull_ok_iff.mp hpull
  have hpulled := @calls_configured (c.world.credit (.erc20 token) amount) r.calls hc
  obtain ⟨n, hcounts⟩ := countTokenFee_counts (mapError_ok_iff.mp hs)
  exact hcounts.configured (Nat.le_refl n) hpulled

theorem stepOp_configured (op : Op) (hc : Configured c.world.state) : Configured (stepOp c op).world.state := by
  rw [stepOp]
  split
  · rename_i c' h
    cases op with
    | call tx =>
      obtain ⟨w, hw, h⟩ := bind_iff.mp h
      cases h
      exact exec_keeps hc w (mapError_ok_iff.mp hw)
    | config m call => exact execConfig_keeps hc h
    | receiveERC20Fee circuitId token amount tag reply => exact receiveERC20Fee_keeps hc h
    | forced value =>
      cases h
      exact hc
  · exact hc

theorem construct_configured (h : construct admin wallets now balance = .ok c) : Configured c.world.state := by
  rw [construct, guarded_iff, guarded_iff, guarded_iff, guarded_iff, guarded_iff] at h
  obtain ⟨-, hbbb, hget, hstaker, htreasury, h⟩ := h
  cases h
  have hsplit : 3000 + 3000 + 2500 ≤ totalBps := by decide
  have hsub : 5000 + 3000 ≤ totalBps := by decide
  have hstake : 2000 ≤ maxFeeToStakeBps := by decide
  have hboost : minBoost ≤ 10000 ∧ 10000 ≤ maxBoost := by decide
  refine ⟨⟨hsplit, hsub, hstake, rfl, ?_, ?_, hbbb, hget, hstaker, htreasury⟩, hboost.1, hboost.2, Nat.le_refl 0⟩
  · intro r hr
    cases hr
  · intro r hr
    cases hr

/-- **EVERY REACHABLE STATE** is configured. -/
theorem run_configured (h : construct admin wallets now balance = .ok c) (ops : List Op) :
    Configured (runOps c ops).world.state :=
  Trace.run_invariant (fun c' : Splitter => Configured c'.world.state) ops (construct_configured h)
    fun _ op hc => stepOp_configured op hc

end RevenueConfig
