import Chit402.VeXFGovernanceProofs

/-! # Provider stakes

    `ProviderStaking`: a provider stakes tokens, asks for them back, waits
    and withdraws.  Until it does, a slasher can take from both buckets, the
    active one first.

    The token stands next to the contract and moves exactly what it is asked
    to; the treasury is one of its accounts, the contract is not.  What each
    provider staked, asked back, withdrew and lost is kept beside the
    storage. -/

namespace ProviderStaking

open ExceptFlow Solidity Function Finset

/-! ## State -/

structure Unbonding where
  amount : ℕ
  unlockAt : ℕ

structure State where
  treasury : Address
  minStake : ℕ
  unbondingPeriod : ℕ
  active : Address → ℕ
  pending : Address → Unbonding
  frozen : Address → Bool
  slashCount : Address → ℕ
  totalActiveStake : ℕ
  paused : Bool

/-- The contract and the token: `balance` is what the accounts hold, `held` what the contract does. The other fields
    are no storage of either; `donated` is what the contract got without a stake. -/
structure World where
  pool : State
  balance : Address → ℕ
  held : ℕ
  donated : ℕ
  staked : Address → ℕ
  requested : Address → ℕ
  withdrawn : Address → ℕ
  slashed : Address → ℕ

inductive Revert where
  | missingRole | enforcedPause | expectedPause | zeroAddress | zeroAmount | insufficientActiveStake
  | insufficientStakeToSlash | nothingToWithdraw | stillUnbonding | providerIsFrozen | transferFailed | panic
deriving DecidableEq

def World.put (s : State) (w : World) : World := { w with pool := s }

/-! ## The token -/

/-- `safeTransferFrom` to the contract. -/
def pullTokens (src : Address) (amount : ℕ) (approved : Bool) (w : World) : Except Revert World := do
  revertIf (approved = false ∨ w.balance src < amount) .transferFailed
  .ok { w with balance := update w.balance src (w.balance src - amount), held := w.held + amount }

/-- `safeTransfer` from the contract. -/
def pushTokens (dst : Address) (amount : ℕ) (w : World) : Except Revert World := do
  revertIf (w.held < amount) .transferFailed
  .ok { w with balance := update w.balance dst (w.balance dst + amount), held := w.held - amount }

/-- A transfer between two accounts. -/
def transfer (src dst : Address) (amount : ℕ) (w : World) : Except Revert World := do
  revertIf (w.balance src < amount) .transferFailed
  let balance := update w.balance src (w.balance src - amount)
  .ok { w with balance := update balance dst (balance dst + amount) }

/-- A transfer to the contract that is no stake. -/
def donate (src : Address) (amount : ℕ) (w : World) : Except Revert World := do
  revertIf (w.balance src < amount) .transferFailed
  .ok { w with
    balance := update w.balance src (w.balance src - amount)
    held := w.held + amount
    donated := w.donated + amount }

/-! ## Provider actions -/

section Provider

variable (sender : Address)

def stake (amount : ℕ) (approved : Bool) (w : World) : Except Revert World := do
  revertIf w.pool.paused .enforcedPause
  revertIf (amount = 0) .zeroAmount
  let w ← pullTokens sender amount approved w
  let active ← addU .panic (w.pool.active sender) amount
  let totalActiveStake ← addU .panic w.pool.totalActiveStake amount
  .ok { w with
    pool := { w.pool with active := update w.pool.active sender active, totalActiveStake := totalActiveStake }
    staked := update w.staked sender (w.staked sender + amount) }

/-- The cooldown starts again for all that is pending. -/
def requestUnstake (now amount : ℕ) (w : World) : Except Revert World := do
  revertIf w.pool.paused .enforcedPause
  revertIf (amount = 0) .zeroAmount
  let «have» := w.pool.active sender
  revertIf («have» < amount) .insufficientActiveStake
  revertIf (w.pool.frozen sender) .providerIsFrozen
  let totalActiveStake ← subU .panic w.pool.totalActiveStake amount
  let pendingAmount ← addU .panic (w.pool.pending sender).amount amount
  let unlockAt ← addU .panic now w.pool.unbondingPeriod
  .ok { w with
    pool := { w.pool with
      active := update w.pool.active sender («have» - amount)
      totalActiveStake := totalActiveStake
      pending := update w.pool.pending sender ⟨pendingAmount, unlockAt⟩ }
    requested := update w.requested sender (w.requested sender + amount) }

def withdraw (now : ℕ) (w : World) : Except Revert World := do
  revertIf (w.pool.frozen sender) .providerIsFrozen
  let u := w.pool.pending sender
  revertIf (u.amount = 0) .nothingToWithdraw
  revertIf (now < u.unlockAt) .stillUnbonding
  let w ← pushTokens sender u.amount (w.put { w.pool with pending := update w.pool.pending sender ⟨0, 0⟩ })
  .ok { w with withdrawn := update w.withdrawn sender (w.withdrawn sender + u.amount) }

end Provider

/-! ## Roles -/

/-- `totalActiveStake` after a slash: nothing is subtracted when nothing is taken. -/
def totalWithout (totalActiveStake fromActive : ℕ) : Except Revert ℕ :=
  if 0 < fromActive then subU .panic totalActiveStake fromActive else .ok totalActiveStake

/-- Active stake first, then what is pending. -/
def slash (provider : Address) (amount : ℕ) (hasRole : Bool) (w : World) : Except Revert World := do
  revertIf (hasRole = false) .missingRole
  revertIf (amount = 0) .zeroAmount
  let active := w.pool.active provider
  let pending := w.pool.pending provider
  let all ← addU .panic active pending.amount
  revertIf (all < amount) .insufficientStakeToSlash
  let fromActive := if active < amount then active else amount
  let totalActiveStake ← totalWithout w.pool.totalActiveStake fromActive
  let remainder := amount - fromActive
  let slashCount ← addU .panic (w.pool.slashCount provider) 1
  let w ← pushTokens w.pool.treasury amount (w.put { w.pool with
    active := update w.pool.active provider (active - fromActive)
    totalActiveStake := totalActiveStake
    pending := update w.pool.pending provider ⟨pending.amount - remainder, pending.unlockAt⟩
    slashCount := update w.pool.slashCount provider slashCount })
  .ok { w with slashed := update w.slashed provider (w.slashed provider + amount) }

def setFrozen (provider : Address) (frozen hasRole : Bool) (w : World) : Except Revert World := do
  revertIf (hasRole = false) .missingRole
  .ok (w.put { w.pool with frozen := update w.pool.frozen provider frozen })

def setParams (minStake unbondingPeriod : ℕ) (treasury : Address) (hasRole : Bool) (w : World) :
    Except Revert World := do
  revertIf (hasRole = false) .missingRole
  revertIf (treasury = 0) .zeroAddress
  .ok (w.put { w.pool with minStake := minStake, unbondingPeriod := unbondingPeriod, treasury := treasury })

def pause (hasRole : Bool) (w : World) : Except Revert World := do
  revertIf (hasRole = false) .missingRole
  revertIf w.pool.paused .enforcedPause
  .ok (w.put { w.pool with paused := true })

def unpause (hasRole : Bool) (w : World) : Except Revert World := do
  revertIf (hasRole = false) .missingRole
  revertIf (w.pool.paused = false) .expectedPause
  .ok (w.put { w.pool with paused := false })

/-! ## Transactions -/

inductive Call where
  | stake (amount : ℕ)
  | requestUnstake (amount : ℕ)
  | withdraw
  | slash (provider : Address) (amount : ℕ)
  | setFrozen (provider : Address) (frozen : Bool)
  | setParams (minStake unbondingPeriod : ℕ) (treasury : Address)
  | pause
  | unpause
  | transfer (dst : Address) (amount : ℕ)
  | donate (amount : ℕ)

/-- A transaction; `hasRole` says whether the sender has the role the function asks for, `approved` whether it let the
    contract take its tokens. -/
structure Tx where
  sender : Address
  timestamp : ℕ
  call : Call
  hasRole : Bool
  approved : Bool

def exec (tx : Tx) (w : World) : Except Revert World :=
  match tx.call with
  | .stake amount => stake tx.sender amount tx.approved w
  | .requestUnstake amount => requestUnstake tx.sender tx.timestamp amount w
  | .withdraw => withdraw tx.sender tx.timestamp w
  | .slash provider amount => slash provider amount tx.hasRole w
  | .setFrozen provider frozen => setFrozen provider frozen tx.hasRole w
  | .setParams minStake unbondingPeriod treasury => setParams minStake unbondingPeriod treasury tx.hasRole w
  | .pause => pause tx.hasRole w
  | .unpause => unpause tx.hasRole w
  | .transfer dst amount => transfer tx.sender dst amount w
  | .donate amount => donate tx.sender amount w

/-- A transaction that reverts changes nothing. -/
def step (w : World) (tx : Tx) : World :=
  match exec tx w with
  | .ok w' => w'
  | .error _ => w

def run (w : World) (txs : List Tx) : World := Trace.run step w txs

/-- The contract as deployed; it may have been sent tokens already. -/
def start (treasury : Address) (minStake unbondingPeriod : ℕ) (balance : Address → ℕ) (held : ℕ) : World where
  pool := {
    treasury := treasury
    minStake := minStake
    unbondingPeriod := unbondingPeriod
    active := fun _ => 0
    pending := fun _ => ⟨0, 0⟩
    frozen := fun _ => false
    slashCount := fun _ => 0
    totalActiveStake := 0
    paused := false }
  balance := balance
  held := held
  donated := held
  staked := fun _ => 0
  requested := fun _ => 0
  withdrawn := fun _ => 0
  slashed := fun _ => 0

/-! ## What a transaction does -/

/-- `amount` more in the active bucket of `u`. -/
def World.staking (u : Address) (amount : ℕ) (w : World) : World := { w with
  pool := { w.pool with
    active := update w.pool.active u (w.pool.active u + amount)
    totalActiveStake := w.pool.totalActiveStake + amount }
  balance := update w.balance u (w.balance u - amount)
  held := w.held + amount
  staked := update w.staked u (w.staked u + amount) }

/-- `amount` goes from the active to the pending bucket of `u`, which waits until `unlockAt`. -/
def World.requesting (u : Address) (amount unlockAt : ℕ) (w : World) : World := { w with
  pool := { w.pool with
    active := update w.pool.active u (w.pool.active u - amount)
    totalActiveStake := w.pool.totalActiveStake - amount
    pending := update w.pool.pending u ⟨(w.pool.pending u).amount + amount, unlockAt⟩ }
  requested := update w.requested u (w.requested u + amount) }

/-- The pending bucket of `u` is paid out. -/
def World.withdrawing (u : Address) (w : World) : World := { w with
  pool := { w.pool with pending := update w.pool.pending u ⟨0, 0⟩ }
  balance := update w.balance u (w.balance u + (w.pool.pending u).amount)
  held := w.held - (w.pool.pending u).amount
  withdrawn := update w.withdrawn u (w.withdrawn u + (w.pool.pending u).amount) }

/-- Parts of both buckets of `u` go to the treasury. -/
def World.slashing (u : Address) (fromActive remainder : ℕ) (w : World) : World := { w with
  pool := { w.pool with
    active := update w.pool.active u (w.pool.active u - fromActive)
    totalActiveStake := w.pool.totalActiveStake - fromActive
    pending := update w.pool.pending u ⟨(w.pool.pending u).amount - remainder, (w.pool.pending u).unlockAt⟩
    slashCount := update w.pool.slashCount u (w.pool.slashCount u + 1) }
  balance := update w.balance w.pool.treasury (w.balance w.pool.treasury + (fromActive + remainder))
  held := w.held - (fromActive + remainder)
  slashed := update w.slashed u (w.slashed u + (fromActive + remainder)) }

/-- The buckets are as they were. -/
structure SameBuckets (s s' : State) : Prop where
  active : s'.active = s.active
  pending : s'.pending = s.pending
  total : s'.totalActiveStake = s.totalActiveStake

/-- What a transaction that goes through does. -/
inductive Effect (tx : Tx) (w : World) : World → Prop where
  | staked (amount : ℕ) (h : amount ≤ w.balance tx.sender) : Effect tx w (w.staking tx.sender amount)
  | requested (amount : ℕ) (hcall : tx.call = .requestUnstake amount) (hactive : amount ≤ w.pool.active tx.sender)
      (htotal : amount ≤ w.pool.totalActiveStake) :
      Effect tx w (w.requesting tx.sender amount (tx.timestamp + w.pool.unbondingPeriod))
  | withdrew (hcall : tx.call = .withdraw) (hheld : (w.pool.pending tx.sender).amount ≤ w.held) :
      Effect tx w (w.withdrawing tx.sender)
  | slashed (u : Address) (fromActive remainder : ℕ) (hactive : fromActive ≤ w.pool.active u)
      (hpending : remainder ≤ (w.pool.pending u).amount) (htotal : fromActive ≤ w.pool.totalActiveStake)
      (hheld : fromActive + remainder ≤ w.held) : Effect tx w (w.slashing u fromActive remainder)
  | configured (s : State) (h : SameBuckets w.pool s) : Effect tx w (w.put s)
  | moved (dst : Address) (amount : ℕ) (h : amount ≤ w.balance tx.sender) :
      Effect tx w { w with
        balance := update (update w.balance tx.sender (w.balance tx.sender - amount)) dst
          (update w.balance tx.sender (w.balance tx.sender - amount) dst + amount) }
  | donated (amount : ℕ) (h : amount ≤ w.balance tx.sender) :
      Effect tx w { w with
        balance := update w.balance tx.sender (w.balance tx.sender - amount)
        held := w.held + amount
        donated := w.donated + amount }

variable {tx : Tx} {sender u : Address} {now amount : ℕ} {w w' : World}

variable {approved hasRole : Bool}

theorem pullTokens_ok_iff : pullTokens sender amount approved w = .ok w' ↔ approved = true ∧ amount ≤ w.balance sender
      ∧ w' = { w with balance := update w.balance sender (w.balance sender - amount), held := w.held + amount } := by
  unfold pullTokens
  simp only [bind_iff, revertIf_ok_iff, not_or, Bool.not_eq_false, Nat.not_lt, Except.ok.injEq,
    eq_comm (b := w'), exists_const,
    and_assoc]

theorem pushTokens_ok_iff {dst : Address} : pushTokens dst amount w = .ok w' ↔
    amount ≤ w.held ∧ w' = { w with balance := update w.balance dst (w.balance dst + amount), held :=
      w.held - amount } := by
  unfold pushTokens
  simp only [bind_iff, revertIf_ok_iff, Nat.not_lt, Except.ok.injEq, eq_comm (b := w'), exists_const]

theorem stake_ok (h : stake sender amount approved w = .ok w') :
    amount ≤ w.balance sender ∧ w' = w.staking sender amount := by
  unfold stake at h
  simp only [bind_iff, pullTokens_ok_iff, addU_ok_iff] at h
  obtain ⟨_, -, _, -, _, ⟨-, hbalance, rfl⟩, _, ⟨-, rfl⟩, _, ⟨-, rfl⟩, h⟩ := h
  exact ⟨hbalance, (Except.ok.inj h).symm⟩

theorem requestUnstake_ok (h : requestUnstake sender now amount w = .ok w') :
    amount ≤ w.pool.active sender ∧ amount ≤ w.pool.totalActiveStake
      ∧ w' = w.requesting sender amount (now + w.pool.unbondingPeriod) := by
  unfold requestUnstake at h
  simp only [bind_iff, revertIf_ok_iff, addU_ok_iff, subU_ok_iff, Nat.not_lt] at h
  obtain ⟨_, -, _, -, _, hactive, _, -, _, ⟨htotal, rfl⟩, _, ⟨-, rfl⟩, _, ⟨-, rfl⟩, h⟩ := h
  exact ⟨hactive, htotal, (Except.ok.inj h).symm⟩

/-- **WITHDRAWAL**: not frozen, something pending, and the time is up. -/
theorem withdraw_ok_iff : withdraw sender now w = .ok w' ↔
    w.pool.frozen sender = false ∧ (w.pool.pending sender).amount ≠ 0 ∧ (w.pool.pending sender).unlockAt ≤ now
      ∧ (w.pool.pending sender).amount ≤ w.held ∧ w' = w.withdrawing sender := by
  unfold withdraw
  simp only [bind_iff, revertIf_ok_iff, pushTokens_ok_iff, Nat.not_lt, Bool.not_eq_true]
  constructor
  · rintro ⟨_, hfrozen, _, hpos, _, hdue, _, ⟨hheld, rfl⟩, h⟩
    exact ⟨hfrozen, hpos, hdue, hheld, (Except.ok.inj h).symm⟩
  · rintro ⟨hfrozen, hpos, hdue, hheld, rfl⟩
    exact ⟨(), hfrozen, (), hpos, (), hdue, _, ⟨hheld, rfl⟩, rfl⟩

def takenActive (w : World) (u : Address) (amount : ℕ) : ℕ :=
    if w.pool.active u < amount then w.pool.active u else amount

theorem totalWithout_ok_iff {a b c : ℕ} : totalWithout a b = .ok c ↔ b ≤ a ∧ c = a - b := by
  unfold totalWithout
  split_ifs with hb
  · exact subU_ok_iff
  · obtain rfl : b = 0 := by omega
    exact ⟨fun h => ⟨Nat.zero_le a, (Except.ok.inj h).symm⟩, fun h => congrArg Except.ok h.2.symm⟩

/-- **SLASHING**: any amount up to what is in both buckets, while the sums and the counter fit their words. -/
theorem slash_ok_iff : slash u amount hasRole w = .ok w' ↔
    hasRole = true ∧ amount ≠ 0 ∧ w.pool.active u + (w.pool.pending u).amount < 2 ^ 256
      ∧ amount ≤ w.pool.active u + (w.pool.pending u).amount ∧ takenActive w u amount ≤ w.pool.totalActiveStake
      ∧ w.pool.slashCount u + 1 < 2 ^ 256 ∧ amount ≤ w.held
      ∧ w' = w.slashing u (takenActive w u amount) (amount - takenActive w u amount) := by
  have hparts : takenActive w u amount + (amount - takenActive w u amount) = amount := by
    unfold takenActive
    split_ifs <;> omega
  unfold slash World.slashing
  simp only [bind_iff, revertIf_ok_iff, addU_ok_iff, totalWithout_ok_iff, pushTokens_ok_iff,
    Nat.not_lt, Bool.not_eq_false, hparts]
  constructor
  · rintro ⟨_, hrole, _, hpos, _, ⟨hfit, rfl⟩, _, hall, _, ⟨htotal, rfl⟩, _, ⟨hcount, rfl⟩, _, ⟨hheld, rfl⟩, h⟩
    exact ⟨hrole, hpos, hfit, hall, htotal, hcount, hheld, (Except.ok.inj h).symm⟩
  · rintro ⟨hrole, hpos, hfit, hall, htotal, hcount, hheld, rfl⟩
    exact ⟨(), hrole, (), hpos, _, ⟨hfit, rfl⟩, (), hall, _, ⟨htotal, rfl⟩, _, ⟨hcount, rfl⟩, _, ⟨hheld, rfl⟩, rfl⟩

theorem slash_effect (h : slash u amount hasRole w = .ok w') : Effect tx w w' := by
  obtain ⟨-, -, -, hall, htotal, -, hheld, rfl⟩ := slash_ok_iff.1 h
  have hactive : takenActive w u amount ≤ w.pool.active u := by
    unfold takenActive
    split_ifs <;> omega
  have hpending : amount - takenActive w u amount ≤ (w.pool.pending u).amount := by
    unfold takenActive
    split_ifs <;> omega
  have hparts : takenActive w u amount + (amount - takenActive w u amount) ≤ w.held := by
    unfold takenActive
    split_ifs <;> omega
  exact Effect.slashed u _ _ hactive hpending htotal hparts

theorem exec_effect (h : exec tx w = .ok w') : Effect tx w w' := by
  unfold exec at h
  split at h
  · obtain ⟨hbalance, rfl⟩ := stake_ok h
    exact Effect.staked _ hbalance
  · next amount hcall =>
    obtain ⟨hactive, htotal, rfl⟩ := requestUnstake_ok h
    exact Effect.requested amount hcall hactive htotal
  · next hcall =>
    obtain ⟨-, -, -, hheld, rfl⟩ := withdraw_ok_iff.1 h
    exact Effect.withdrew hcall hheld
  · exact slash_effect h
  · unfold setFrozen at h
    simp only [bind_iff] at h
    obtain ⟨_, -, h⟩ := h
    exact Except.ok.inj h ▸ Effect.configured _ ⟨rfl, rfl, rfl⟩
  · unfold setParams at h
    simp only [bind_iff] at h
    obtain ⟨_, -, _, -, h⟩ := h
    exact Except.ok.inj h ▸ Effect.configured _ ⟨rfl, rfl, rfl⟩
  · unfold pause at h
    simp only [bind_iff] at h
    obtain ⟨_, -, _, -, h⟩ := h
    exact Except.ok.inj h ▸ Effect.configured _ ⟨rfl, rfl, rfl⟩
  · unfold unpause at h
    simp only [bind_iff] at h
    obtain ⟨_, -, _, -, h⟩ := h
    exact Except.ok.inj h ▸ Effect.configured _ ⟨rfl, rfl, rfl⟩
  · unfold transfer at h
    simp only [bind_iff, revertIf_ok_iff, Nat.not_lt] at h
    obtain ⟨_, hbalance, h⟩ := h
    exact Except.ok.inj h ▸ Effect.moved _ _ hbalance
  · unfold donate at h
    simp only [bind_iff, revertIf_ok_iff, Nat.not_lt] at h
    obtain ⟨_, hbalance, h⟩ := h
    exact Except.ok.inj h ▸ Effect.donated _ hbalance

/-! ## Books -/

/-- Every token is with an account or in the contract; the contract holds what it was sent and the two buckets; and each
    provider's stake is in its buckets, withdrawn or slashed. -/
structure Books (supply : ℕ) (w : World) : Prop where
  supply : ∑ u, w.balance u + w.held = supply
  custody : w.held = w.donated + ∑ u, w.pool.active u + ∑ u, (w.pool.pending u).amount
  total : w.pool.totalActiveStake = ∑ u, w.pool.active u
  accounts : ∀ u, w.pool.active u + (w.pool.pending u).amount + w.withdrawn u + w.slashed u = w.staked u
  requests : ∀ u, (w.pool.pending u).amount + w.withdrawn u ≤ w.requested u

theorem sum_pending (f : Address → Unbonding) (u : Address) (b : Unbonding) :
    ∑ x, (update f u b x).amount + (f u).amount = ∑ x, (f x).amount + b.amount :=
  FiniteSum.sum_update (mem_univ u) (fun _ b => b.amount) f b

variable {supply : ℕ}

theorem Books.staking (hw : Books supply w) (h : amount ≤ w.balance u) : Books supply (w.staking u amount) := by
  have hbalance := FiniteSum.sum_update_univ w.balance u (w.balance u - amount)
  have hactive := FiniteSum.sum_update_univ w.pool.active u (w.pool.active u + amount)
  obtain ⟨hsupply, hcustody, htotal, haccounts, hrequests⟩ := hw
  refine ⟨?_, ?_, ?_, ?_, hrequests⟩
  · show ∑ x, update w.balance u (w.balance u - amount) x + (w.held + amount) = supply
    omega
  · show w.held + amount = w.donated + ∑ x, update w.pool.active u (w.pool.active u + amount) x
      + ∑ x, (w.pool.pending x).amount
    omega
  · show w.pool.totalActiveStake + amount = ∑ x, update w.pool.active u (w.pool.active u + amount) x
    omega
  · intro x
    have hx := haccounts x
    show update w.pool.active u (w.pool.active u + amount) x + (w.pool.pending x).amount + w.withdrawn x + w.slashed x
      = update w.staked u (w.staked u + amount) x
    by_cases hu : x = u
    · subst hu
      rw [update_self, update_self]
      omega
    · rw [update_of_ne hu, update_of_ne hu, hx]

theorem Books.requesting (hw : Books supply w) (hactive : amount ≤ w.pool.active u) (unlockAt : ℕ) :
    Books supply (w.requesting u amount unlockAt) := by
  have hactiveSum := FiniteSum.sum_update_univ w.pool.active u (w.pool.active u - amount)
  have hpendingSum := sum_pending w.pool.pending u ⟨(w.pool.pending u).amount + amount, unlockAt⟩
  obtain ⟨hsupply, hcustody, htotal, haccounts, hrequests⟩ := hw
  refine ⟨hsupply, ?_, ?_, ?_, ?_⟩
  · show w.held = w.donated + ∑ x, update w.pool.active u (w.pool.active u - amount) x
      + ∑ x, (update w.pool.pending u ⟨(w.pool.pending u).amount + amount, unlockAt⟩ x).amount
    dsimp only at hpendingSum
    omega
  · show w.pool.totalActiveStake - amount = ∑ x, update w.pool.active u (w.pool.active u - amount) x
    omega
  · intro x
    have hx := haccounts x
    show update w.pool.active u (w.pool.active u - amount) x
      + (update w.pool.pending u ⟨(w.pool.pending u).amount + amount, unlockAt⟩ x).amount
        + w.withdrawn x + w.slashed x = w.staked x
    by_cases hu : x = u
    · subst hu
      rw [update_self, update_self]
      dsimp only
      omega
    · rw [update_of_ne hu, update_of_ne hu, hx]
  · intro x
    have hx := hrequests x
    show (update w.pool.pending u ⟨(w.pool.pending u).amount + amount, unlockAt⟩ x).amount + w.withdrawn x
      ≤ update w.requested u (w.requested u + amount) x
    by_cases hu : x = u
    · subst hu
      rw [update_self, update_self]
      dsimp only
      omega
    · rw [update_of_ne hu, update_of_ne hu]
      exact hx

theorem Books.withdrawing (hw : Books supply w) (hheld : (w.pool.pending u).amount ≤ w.held) :
    Books supply (w.withdrawing u) := by
  have hbalance := FiniteSum.sum_update_univ w.balance u (w.balance u + (w.pool.pending u).amount)
  have hpending := sum_pending w.pool.pending u ⟨0, 0⟩
  obtain ⟨hsupply, hcustody, htotal, haccounts, hrequests⟩ := hw
  refine ⟨?_, ?_, htotal, ?_, ?_⟩
  · show ∑ x, update w.balance u (w.balance u + (w.pool.pending u).amount) x
      + (w.held - (w.pool.pending u).amount) = supply
    omega
  · show w.held - (w.pool.pending u).amount
      = w.donated + ∑ x, w.pool.active x + ∑ x, (update w.pool.pending u ⟨0, 0⟩ x).amount
    dsimp only at hpending
    omega
  · intro x
    have hx := haccounts x
    show w.pool.active x + (update w.pool.pending u ⟨0, 0⟩ x).amount
      + update w.withdrawn u (w.withdrawn u + (w.pool.pending u).amount) x + w.slashed x = w.staked x
    by_cases hu : x = u
    · subst hu
      rw [update_self, update_self]
      dsimp only
      omega
    · rw [update_of_ne hu, update_of_ne hu, hx]
  · intro x
    have hx := hrequests x
    show (update w.pool.pending u ⟨0, 0⟩ x).amount
      + update w.withdrawn u (w.withdrawn u + (w.pool.pending u).amount) x ≤ w.requested x
    by_cases hu : x = u
    · subst hu
      rw [update_self, update_self]
      dsimp only
      omega
    · rw [update_of_ne hu, update_of_ne hu]
      exact hx

theorem Books.slashing {fromActive remainder : ℕ} (hw : Books supply w) (hactive : fromActive ≤ w.pool.active u)
    (hpending : remainder ≤ (w.pool.pending u).amount) (hheld : fromActive + remainder ≤ w.held) :
    Books supply (w.slashing u fromActive remainder) := by
  have hbalance := FiniteSum.sum_update_univ w.balance w.pool.treasury
    (w.balance w.pool.treasury + (fromActive + remainder))
  have hactiveSum := FiniteSum.sum_update_univ w.pool.active u (w.pool.active u - fromActive)
  have hpendingSum := sum_pending w.pool.pending u ⟨(w.pool.pending u).amount - remainder, (w.pool.pending u).unlockAt⟩
  obtain ⟨hsupply, hcustody, htotal, haccounts, hrequests⟩ := hw
  refine ⟨?_, ?_, ?_, ?_, ?_⟩
  · show ∑ x, update w.balance w.pool.treasury (w.balance w.pool.treasury + (fromActive + remainder)) x
      + (w.held - (fromActive + remainder)) = supply
    omega
  · show w.held - (fromActive + remainder) = w.donated + ∑ x, update w.pool.active u (w.pool.active u - fromActive) x
      + ∑ x, (update w.pool.pending u ⟨(w.pool.pending u).amount - remainder, (w.pool.pending u).unlockAt⟩ x).amount
    dsimp only at hpendingSum
    omega
  · show w.pool.totalActiveStake - fromActive = ∑ x, update w.pool.active u (w.pool.active u - fromActive) x
    omega
  · intro x
    have hx := haccounts x
    show update w.pool.active u (w.pool.active u - fromActive) x
      + (update w.pool.pending u ⟨(w.pool.pending u).amount - remainder, (w.pool.pending u).unlockAt⟩ x).amount
        + w.withdrawn x
      + update w.slashed u (w.slashed u + (fromActive + remainder)) x = w.staked x
    by_cases hu : x = u
    · subst hu
      rw [update_self, update_self, update_self]
      dsimp only
      omega
    · rw [update_of_ne hu, update_of_ne hu, update_of_ne hu, hx]
  · intro x
    have hx := hrequests x
    show (update w.pool.pending u ⟨(w.pool.pending u).amount - remainder, (w.pool.pending u).unlockAt⟩ x).amount
      + w.withdrawn x
      ≤ w.requested x
    by_cases hu : x = u
    · subst hu
      rw [update_self]
      dsimp only
      omega
    · rw [update_of_ne hu]
      exact hx

/-- Every transaction keeps the books. -/
theorem Effect.books (h : Effect tx w w') (hw : Books supply w) : Books supply w' := by
  cases h with
  | staked amount h => exact hw.staking h
  | requested amount hcall hactive htotal => exact hw.requesting hactive _
  | withdrew hcall hheld => exact hw.withdrawing hheld
  | slashed u fromActive remainder hactive hpending htotal hheld => exact hw.slashing hactive hpending hheld
  | configured s h =>
    obtain ⟨hactive, hpending, htotal⟩ := h
    obtain ⟨hsupply, hcustody, hsum, haccounts, hrequests⟩ := hw
    refine ⟨hsupply, ?_, ?_, ?_, ?_⟩
    · show w.held = w.donated + ∑ u, s.active u + ∑ u, (s.pending u).amount
      rw [hactive, hpending, hcustody]
    · show s.totalActiveStake = ∑ u, s.active u
      rw [htotal, hactive, hsum]
    · intro u
      show s.active u + (s.pending u).amount + w.withdrawn u + w.slashed u = w.staked u
      rw [hactive, hpending, haccounts]
    · intro u
      show (s.pending u).amount + w.withdrawn u ≤ w.requested u
      rw [hpending]
      exact hrequests u
  | moved dst amount h =>
    have hout := FiniteSum.sum_update_univ w.balance tx.sender (w.balance tx.sender - amount)
    have hin := FiniteSum.sum_update_univ (update w.balance tx.sender (w.balance tx.sender - amount)) dst
      (update w.balance tx.sender (w.balance tx.sender - amount) dst + amount)
    have hsupply := hw.supply
    refine ⟨?_, hw.custody, hw.total, hw.accounts, hw.requests⟩
    show ∑ x, update (update w.balance tx.sender (w.balance tx.sender - amount)) dst
      (update w.balance tx.sender (w.balance tx.sender - amount) dst + amount) x + w.held = supply
    omega
  | donated amount h =>
    have hout := FiniteSum.sum_update_univ w.balance tx.sender (w.balance tx.sender - amount)
    have hsupply := hw.supply
    have hcustody := hw.custody
    refine ⟨?_, ?_, hw.total, hw.accounts, hw.requests⟩
    · show ∑ x, update w.balance tx.sender (w.balance tx.sender - amount) x + (w.held + amount) = supply
      omega
    · show w.held + amount = w.donated + amount + ∑ u, w.pool.active u + ∑ u, (w.pool.pending u).amount
      omega

theorem step_books (tx : Tx) (hw : Books supply w) : Books supply (step w tx) := by
  unfold step
  split
  · next w' h => exact (exec_effect h).books hw
  · exact hw

theorem start_books (treasury : Address) (minStake unbondingPeriod : ℕ) (balance : Address → ℕ) (held : ℕ) :
    Books (∑ u, balance u + held) (start treasury minStake unbondingPeriod balance held) := by
  refine ⟨rfl, ?_, ?_, fun _ => rfl, fun _ => Nat.le_refl 0⟩
  · show held = held + ∑ _u : Address, 0 + ∑ _u : Address, 0
    rw [sum_const_zero, Nat.add_zero, Nat.add_zero]
  · show 0 = ∑ _u : Address, 0
    rw [sum_const_zero]

/-- **BOOKS**: they hold after any run. -/
theorem run_books (txs : List Tx) (hw : Books supply w) : Books supply (run w txs) :=
  Trace.run_invariant (Books supply) txs hw fun _ tx h => step_books tx h

end ProviderStaking
