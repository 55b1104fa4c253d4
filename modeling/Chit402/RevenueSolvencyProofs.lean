import Chit402.FiniteSumProofs
import Chit402.RevenueSplitterProofs

/-! # What the splitter has promised

    * `locked`: the grant pool, the open escrows and the unclaimed deferred
      claims;
    * `Books`: nothing is stored past the counters, the deferred totals are
      the sums they stand for, no stake route is registered, and the open
      proposals ask for no more than the pool.

    Every call keeps the balance above what is locked, except `distribute`,
    which splits the balance as if nothing were, and every call keeps the
    proposals within the pool, except one that proposes too much.
    `locked_covered` asks of a run that it does neither; `escrow_distributed`
    is a run that distributes an escrow. -/

namespace RevenueSolvency

open ExceptFlow Solidity Custody FiniteSum RevenueSplitter Function Finset

variable {m : Msg} {replies : Replies}

/-! ## Locked money -/

def openAmount (e : Escrow) : Nat := if e.claimed ∨ e.refunded then 0 else e.amount

def unclaimed (c : DeferredClaim) : Nat := if c.claimed then 0 else c.amount

def openEscrows (s : State) : Nat := ∑ id ∈ range (s.escrowCount + 1), openAmount (s.escrows id)

def unclaimedClaims (s : State) : Nat := ∑ id ∈ range (s.deferredClaimCount + 1), unclaimed (s.deferredClaims id)

/-- **LOCKED**: what the balance has to cover. -/
def locked (s : State) : Nat := s.grantPoolBalance + openEscrows s + unclaimedClaims s

def owed (s : State) : Asset → Nat
  | .native => locked s
  | .erc20 _ => 0

/-- The unclaimed deferred claims of `a`. -/
def deferredOf (s : State) (a : Address) : Nat :=
  ∑ id ∈ range (s.deferredClaimCount + 1),
    if (s.deferredClaims id).claimant = a then unclaimed (s.deferredClaims id) else 0

/-- The time of the last proposal. -/
def lastProposed (s : State) : Nat := (s.grantProposals s.grantProposalCount).createdAt

/-- What a proposal asks for, unless it is closed, or was too old already at the time `last`. -/
def openGrant (last : Nat) (p : GrantProposal) : Nat :=
  if p.executed ∨ p.cancelled ∨ p.createdAt + grantExpiry < last then 0 else p.amount

def openGrants (s : State) : Nat :=
  ∑ id ∈ range (s.grantProposalCount + 1), openGrant (lastProposed s) (s.grantProposals id)

/-- The proposals ask for no more than the pool, as long as there are no more than the first `n`. -/
structure Grants (n : Nat) (s : State) : Prop where
  noProposal : ∀ id, s.grantProposalCount < id → s.grantProposals id = noProposal
  counted : n ≤ s.grantProposalCount
  booked : s.grantProposalCount = n → openGrants s ≤ s.grantPoolBalance

structure Books (n : Nat) (s : State) : Prop where
  noEscrow : ∀ id, s.escrowCount < id → s.escrows id = noEscrow
  noClaim : ∀ id, s.deferredClaimCount < id → s.deferredClaims id = noClaim
  deferred : ∀ a, s.totalDeferred a = deferredOf s a
  noRoutes : s.stakeRoutes = []
  grants : Grants n s

/-- The payment of `amount` in native value. -/
abbrev due (amount : Nat) : Asset → Nat := Pi.single .native amount

variable {balance boost escrowId id index n value x y : Nat} {call : OpenCall} {parts : Shares} {s s' : State} {tx : Tx}
  {taskId : Word} {w w' : World}

theorem owed_le (h : locked s' + x ≤ locked s + y) (pending : Asset → Nat) (a : Asset) :
    owed s' a + (pending + due x) a ≤ owed s a + (pending + due y) a := by
  rw [Pi.add_apply, Pi.add_apply]
  cases a with
  | native =>
    rw [due, due, Pi.single_eq_same, Pi.single_eq_same]
    show locked s' + (pending .native + x) ≤ locked s + (pending .native + y)
    omega
  | erc20 token =>
    exact Nat.le_refl _

theorem due_zero (pending : Asset → Nat) : pending + due 0 = pending := by
  rw [due, Pi.single_zero, add_zero]

theorem due_add (pending : Asset → Nat) (x y : Nat) : pending + due (x + y) = pending + due x + due y := by
  rw [due, due, due, Pi.single_add, add_assoc]

variable {pending : Asset → Nat}

theorem Covers.writeDue (h : Covers (Books n) owed (pending + due y) w) (hb : Books n s)
    (hle : locked s + x ≤ locked w.state + y) : Covers (Books n) owed (pending + due x) (w.write s) :=
  h.write hb (owed_le hle pending)

/-! ## Calls made back -/

/-- No escrow and no deferred claim changes. -/
structure SameClaims (s s' : State) : Prop where
  escrowCount : s'.escrowCount = s.escrowCount
  escrows : s'.escrows = s.escrows
  deferredClaimCount : s'.deferredClaimCount = s.deferredClaimCount
  deferredClaims : s'.deferredClaims = s.deferredClaims
  totalDeferred : s'.totalDeferred = s.totalDeferred
  stakeRoutes : s'.stakeRoutes = s.stakeRoutes

/-- Nothing that is locked changes, and the pool bears its proposals as before. -/
structure SamePots (s s' : State) : Prop extends SameClaims s s' where
  grantPoolBalance : s'.grantPoolBalance = s.grantPoolBalance
  grants : ∀ n, Grants n s → Grants n s'

/-- Neither the proposals nor the pool change. -/
theorem Grants.same (hcount : s'.grantProposalCount = s.grantProposalCount)
    (hproposals : s'.grantProposals = s.grantProposals) (hpool : s'.grantPoolBalance = s.grantPoolBalance) (n : Nat)
    (h : Grants n s) : Grants n s' := by
  refine ⟨?_, ?_, ?_⟩
  · rw [hcount, hproposals]
    exact h.noProposal
  · rw [hcount]
    exact h.counted
  · rw [hcount, hpool, openGrants, lastProposed, hcount, hproposals]
    exact h.booked

/-- A proposal that exists changes, and the pool with what it asks for. -/
theorem Grants.change {p : GrantProposal} (h : Grants n s) (hcount : s'.grantProposalCount = s.grantProposalCount)
    (hproposals : s'.grantProposals = update s.grantProposals index p)
    (hcreated : (s.grantProposals index).createdAt ≠ 0) (hsame : p.createdAt = (s.grantProposals index).createdAt)
    (hpool : openGrant (lastProposed s) p + s.grantPoolBalance
      ≤ openGrant (lastProposed s) (s.grantProposals index) + s'.grantPoolBalance) : Grants n s' := by
  have hindex : index ≤ s.grantProposalCount := by
    by_contra hlt
    rw [h.noProposal index (by omega)] at hcreated
    exact hcreated rfl
  have hlast : lastProposed s' = lastProposed s := by
    rw [lastProposed, lastProposed, hcount, hproposals]
    by_cases hi : s.grantProposalCount = index
    · rw [hi, update_self, hsame]
    · rw [update_of_ne hi]
  refine ⟨fun id hid => ?_, hcount ▸ h.counted, fun hn => ?_⟩
  · rw [hcount] at hid
    rw [hproposals, update_of_ne (by omega)]
    exact h.noProposal id hid
  · have hbooked := h.booked (hcount.symm.trans hn)
    have hsum := sum_update (mem_range.mpr (show index < s.grantProposalCount + 1 by omega))
      (fun _ p => openGrant (lastProposed s) p) s.grantProposals p
    rw [openGrants] at hbooked ⊢
    rw [hlast, hcount, hproposals]
    omega

theorem SamePots.trans {t u : State} (h1 : SamePots s t) (h2 : SamePots t u) : SamePots s u :=
  ⟨⟨h2.escrowCount.trans h1.escrowCount, h2.escrows.trans h1.escrows,
    h2.deferredClaimCount.trans h1.deferredClaimCount, h2.deferredClaims.trans h1.deferredClaims,
    h2.totalDeferred.trans h1.totalDeferred, h2.stakeRoutes.trans h1.stakeRoutes⟩,
    h2.grantPoolBalance.trans h1.grantPoolBalance, fun n h => h2.grants n (h1.grants n h)⟩

theorem SameClaims.locked (h : SameClaims s s') : locked s' + s.grantPoolBalance = locked s + s'.grantPoolBalance := by
  rw [RevenueSolvency.locked, RevenueSolvency.locked, openEscrows, openEscrows, unclaimedClaims, unclaimedClaims,
    h.escrowCount, h.escrows, h.deferredClaimCount, h.deferredClaims]
  omega

theorem SamePots.locked (h : SamePots s s') : locked s' = locked s := by
  have := h.toSameClaims.locked
  rw [h.grantPoolBalance] at this
  omega

theorem SameClaims.books (h : SameClaims s s') (hb : Books n s) (hgrants : Grants n s') : Books n s' := by
  refine ⟨?_, ?_, fun a => ?_, ?_, hgrants⟩
  · rw [h.escrowCount, h.escrows]
    exact hb.noEscrow
  · rw [h.deferredClaimCount, h.deferredClaims]
    exact hb.noClaim
  · rw [h.totalDeferred, deferredOf, h.deferredClaimCount, h.deferredClaims]
    exact hb.deferred a
  · rw [h.stakeRoutes]
    exact hb.noRoutes

theorem Covers.same (h : Covers (Books n) owed pending w) (hsame : SamePots w.state s) :
    Covers (Books n) owed pending (w.write s) := by
  rw [← due_zero pending] at h ⊢
  exact Covers.writeDue h (hsame.books h.books (hsame.grants n h.books.grants)) (by rw [hsame.locked])

theorem countNative_pots {providerTag amount : Nat} : Ensures (SamePots s) (countNative providerTag amount s) := by
  rw [countNative]
  refine ensures_ite ?_ (ensures_ok ⟨⟨rfl, rfl, rfl, rfl, rfl, rfl⟩, rfl, Grants.same rfl rfl rfl⟩)
  exact ensures_skip fun native => ensures_skip fun total => ensures_ok
    ⟨⟨rfl, rfl, rfl, rfl, rfl, rfl⟩, rfl, Grants.same rfl rfl rfl⟩

theorem depositFee_pots {circuitId : Word} : Ensures (SamePots s) (depositFee value circuitId s) := by
  rw [depositFee]
  iterate 5 refine ensures_skip fun _ => ?_
  exact ensures_ok ⟨⟨rfl, rfl, rfl, rfl, rfl, rfl⟩, rfl, Grants.same rfl rfl rfl⟩

/-- A deferred claim of `value` is the next one. -/
structure NewClaim (s s' : State) (value : Nat) : Prop where
  escrowCount : s'.escrowCount = s.escrowCount
  escrows : s'.escrows = s.escrows
  grantPoolBalance : s'.grantPoolBalance = s.grantPoolBalance
  stakeRoutes : s'.stakeRoutes = s.stakeRoutes
  grants : ∀ n, Grants n s → Grants n s'
  count : s'.deferredClaimCount = s.deferredClaimCount + 1
  claim : ∃ c, c.amount = value ∧ c.claimed = false
    ∧ s'.deferredClaims = update s.deferredClaims (s.deferredClaimCount + 1) c
    ∧ s'.totalDeferred = update s.totalDeferred c.claimant (s.totalDeferred c.claimant + value)

theorem createDeferredClaim_ok {delaySeconds : Nat} {claimant : Address} {proofNullifier : Word}
    (h : createDeferredClaim m value claimant proofNullifier delaySeconds s = .ok s') : NewClaim s s' value := by
  rw [createDeferredClaim, guarded_iff, guarded_iff, guarded_iff, guarded_iff, guarded_iff, bind_iff] at h
  obtain ⟨-, -, -, -, -, claimId, hid, h⟩ := h
  obtain ⟨-, rfl⟩ := addU_ok_iff.mp hid
  obtain ⟨deferred, hdeferred, h⟩ := bind_iff.mp h
  obtain ⟨-, rfl⟩ := addU_ok_iff.mp hdeferred
  cases h
  exact ⟨rfl, rfl, rfl, rfl, Grants.same rfl rfl rfl, rfl, _, rfl, rfl, rfl, rfl⟩

/-- One proposal more. -/
theorem agentGrantProposal_pots {proposalId : Word} {amount : Nat} {recipient : Address} :
    Ensures (SamePots s) (agentGrantProposal m proposalId amount recipient s) := by
  intro s' h
  rw [agentGrantProposal, guarded_iff, guarded_iff, guarded_iff, bind_iff] at h
  obtain ⟨-, -, -, scaled, -, h⟩ := h
  rw [guarded_iff, bind_iff] at h
  obtain ⟨-, index, hindex, h⟩ := h
  obtain ⟨-, rfl⟩ := addU_ok_iff.mp hindex
  cases h
  refine ⟨⟨rfl, rfl, rfl, rfl, rfl, rfl⟩, rfl, fun n hgrants => ⟨fun id hid => ?_, ?_, fun hn => ?_⟩⟩
  · have hid : s.grantProposalCount + 1 < id := hid
    show update s.grantProposals _ _ id = noProposal
    rw [update_of_ne (by omega)]
    exact hgrants.noProposal id (by omega)
  · exact Nat.le_succ_of_le hgrants.counted
  · have hcounted := hgrants.counted
    have hn : s.grantProposalCount + 1 = n := hn
    omega

/-- A vote changes nothing of what a proposal asks for. -/
theorem castVote_ok {support : Bool} {p p' : GrantProposal} (h : castVote support p = .ok p') :
    p'.createdAt = p.createdAt ∧ ∀ last, openGrant last p' = openGrant last p := by
  rw [castVote] at h
  split at h <;>
  · obtain ⟨votes, -, h⟩ := bind_iff.mp h
    cases h
    exact ⟨rfl, fun _ => rfl⟩

theorem voteGrant_pots {support : Bool} : Ensures (SamePots s) (voteGrant m index support s) := by
  intro s' h
  rw [voteGrant, guarded_iff, guarded_iff, guarded_iff, guarded_iff, bind_iff] at h
  obtain ⟨-, hcreated, -, -, p, hp, h⟩ := h
  obtain ⟨hsame, hopen⟩ := castVote_ok hp
  cases h
  exact ⟨⟨rfl, rfl, rfl, rfl, rfl, rfl⟩, rfl, fun n hgrants =>
    hgrants.change rfl rfl hcreated hsame (by rw [hopen])⟩

/-- What a call without the guard does to the locked money. -/
theorem execState_ok : Ensures (fun s' => SamePots s s' ∨ NewClaim s s' call.value) (execState m call s) := by
  cases call with
  | receive value =>
    exact ensures_skip fun _ => ensures_ok (.inl ⟨⟨rfl, rfl, rfl, rfl, rfl, rfl⟩, rfl, Grants.same rfl rfl rfl⟩)
  | depositFee value circuitId => exact fun s' h => .inl (depositFee_pots s' h)
  | depositFeeWithTag value circuitId tag =>
    exact ensures_bind depositFee_pots fun mid hmid s' h => .inl (hmid.trans (countNative_pots s' h))
  | tagFeeOrigin circuitId tag amount =>
    refine ensures_skip fun _ => ensures_skip fun _ => ensures_skip fun total s' h => .inl ?_
    have hrest := countNative_pots s' h
    refine SamePots.trans ?_ hrest
    exact ⟨⟨rfl, rfl, rfl, rfl, rfl, rfl⟩, rfl, Grants.same rfl rfl rfl⟩
  | createDeferredClaim value claimant nullifier delay => exact fun s' h => .inr (createDeferredClaim_ok h)
  | agentGrantProposal proposalId amount recipient => exact fun s' h => .inl (agentGrantProposal_pots s' h)
  | voteGrant index support => exact fun s' h => .inl (voteGrant_pots s' h)

theorem NewClaim.locked (h : NewClaim s s' value) : locked s' = locked s + value := by
  obtain ⟨c, hamount, hopen, hclaims, -⟩ := h.claim
  have hsum : unclaimedClaims s' = unclaimedClaims s + value := by
    rw [unclaimedClaims, h.count, sum_range_succ, hclaims, update_self, unclaimed, hopen, if_neg Bool.false_ne_true,
      hamount]
    congr 1
    refine sum_congr rfl fun id hid => ?_
    rw [update_of_ne (Nat.ne_of_lt (mem_range.mp hid))]
  rw [RevenueSolvency.locked, RevenueSolvency.locked, openEscrows, openEscrows, hsum, h.escrowCount, h.escrows,
    h.grantPoolBalance]
  omega

theorem NewClaim.books (h : NewClaim s s' value) (hb : Books n s) : Books n s' := by
  obtain ⟨c, hamount, hopen, hclaims, htotal⟩ := h.claim
  refine ⟨?_, fun id hid => ?_, fun a => ?_, ?_, h.grants n hb.grants⟩
  · rw [h.escrowCount, h.escrows]
    exact hb.noEscrow
  · rw [h.count] at hid
    rw [hclaims, update_of_ne (by omega)]
    exact hb.noClaim id (by omega)
  · have hrest : ∑ id ∈ range (s.deferredClaimCount + 1),
        (if (s'.deferredClaims id).claimant = a then unclaimed (s'.deferredClaims id) else 0) = deferredOf s a := by
      refine sum_congr rfl fun id hid => ?_
      rw [hclaims, update_of_ne (Nat.ne_of_lt (mem_range.mp hid))]
    have hlast : s'.deferredClaims (s.deferredClaimCount + 1) = c := by rw [hclaims, update_self]
    rw [deferredOf, h.count, sum_range_succ, hrest, hlast, htotal, unclaimed, hopen, if_neg Bool.false_ne_true, hamount]
    by_cases ha : a = c.claimant
    · rw [ha, update_self, if_pos rfl, hb.deferred]
    · rw [update_of_ne ha, if_neg fun hc => ha hc.symm, hb.deferred, Nat.add_zero]
  · rw [h.stakeRoutes]
    exact hb.noRoutes

theorem execOpen_covers (hw : Covers (Books n) owed pending w) (h : execOpen m call w = .ok w') :
    Covers (Books n) owed pending w' := by
  rw [execOpen, bind_iff] at h
  obtain ⟨s, hs, h⟩ := h
  cases h
  have hcredit := hw.credit .native call.value
  rw [← due_zero pending]
  rcases execState_ok s hs with hsame | hnew
  · refine Covers.writeDue hcredit (hsame.books hw.books (hsame.grants n hw.books.grants)) ?_
    rw [hsame.locked, World.credit_state]
    omega
  · refine Covers.writeDue hcredit (hnew.books hw.books) ?_
    rw [hnew.locked, World.credit_state]
    omega

theorem play_covers (pending : Asset → Nat) (w : World) (c : Msg × OpenCall) (hw : Covers (Books n) owed pending w) :
    Covers (Books n) owed pending (play w c) := by
  rw [play]
  split
  · rename_i h
    exact execOpen_covers hw h
  · exact hw

/-- Calls back leave the escrows alone. -/
theorem calls_escrows (w : World) (calls : List (Msg × OpenCall)) :
    (Trace.run play w calls).state.escrows = w.state.escrows := by
  refine Trace.run_invariant (fun w' : World => w'.state.escrows = w.state.escrows) calls rfl fun w' n h => ?_
  rw [play]
  split
  · rename_i w2 hexec
    rw [execOpen, bind_iff] at hexec
    obtain ⟨s, hs, hexec⟩ := hexec
    cases hexec
    rcases execState_ok s hs with hsame | hnew
    · exact hsame.escrows.trans h
    · exact hnew.escrows.trans h
  · exact h

/-! ## Payments -/

variable {r : Reply} {dst : Address} {amount : Nat} {label : String}

theorem safeTransfer_covers (hw : Covers (Books n) owed (pending + due amount) w)
    (h : safeTransfer dst r amount label w = .ok w') : Covers (Books n) owed pending w' := by
  rw [safeTransfer] at h
  split at h
  · cases h
    exact hw.drop
  · exact hw.send play_covers h

theorem safeTransfer_escrows (h : safeTransfer dst r amount label w = .ok w') : w'.state.escrows = w.state.escrows := by
  rw [safeTransfer] at h
  split at h
  · cases h
    rfl
  · obtain ⟨-, -, rfl⟩ := send_ok_iff.mp h
    exact calls_escrows _ r.calls

/-- The errors that lack of money would raise. -/
def LackOfFunds : Revert → Prop
  | .transferFailed _ => True
  | .insufficientGrantPool => True
  | .underflow => True
  | _ => False

/-- With accounts that accept, `e` does not lack money. -/
def Funded (replies : Replies) (e : Revert) : Prop := (∀ i, (replies i).ok = true) → ¬ LackOfFunds e

/-- **PAYMENT**: a covered one to an account that accepts does not lack money. -/
theorem safeTransfer_yields (i : Nat) (hw : Covers (Books n) owed (pending + due amount) w) :
    Yields (fun w' => Covers (Books n) owed pending w' ∧ w'.state.escrows = w.state.escrows) (Funded replies)
      (safeTransfer dst (replies i) amount label w) := by
  cases h : safeTransfer dst (replies i) amount label w with
  | ok w' =>
    exact ⟨safeTransfer_covers hw h, safeTransfer_escrows h⟩
  | error e =>
    intro hok
    rw [safeTransfer] at h
    split at h
    · cases h
    · obtain ⟨w', hsend⟩ : ∃ w', send play (Revert.transferFailed label) .native (replies i) amount w = .ok w' :=
        hw.send_ok (hok i)
      cases hsend.symm.trans h

/-! ## Distribution -/

theorem splitShares_sum (h : splitShares balance boost s = .ok parts) :
    parts.feeToStakeAmount + parts.treasuryAmount + parts.stakerAmount + parts.getForwarded + parts.bbbAmount
      + parts.grantsAmount = balance := by
  rw [splitShares, bind_iff] at h
  obtain ⟨bbb, -, h⟩ := h
  obtain ⟨get, -, h⟩ := bind_iff.mp h
  obtain ⟨staker, -, h⟩ := bind_iff.mp h
  obtain ⟨afterBbb, h1, h⟩ := bind_iff.mp h
  obtain ⟨afterGet, h2, h⟩ := bind_iff.mp h
  obtain ⟨treasuryRaw, h3, h⟩ := bind_iff.mp h
  obtain ⟨feeToStake, -, h⟩ := bind_iff.mp h
  obtain ⟨treasuryAmount, h4, h⟩ := bind_iff.mp h
  obtain ⟨incentives, -, h⟩ := bind_iff.mp h
  obtain ⟨boosted, -, h⟩ := bind_iff.mp h
  obtain ⟨lpBoost, -, h⟩ := bind_iff.mp h
  obtain ⟨afterIncentives, h5, h⟩ := bind_iff.mp h
  obtain ⟨grantsAmount, h6, h⟩ := bind_iff.mp h
  obtain ⟨getForwarded, h7, h⟩ := bind_iff.mp h
  cases h
  obtain ⟨h1, rfl⟩ := subU_ok_iff.mp h1
  obtain ⟨h2, rfl⟩ := subU_ok_iff.mp h2
  obtain ⟨h3, rfl⟩ := subU_ok_iff.mp h3
  obtain ⟨h4, rfl⟩ := subU_ok_iff.mp h4
  obtain ⟨h5, rfl⟩ := subU_ok_iff.mp h5
  obtain ⟨h6, rfl⟩ := subU_ok_iff.mp h6
  obtain ⟨h7, rfl⟩ := subU_ok_iff.mp h7
  dsimp only
  omega

theorem recordShares_ok (h : recordShares m balance boost parts s = .ok s') :
    SameClaims s s' ∧ s'.grantPoolBalance = s.grantPoolBalance + parts.grantsAmount
      ∧ ∀ n, Grants n s → Grants n s' := by
  rw [recordShares, bind_iff] at h
  obtain ⟨count, -, h⟩ := h
  obtain ⟨pool, hpool, h⟩ := bind_iff.mp h
  obtain ⟨-, rfl⟩ := addU_ok_iff.mp hpool
  obtain ⟨distributed, -, h⟩ := bind_iff.mp h
  obtain ⟨bbb, -, h⟩ := bind_iff.mp h
  obtain ⟨get, -, h⟩ := bind_iff.mp h
  obtain ⟨staker, -, h⟩ := bind_iff.mp h
  obtain ⟨treasury, -, h⟩ := bind_iff.mp h
  obtain ⟨stake, -, h⟩ := bind_iff.mp h
  obtain ⟨incentives, -, h⟩ := bind_iff.mp h
  obtain ⟨lpBoost, -, h⟩ := bind_iff.mp h
  obtain ⟨grants, -, h⟩ := bind_iff.mp h
  obtain ⟨volume, -, h⟩ := bind_iff.mp h
  cases h
  exact ⟨⟨rfl, rfl, rfl, rfl, rfl, rfl⟩, rfl, fun n hgrants => ⟨hgrants.noProposal, hgrants.counted,
    fun hn => Nat.le_add_right_of_le (hgrants.booked hn)⟩⟩

theorem stakeShare_covers {chainId : Nat} (hw : Covers (Books n) owed (pending + due amount) w)
    (h : stakeShare chainId dst r amount label w = .ok w') : Covers (Books n) owed pending w' := by
  rw [stakeShare, bind_iff] at h
  obtain ⟨total, -, h⟩ := h
  refine safeTransfer_covers (Covers.same hw ?_) h
  exact ⟨⟨rfl, rfl, rfl, rfl, rfl, rfl⟩, rfl, Grants.same rfl rfl rfl⟩

theorem routeStake_covers (hw : Covers (Books n) owed (pending + due amount) w)
    (h : routeStake m replies amount w = .ok w') : Covers (Books n) owed pending w' := by
  have hnone : ¬ (0 < w.state.stakeRoutes.length ∧ 0 < w.state.totalStakeWeight) := by
    rw [hw.books.noRoutes]
    exact fun hroutes => Nat.lt_irrefl 0 hroutes.1
  rw [routeStake, if_neg hnone] at h
  split at h
  · exact stakeShare_covers hw h
  · obtain ⟨total, -, h⟩ := bind_iff.mp h
    refine safeTransfer_covers (Covers.same hw ?_) h
    exact ⟨⟨rfl, rfl, rfl, rfl, rfl, rfl⟩, rfl, Grants.same rfl rfl rfl⟩

/-- **DISTRIBUTED WHILE NOTHING IS LOCKED**: all but the grants is paid out. -/
theorem distribute_covers (hw : Covers (Books n) owed 0 w) (hnone : locked w.state = 0)
    (h : distribute m replies w = .ok w') : Covers (Books n) owed 0 w' := by
  rw [distribute, guarded_iff, guarded_iff, bind_iff] at h
  obtain ⟨-, -, boost, -, h⟩ := h
  obtain ⟨parts, hparts, h⟩ := bind_iff.mp h
  obtain ⟨s, hs, h⟩ := bind_iff.mp h
  obtain ⟨w1, h1, h⟩ := bind_iff.mp h
  obtain ⟨w2, h2, h⟩ := bind_iff.mp h
  obtain ⟨w3, h3, h⟩ := bind_iff.mp h
  obtain ⟨w4, h4, h⟩ := bind_iff.mp h
  have hsum := splitShares_sum hparts
  obtain ⟨hsame, hpool, hgrants⟩ := recordShares_ok hs
  have hlocked := hsame.locked
  have hall : Covers (Books n) owed (0 + due (w.holdings .native)) w := by
    refine ⟨hw.books, fun a => ?_⟩
    rw [zero_add]
    cases a with
    | native =>
      rw [due, Pi.single_eq_same]
      show locked w.state + w.holdings .native ≤ w.holdings .native
      omega
    | erc20 token =>
      exact Nat.zero_le _
  have hwrite : Covers (Books n) owed (0 + due (parts.feeToStakeAmount + parts.treasuryAmount + parts.stakerAmount
      + parts.getForwarded + parts.bbbAmount)) (w.write s) :=
    Covers.writeDue hall (hsame.books hw.books (hgrants n hw.books.grants)) (by omega)
  rw [due_add, due_add, due_add, due_add] at hwrite
  have hpaid := safeTransfer_covers (safeTransfer_covers (safeTransfer_covers (safeTransfer_covers hwrite h1) h2) h3) h4
  split at h
  · exact routeStake_covers hpaid h
  · cases h
    exact hpaid.drop

/-! ## Escrows -/

theorem escrow_le (hb : Books n s) (h : (s.escrows id).payer ≠ 0) : id ≤ s.escrowCount := by
  by_contra hlt
  rw [hb.noEscrow id (by omega)] at h
  exact h rfl

/-- Closing an escrow frees its amount. -/
theorem closed (hb : Books n s) {e : Escrow} (hpayer : (s.escrows id).payer ≠ 0)
    (hopen : ¬ ((s.escrows id).claimed = true ∨ (s.escrows id).refunded = true)) (hclosed : openAmount e = 0) :
    Books n (setEscrow id e s) ∧ locked (setEscrow id e s) + (s.escrows id).amount = locked s := by
  have hid := escrow_le hb hpayer
  refine ⟨⟨fun x hx => ?_, hb.noClaim, hb.deferred, hb.noRoutes,
    hb.grants.noProposal, hb.grants.counted, hb.grants.booked⟩, ?_⟩
  · have hx : s.escrowCount < x := hx
    show update s.escrows id e x = noEscrow
    rw [update_of_ne (by omega)]
    exact hb.noEscrow x hx
  · have hsum := sum_update (mem_range.mpr (show id < s.escrowCount + 1 by omega)) (fun _ e => openAmount e) s.escrows e
    have hamount : openAmount (s.escrows id) = (s.escrows id).amount := if_neg hopen
    rw [hclosed, hamount] at hsum
    show s.grantPoolBalance + (∑ x ∈ range (s.escrowCount + 1), openAmount (update s.escrows id e x))
      + unclaimedClaims s + (s.escrows id).amount = s.grantPoolBalance + openEscrows s + unclaimedClaims s
    rw [openEscrows]
    omega

theorem createEscrow_covers {maxAmount duration : Nat} {payee : Address} (hw : Covers (Books n) owed 0 w)
    (h : createEscrow m value payee maxAmount taskId duration w = .ok w') : Covers (Books n) owed 0 w' := by
  rw [createEscrow, guarded_iff, guarded_iff, guarded_iff, guarded_iff, guarded_iff, bind_iff] at h
  obtain ⟨-, -, -, -, -, escrowId, hid, h⟩ := h
  obtain ⟨-, rfl⟩ := addU_ok_iff.mp hid
  obtain ⟨total, -, h⟩ := bind_iff.mp h
  cases h
  rw [← due_zero 0]
  refine Covers.writeDue (hw.credit .native value) ⟨fun x hx => ?_, hw.books.noClaim, hw.books.deferred,
    hw.books.noRoutes, hw.books.grants.noProposal, hw.books.grants.counted, hw.books.grants.booked⟩ ?_
  · have hx : w.state.escrowCount + 1 < x := hx
    show update w.state.escrows (w.state.escrowCount + 1) _ x = noEscrow
    rw [update_of_ne (by omega)]
    exact hw.books.noEscrow x (by omega)
  · have hsum : ∑ x ∈ range (w.state.escrowCount + 1), openAmount (update w.state.escrows (w.state.escrowCount + 1) {
        payer := m.sender
        payee := payee
        amount := value
        maxAmount := maxAmount
        taskId := taskId
        createdAt := m.timestamp
        expiresAt := m.timestamp + duration
        claimed := false
        refunded := false } x) = openEscrows w.state := by
      refine sum_congr rfl fun x hx => ?_
      rw [update_of_ne (Nat.ne_of_lt (mem_range.mp hx))]
    show w.state.grantPoolBalance + (∑ x ∈ range (w.state.escrowCount + 1 + 1), openAmount (update w.state.escrows
      (w.state.escrowCount + 1) _ x)) + unclaimedClaims w.state + 0 ≤ locked w.state + value
    rw [sum_range_succ, hsum, update_self]
    show w.state.grantPoolBalance + (openEscrows w.state + value) + unclaimedClaims w.state + 0 ≤ locked w.state + value
    rw [locked]
    omega

theorem collectFee_yields {protocolFee : Nat} :
    Yields (SamePots s) (Funded replies) (collectFee protocolFee taskId s) := by
  rw [collectFee]
  split
  · refine yields_bind (yields_addU fun _ h => h) fun collected _ => ?_
    refine yields_bind (yields_addU fun _ h => h) fun fees _ => ?_
    exact ⟨⟨rfl, rfl, rfl, rfl, rfl, rfl⟩, rfl, Grants.same rfl rfl rfl⟩
  · exact ⟨⟨rfl, rfl, rfl, rfl, rfl, rfl⟩, rfl, Grants.same rfl rfl rfl⟩

theorem protocolFee_le (amount : Nat) : amount * protocolFeeBps / totalBps ≤ amount := by
  rw [protocolFeeBps, totalBps]
  omega

/-- **CLAIMED**: the escrow's amount pays the payee, then the payer; the fee stays. -/
theorem claimEscrow_yields {claimAmount : Nat} (hw : Covers (Books n) owed 0 w) :
    Yields (Covers (Books n) owed 0) (Funded replies) (claimEscrow m replies escrowId claimAmount w) := by
  rw [claimEscrow]
  refine yields_revertIf_bind (fun _ _ h => h) fun _ => ?_
  refine yields_revertIf_bind (fun _ _ h => h) fun hpayer => ?_
  refine yields_revertIf_bind (fun _ _ h => h) fun hopen => ?_
  iterate 3 refine yields_revertIf_bind (fun _ _ h => h) fun _ => ?_
  generalize hclaim : (if (w.state.escrows escrowId).amount < claimAmount then (w.state.escrows escrowId).amount
    else claimAmount) = claim
  have hle : claim ≤ (w.state.escrows escrowId).amount := by
    rw [← hclaim]
    split
    · exact Nat.le_refl _
    · omega
  refine yields_bind (yields_mulU fun _ h => h) fun scaled hscaled => ?_
  have hfee : scaled / totalBps ≤ claim := by
    rw [hscaled.2]
    exact protocolFee_le claim
  generalize scaled / totalBps = fee at hfee
  refine yields_bind (yields_subU hfee) fun payeeAmount hpayee => ?_
  obtain ⟨hbooks, hfreed⟩ := closed hw.books (e := (w.state.escrows escrowId).claim) hpayer hopen
    (if_pos (.inl rfl))
  have hwrite : Covers (Books n) owed (0 + due ((w.state.escrows escrowId).amount - claim) + due payeeAmount)
      (w.write (setEscrow escrowId (w.state.escrows escrowId).claim w.state)) := by
    rw [← due_add]
    rw [← due_zero 0] at hw
    exact Covers.writeDue hw hbooks (by omega)
  refine yields_bind (safeTransfer_yields 0 hwrite) fun w1 hw1 => ?_
  have hsame : w1.state.escrows escrowId = (w.state.escrows escrowId).claim := by
    rw [hw1.2]
    exact update_self ..
  rw [hsame]
  refine yields_bind collectFee_yields fun s hs => ?_
  refine yields_bind (yields_subU hle) fun remainder hremainder => ?_
  have hleft : remainder = (w.state.escrows escrowId).amount - claim := hremainder
  rw [← hleft] at hw1
  refine yields_bind (safeTransfer_yields 1 (Covers.same hw1.1 hs)) fun w2 hw2 => ?_
  refine yields_bind (yields_addU fun _ h => h) fun total _ => ?_
  exact Covers.same hw2.1 ⟨⟨rfl, rfl, rfl, rfl, rfl, rfl⟩, rfl, Grants.same rfl rfl rfl⟩

theorem refundEscrow_yields (hw : Covers (Books n) owed 0 w) :
    Yields (Covers (Books n) owed 0) (Funded replies) (refundEscrow m replies escrowId w) := by
  rw [refundEscrow]
  refine yields_revertIf_bind (fun _ _ h => h) fun hpayer => ?_
  refine yields_revertIf_bind (fun _ _ h => h) fun hopen => ?_
  iterate 2 refine yields_revertIf_bind (fun _ _ h => h) fun _ => ?_
  obtain ⟨hbooks, hfreed⟩ := closed hw.books (e := (w.state.escrows escrowId).refund) hpayer hopen
    (if_pos (.inr rfl))
  have hwrite : Covers (Books n) owed (0 + due (w.state.escrows escrowId).amount)
      (w.write (setEscrow escrowId (w.state.escrows escrowId).refund w.state)) := by
    rw [← due_zero 0] at hw
    exact Covers.writeDue hw hbooks (by omega)
  refine yields_bind (safeTransfer_yields 0 hwrite) fun w1 hw1 => ?_
  refine yields_bind (yields_addU fun _ h => h) fun total _ => ?_
  exact Covers.same hw1.1 ⟨⟨rfl, rfl, rfl, rfl, rfl, rfl⟩, rfl, Grants.same rfl rfl rfl⟩

/-! ## Deferred claims -/

theorem claim_le (hb : Books n s) (h : (s.deferredClaims id).claimant ≠ 0) : id ≤ s.deferredClaimCount := by
  by_contra hlt
  rw [hb.noClaim id (by omega)] at h
  exact h rfl

/-- Executing a claim frees its amount, and the deferred total is enough for it. -/
theorem markExecuted_yields (hb : Books n s) (hclaimant : (s.deferredClaims id).claimant ≠ 0)
    (hopen : ¬ (s.deferredClaims id).claimed = true) :
    Yields (fun s' => Books n s' ∧ locked s' + (s.deferredClaims id).amount = locked s) (Funded replies)
      (markExecuted id s) := by
  have hid : id ∈ range (s.deferredClaimCount + 1) := mem_range.mpr (by have := claim_le hb hclaimant; omega)
  have hamount : unclaimed (s.deferredClaims id) = (s.deferredClaims id).amount := if_neg hopen
  have hclosed : unclaimed (s.deferredClaims id).execute = 0 := if_pos rfl
  have hof : ∀ a, deferredOf s a = (∑ x ∈ range (s.deferredClaimCount + 1),
      if (update s.deferredClaims id (s.deferredClaims id).execute x).claimant = a then
        unclaimed (update s.deferredClaims id (s.deferredClaims id).execute x) else 0)
      + if (s.deferredClaims id).claimant = a then (s.deferredClaims id).amount else 0 := by
    intro a
    have hsum := sum_update hid (fun _ c => if c.claimant = a then unclaimed c else 0) s.deferredClaims
      (s.deferredClaims id).execute
    rw [hclosed, hamount, ite_self] at hsum
    rw [deferredOf]
    omega
  have henough : (s.deferredClaims id).amount ≤ s.totalDeferred (s.deferredClaims id).claimant := by
    rw [hb.deferred, hof, if_pos rfl]
    exact Nat.le_add_left _ _
  rw [markExecuted]
  refine yields_bind (yields_subU henough) fun deferred hdeferred => ?_
  refine ⟨⟨hb.noEscrow, fun x hx => ?_, fun a => ?_, hb.noRoutes,
    hb.grants.noProposal, hb.grants.counted, hb.grants.booked⟩, ?_⟩
  · have hx : s.deferredClaimCount < x := hx
    show update s.deferredClaims id _ x = noClaim
    rw [update_of_ne (by have := mem_range.mp hid; omega)]
    exact hb.noClaim x hx
  · show update s.totalDeferred (s.deferredClaims id).claimant deferred a = ∑ x ∈ range (s.deferredClaimCount + 1),
      if (update s.deferredClaims id (s.deferredClaims id).execute x).claimant = a then
        unclaimed (update s.deferredClaims id (s.deferredClaims id).execute x) else 0
    have hold := hof a
    rw [← hb.deferred] at hold
    by_cases ha : a = (s.deferredClaims id).claimant
    · subst ha
      rw [if_pos rfl] at hold
      rw [update_self]
      omega
    · rw [if_neg fun h => ha h.symm] at hold
      rw [update_of_ne ha]
      omega
  · have hsum := sum_update hid (fun _ c => unclaimed c) s.deferredClaims
      (s.deferredClaims id).execute
    rw [hclosed, hamount] at hsum
    show s.grantPoolBalance + openEscrows s + (∑ x ∈ range (s.deferredClaimCount + 1),
      unclaimed (update s.deferredClaims id (s.deferredClaims id).execute x)) + _
        = s.grantPoolBalance + openEscrows s + unclaimedClaims s
    rw [unclaimedClaims]
    omega

theorem executeDeferredClaim_yields {claimId : Nat} (hw : Covers (Books n) owed 0 w) :
    Yields (Covers (Books n) owed 0) (Funded replies) (executeDeferredClaim m replies claimId w) := by
  rw [executeDeferredClaim]
  refine yields_revertIf_bind (fun _ _ h => h) fun _ => ?_
  refine yields_revertIf_bind (fun _ _ h => h) fun hclaimant => ?_
  refine yields_revertIf_bind (fun _ _ h => h) fun hopen => ?_
  refine yields_revertIf_bind (fun _ _ h => h) fun _ => ?_
  refine yields_bind (markExecuted_yields hw.books hclaimant hopen) fun s hs => ?_
  refine yields_bind (yields_mulU fun _ h => h) fun scaled hscaled => ?_
  have hfee : scaled / totalBps ≤ (w.state.deferredClaims claimId).amount := by
    rw [hscaled.2]
    exact protocolFee_le _
  generalize scaled / totalBps = fee at hfee
  refine yields_bind (yields_subU hfee) fun claimantAmount hamount => ?_
  have hwrite : Covers (Books n) owed (0 + due claimantAmount) (w.write s) := by
    rw [← due_zero 0] at hw
    exact Covers.writeDue hw hs.1 (by omega)
  refine yields_bind (safeTransfer_yields 0 hwrite) fun w1 hw1 => ?_
  refine yields_bind (yields_addU fun _ h => h) fun collected _ => ?_
  refine yields_bind (yields_addU fun _ h => h) fun total _ => ?_
  exact Covers.same hw1.1 ⟨⟨rfl, rfl, rfl, rfl, rfl, rfl⟩, rfl, Grants.same rfl rfl rfl⟩

/-! ## Grants -/

/-- A proposal that may be claimed is among those the pool bears. -/
theorem granted_le (hgrants : Grants n s) (hcount : s.grantProposalCount = n)
    (hcreated : (s.grantProposals index).createdAt ≠ 0)
    (hasked : openGrant (lastProposed s) (s.grantProposals index) = (s.grantProposals index).amount) :
    (s.grantProposals index).amount ≤ s.grantPoolBalance := by
  have hindex : index ≤ s.grantProposalCount := by
    by_contra hlt
    rw [hgrants.noProposal index (by omega)] at hcreated
    exact hcreated rfl
  have hsum := single_le_sum (f := fun id => openGrant (lastProposed s) (s.grantProposals id))
    (fun _ _ => Nat.zero_le _) (mem_range.mpr (show index < s.grantProposalCount + 1 by omega))
  have hbooked := hgrants.booked hcount
  rw [openGrants] at hbooked
  omega

theorem markGranted_yields {P : Revert → Prop} (hgrants : Grants n s)
    (hcreated : (s.grantProposals index).createdAt ≠ 0)
    (hasked : openGrant (lastProposed s) (s.grantProposals index) = (s.grantProposals index).amount)
    (h : (s.grantProposals index).amount ≤ s.grantPoolBalance) :
    Yields (fun s' => SameClaims s s' ∧ s'.grantPoolBalance + (s.grantProposals index).amount = s.grantPoolBalance
      ∧ Grants n s') P (markGranted m index s) := by
  rw [markGranted]
  refine yields_bind (yields_subU h) fun pool hpool => ?_
  refine ⟨⟨rfl, rfl, rfl, rfl, rfl, rfl⟩, ?_, hgrants.change rfl rfl hcreated rfl ?_⟩
  · show pool + _ = _
    omega
  · have hexecuted : openGrant (lastProposed s) { s.grantProposals index with executed := true }
      = 0 := if_pos (.inl rfl)
    rw [hexecuted, hasked]
    show 0 + s.grantPoolBalance ≤ (s.grantProposals index).amount + pool
    omega

/-- **GRANTED**: out of the pool, which bears every open proposal. -/
theorem claimGrant_yields (hw : Covers (Books n) owed 0 w) (hcount : w.state.grantProposalCount = n)
    (htime : lastProposed w.state ≤ m.timestamp) :
    Yields (Covers (Books n) owed 0) (Funded replies) (claimGrant m replies index w) := by
  rw [claimGrant]
  refine yields_revertIf_bind (fun _ _ h => h) fun _ => ?_
  refine yields_revertIf_bind (fun _ _ h => h) fun hcreated => ?_
  refine yields_revertIf_bind (fun _ _ h => h) fun hopen => ?_
  have hgrants := hw.books.grants
  split
  · refine Covers.same hw ⟨⟨rfl, rfl, rfl, rfl, rfl, rfl⟩, rfl, fun n hgrants => hgrants.change rfl rfl hcreated rfl ?_⟩
    have hcancelled : openGrant (lastProposed w.state) { w.state.grantProposals index with cancelled := true } = 0 :=
      if_pos (.inr (.inl rfl))
    rw [hcancelled]
    exact Nat.add_le_add_right (Nat.zero_le _) _
  · rename_i hrecent
    have hasked : openGrant (lastProposed w.state) (w.state.grantProposals index)
        = (w.state.grantProposals index).amount := by
      refine if_neg fun hclosed => ?_
      rcases hclosed with hexecuted | hcancelled | hold
      · exact hopen (.inl hexecuted)
      · exact hopen (.inr hcancelled)
      · omega
    have hpool := granted_le hgrants hcount hcreated hasked
    refine yields_revertIf_bind (fun _ _ h => h) fun _ => ?_
    refine yields_revertIf_bind (fun hshort _ _ => absurd hpool (Nat.not_le.mpr hshort)) fun _ => ?_
    refine yields_bind (markGranted_yields hgrants hcreated hasked hpool) fun s hs => ?_
    have hlocked := hs.1.locked
    have hwrite : Covers (Books n) owed (0 + due (w.state.grantProposals index).amount) (w.write s) := by
      rw [← due_zero 0] at hw
      exact Covers.writeDue hw (hs.1.books hw.books hs.2.2) (by omega)
    exact (safeTransfer_yields 0 hwrite).mono (fun w' h => h.1) fun e h => h

/-! ## Runs -/

def Unlocked (s : State) : Call → Prop
  | .distribute => locked s = 0
  | _ => True

instance decidableUnlocked (s : State) : (call : Call) → Decidable (Unlocked s call)
  | .distribute => instDecidableEqNat (locked s) 0
  | .createEscrow .. | .claimEscrow .. | .refundEscrow .. | .executeDeferredClaim .. | .claimGrant .. | .openCall .. =>
    .isTrue trivial

/-- What the run is asked: it distributes while nothing is locked, time does not go back behind the last proposal,
    and a transaction that proposes, itself or through an account it pays, leaves the open proposals within the pool. -/
structure InOrder (w : World) (tx : Tx) : Prop where
  unlocked : Unlocked w.state tx.call
  inTime : lastProposed w.state ≤ tx.msg.timestamp
  booked : (step w tx).state.grantProposalCount ≠ w.state.grantProposalCount →
    openGrants (step w tx).state ≤ (step w tx).state.grantPoolBalance

instance decidableInOrder (w : World) (tx : Tx) : Decidable (InOrder w tx) :=
  decidable_of_iff (Unlocked w.state tx.call ∧ lastProposed w.state ≤ tx.msg.timestamp
      ∧ ((step w tx).state.grantProposalCount ≠ w.state.grantProposalCount →
        openGrants (step w tx).state ≤ (step w tx).state.grantPoolBalance))
    ⟨fun h => ⟨h.1, h.2.1, h.2.2⟩, fun h => ⟨h.unlocked, h.inTime, h.booked⟩⟩

/-- The storage is in order, with the proposals made so far within the pool. -/
abbrev Sound (w : World) : Prop := Covers (Books w.state.grantProposalCount) owed 0 w

theorem step_covers (htx : InOrder w tx) (hw : Sound w) : Sound (step w tx) := by
  have hnext : Covers (Books w.state.grantProposalCount) owed 0 (step w tx) := by
    obtain ⟨m, call, replies⟩ := tx
    rw [step]
    split
    · rename_i w' h
      cases call with
      | distribute =>
        exact distribute_covers hw htx.unlocked h
      | createEscrow value payee maxAmount taskId duration =>
        exact createEscrow_covers hw h
      | claimEscrow escrowId claimAmount =>
        exact (claimEscrow_yields hw).ok h
      | refundEscrow escrowId =>
        exact (refundEscrow_yields hw).ok h
      | executeDeferredClaim claimId =>
        exact (executeDeferredClaim_yields hw).ok h
      | claimGrant index =>
        exact (claimGrant_yields hw rfl htx.inTime).ok h
      | openCall call =>
        exact execOpen_covers hw h
    · exact hw
  by_cases hcount : (step w tx).state.grantProposalCount = w.state.grantProposalCount
  · rw [Sound, hcount]
    exact hnext
  · have hbooks := hnext.books
    exact ⟨⟨hbooks.noEscrow, hbooks.noClaim, hbooks.deferred, hbooks.noRoutes, hbooks.grants.noProposal, Nat.le_refl _,
      fun _ => htx.booked hcount⟩, hnext.enough⟩

theorem start_covers (wallets : Wallets) (now balance : Nat) : Sound (start wallets now balance) := by
  refine ⟨⟨fun _ _ => rfl, fun _ _ => rfl, fun a => ?_, rfl, fun _ _ => rfl, Nat.le_refl _, fun _ => ?_⟩, fun a => ?_⟩
  · refine (sum_eq_zero fun id _ => ?_).symm
    exact ite_self 0
  · exact Nat.le_of_eq (sum_eq_zero fun id _ => ite_self 0)
  · cases a with
    | native => exact Nat.zero_le balance
    | erc20 token => exact Nat.le_refl 0

/-- The calls that pay what was locked. -/
def IsPayout : Call → Prop
  | .claimEscrow .. => True
  | .refundEscrow .. => True
  | .executeDeferredClaim .. => True
  | .claimGrant .. => True
  | _ => False

theorem payout_funded (hw : Sound w) (hpayout : IsPayout tx.call)
    (htime : lastProposed w.state ≤ tx.msg.timestamp)
    (hok : ∀ i, (tx.replies i).ok = true) : Raises (fun e => ¬ LackOfFunds e) (exec tx w) := by
  obtain ⟨m, call, replies⟩ := tx
  cases call with
  | distribute | createEscrow | openCall => exact hpayout.elim
  | claimEscrow escrowId claimAmount =>
    exact fun e h => (claimEscrow_yields hw).raises e h hok
  | refundEscrow escrowId =>
    exact fun e h => (refundEscrow_yields hw).raises e h hok
  | executeDeferredClaim claimId =>
    exact fun e h => (executeDeferredClaim_yields hw).raises e h hok
  | claimGrant index =>
    exact fun e h => (claimGrant_yields hw rfl htime).raises e h hok

/-- **SOLVENT**: in a run in order the balance covers what is locked after every call, and
    no call that pays it out lacks money. -/
theorem locked_covered (wallets : Wallets) (now balance : Nat) (txs : List Tx)
    (horder : Trace.Along step InOrder (start wallets now balance) txs) (before after : List Tx)
    (hsplit : txs = before ++ after) :
    let w := run (start wallets now balance) before
    locked w.state ≤ w.holdings .native
      ∧ ∀ tx, IsPayout tx.call → lastProposed w.state ≤ tx.msg.timestamp → (∀ i, (tx.replies i).ok = true) →
          Raises (fun e => ¬ LackOfFunds e) (exec tx w) := by
  intro w
  subst hsplit
  have hw : Sound w :=
    (Trace.along_append.mp horder).1.keeps Sound (start_covers wallets now balance) fun _ _ => step_covers
  exact ⟨hw.enough .native, fun tx => payout_funded hw⟩

/-! ## Alice's escrow -/

def sampleWallets : Wallets where
  bbbWallet := 0xB1
  getWallet := 0xB2
  stakerVault := 0xB3
  treasuryWallet := 0xB4
  stakePool := 0xB5

/-- The admin holds every role, the others none. -/
def sampleMsg (sender : Address) (timestamp : Nat) (hpositive : 0 < timestamp := by decide)
    (hrange : timestamp < 2 ^ 64 := by decide) : Msg where
  sender := sender
  timestamp := timestamp
  chainid := 361
  holds := fun _ => sender == 0xAD
  positive := hpositive
  inRange := hrange

/-- Every account accepts. -/
def sampleTx (msg : Msg) (call : Call) : Tx where
  msg := msg
  call := call
  replies := fun _ => { ok := true, calls := [] }

theorem sampleTime_positive : 0 < 1700000000 := by decide

theorem sampleTime_inRange : 1700000000 < 2 ^ 64 := by decide

/-- Alice locks 10000 for Bob, for an hour. -/
def sampleEscrow : Tx :=
  sampleTx (sampleMsg 0xA11CE 1700000000 sampleTime_positive sampleTime_inRange)
    (.createEscrow 10000 0xB0B 10000 7 3600)

def sampleDistribute : Tx := sampleTx (sampleMsg 0xCA4 1700000001) .distribute

def sampleRefund : Tx := sampleTx (sampleMsg 0xA11CE 1700003601) (.refundEscrow 1)

/-- Fees are distributed while nothing is locked; Bob asks for the 15 a proposal may ask of a pool of 300, and for 10
    once more; the admin votes for him, and Alice locks. -/
def sampleTxs : List Tx := [
  sampleTx (sampleMsg 0xCA4 1700000000 sampleTime_positive sampleTime_inRange) (.openCall (.depositFee 5000 7)),
  sampleDistribute,
  sampleTx (sampleMsg 0xB0B 1700000002) (.openCall (.agentGrantProposal 1 15 0xB0B)),
  sampleTx (sampleMsg 0xB0B 1700000003) (.openCall (.agentGrantProposal 2 10 0xB0B)),
  sampleTx (sampleMsg 0xAD 1700000004) (.openCall (.voteGrant 1 true)),
  sampleTx (sampleMsg 0xA11CE 1700000005) (.createEscrow 10000 0xB0B 10000 7 3600)]

def sampleGrant : Tx := sampleTx (sampleMsg 0xB0B 1700003606) (.claimGrant 1)

def sampleLateRefund : Tx := sampleTx (sampleMsg 0xA11CE 1700003606) (.refundEscrow 1)

def sampleRun (txs : List Tx) : World := run (start sampleWallets 1700000000 0) txs

theorem locked_covered_sample : locked (sampleRun sampleTxs).state ≤ (sampleRun sampleTxs).holdings .native
    ∧ Raises (fun e => ¬ LackOfFunds e) (exec sampleLateRefund (sampleRun sampleTxs))
    ∧ Raises (fun e => ¬ LackOfFunds e) (exec sampleGrant (sampleRun sampleTxs)) := by
  have horder : Trace.Along step InOrder (start sampleWallets 1700000000 0) sampleTxs := by
    decide +kernel
  have hproposed : lastProposed (sampleRun sampleTxs).state ≤ 1700003606 := by
    decide +kernel
  obtain ⟨hsolvent, hpayout⟩ := locked_covered sampleWallets 1700000000 0 sampleTxs horder sampleTxs [] rfl
  exact ⟨hsolvent, hpayout sampleLateRefund trivial hproposed fun _ => rfl,
    hpayout sampleGrant trivial hproposed fun _ => rfl⟩

/-- `distribute` splits Alice's 10000, of which the grants are all that is left: her
    refund after the hour has no funds. -/
theorem escrow_distributed :
    let w := sampleRun [sampleEscrow, sampleDistribute]
    w.holdings .native = 600 ∧ locked w.state = 10600 ∧ ¬ locked w.state ≤ w.holdings .native
      ∧ exec sampleRefund w = .error (.transferFailed "EscrowRefund") := by
  intro w
  have hheld : w.holdings .native = 600 ∧ locked w.state = 10600 := by
    decide +kernel
  refine ⟨hheld.1, hheld.2, by omega, ?_⟩
  rfl

end RevenueSolvency
