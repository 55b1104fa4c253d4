import Chit402.EscrowRunProofs
import Chit402.EscrowSolvencyProofs

/-! # A withdrawal takes no accepted payout

    Two runs side by side: one in which the owner withdrew, one in which it
    did not.  They differ in the bond and the `closed` flag only, and either
    the bonds agree or both cover the reserve; every bounty, settlement,
    refund and claim then pays the same in both. -/

namespace EscrowReserve

open ExceptFlow Solidity EscrowState EscrowContract EscrowStep EscrowRun EscrowLedger EscrowSolvency
  FiniteSum Function Finset

variable {C : Contract} {m : Msg}

/-- What a withdrawal leaves for accepted payouts. -/
def reserveOf (s : State) : Nat :=
  s.openRequested + min (s.pendingBounties * bounty) (bountyCap - s.bountiesPaid)

/-- The state with the withdrawal, next to the one without it. -/
inductive Kept (s : State) : State → Prop where
  | mk (bond : Nat) (closed : Bool)
      (h : bond = s.bondAccounted ∨ reserveOf s ≤ bond ∧ reserveOf s ≤ s.bondAccounted) :
      Kept s { s with bondAccounted := bond, closed := closed }

variable {c : Call} {amount bond cap paid pending requested : Nat} {s s' : State} {w w' : World}

theorem withdraw_kept (hact : w.escrow.activatedAt ≠ 0) (h : withdraw C m w = .ok w') : Kept w.escrow w'.escrow := by
  obtain ⟨-, -, reserve, hreserve, -, -, hescrow⟩ := withdraw_ok h
  obtain ⟨-, -, -, -, hreserve⟩ := withdrawReserve_ok hreserve hact
  rw [hescrow]
  refine .mk _ _ ?_
  rcases Nat.lt_or_ge w.escrow.bondAccounted reserve with hlt | hge
  · exact Or.inl (Nat.min_eq_left (Nat.le_of_lt hlt))
  · rw [Nat.min_eq_right hge]
    rw [reserveOf, ← hreserve]
    exact Or.inr ⟨Nat.le_refl _, hge⟩

/-! ## Bounties -/

theorem reserveOf_bounty (hpending : 1 ≤ s.pendingBounties) (hcap : s.bountiesPaid + bounty ≤ bountyCap) :
    s.openRequested + bounty ≤ reserveOf s := by
  have hone : bounty ≤ s.pendingBounties * bounty := Nat.le_mul_of_pos_left _ hpending
  rw [reserveOf]
  omega

theorem reserve_paid (hpending : 1 ≤ pending) (hcap : paid + amount ≤ cap)
    (h : requested + min (pending * amount) (cap - paid) ≤ bond) :
    requested + min ((pending - 1) * amount) (cap - (paid + amount)) ≤ bond - amount := by
  have hone : amount ≤ pending * amount := Nat.le_mul_of_pos_left _ hpending
  rw [Nat.sub_mul, Nat.one_mul]
  omega

theorem reserve_dropped (h : requested + min (pending * amount) (cap - paid) ≤ bond) :
    requested + min ((pending - 1) * amount) (cap - paid) ≤ bond := by
  have hle : (pending - 1) * amount ≤ pending * amount :=
    Nat.mul_le_mul_right _ (Nat.sub_le _ _)
  omega

theorem finalizeBounty_kept {epoch : UInt32} (h : Kept s s') :
    Related Kept (finalizeBounty m epoch s) (finalizeBounty m epoch s') := by
  obtain ⟨bond, closed, hbond⟩ := h
  rw [finalizeBounty, finalizeBounty]
  refine related_revertIf_bind fun _ => related_revertIf_bind fun _ => ?_
  refine related_bind fun pending hpending => ?_
  obtain ⟨hone, rfl⟩ := sub_ok_iff.mp hpending
  have hcovers : s.bountiesPaid + bounty ≤ bountyCap →
      (s.openRequested + bounty ≤ bond ↔ s.openRequested + bounty ≤ s.bondAccounted) := by
    intro hcap
    have hreserve := reserveOf_bounty hone hcap
    omega
  rw [reserveOf] at hbond
  dsimp only
  generalize hamount : bounty = amount at hbond hcovers ⊢
  generalize hcap : bountyCap = cap at hbond hcovers ⊢
  by_cases hpay : s.bountiesPaid + amount ≤ cap ∧ s.openRequested + amount ≤ s.bondAccounted
  · have hpay' : s.bountiesPaid + amount ≤ cap ∧ s.openRequested + amount ≤ bond :=
      ⟨hpay.1, (hcovers hpay.1).mpr hpay.2⟩
    rw [if_pos hpay, if_pos hpay', sub_ok_iff.mpr ⟨by omega, rfl⟩, sub_ok_iff.mpr ⟨by omega, rfl⟩, ok_bind, ok_bind]
    refine .ok (.mk (bond - amount) closed ?_)
    rcases hbond with rfl | ⟨hle, hle'⟩
    · exact Or.inl rfl
    · rw [reserveOf, hamount, hcap]
      exact Or.inr ⟨reserve_paid hone hpay.1 hle, reserve_paid hone hpay.1 hle'⟩
  · have hpay' : ¬ (s.bountiesPaid + amount ≤ cap ∧ s.openRequested + amount ≤ bond) :=
      fun hp => hpay ⟨hp.1, (hcovers hp.1).mp hp.2⟩
    rw [if_neg hpay, if_neg hpay']
    refine .ok (.mk bond closed ?_)
    rcases hbond with rfl | ⟨hle, hle'⟩
    · exact Or.inl rfl
    · rw [reserveOf, hamount, hcap]
      exact Or.inr ⟨reserve_dropped hle, reserve_dropped hle'⟩

/-! ## Refunds -/

/-- The open incident asks for no more than the reserve holds, so its pool is the same. -/
theorem settle_kept {incidentId : Nat} (hbooks : Books s) (h : Kept s s') :
    Related Kept (settle m incidentId s) (settle m incidentId s') := by
  obtain ⟨bond, closed, hbond⟩ := h
  rw [settle, settle]
  refine related_revertIf_bind fun hid => related_revertIf_bind fun hsettled => ?_
  refine related_revertIf_bind fun _ => ?_
  dsimp only
  obtain ⟨hid, hle⟩ := not_or.mp hid
  have hsettled := eq_false_of_ne_true hsettled
  obtain rfl := hbooks.last_of_unsettled hid (Nat.not_lt.mp hle) hsettled
  have hrequested : (s.incidents s.incidentCount).requested = s.openRequested := by
    rw [hbooks.openRequested_eq, hsettled]
    rfl
  have hone : 1 ≤ s.openIncidents := by
    rw [hbooks.openIncidents_eq, if_pos ⟨hid, hsettled⟩]
  rw [reserveOf] at hbond
  generalize hrest : min (s.pendingBounties * bounty) (bountyCap - s.bountiesPaid) = rest at hbond
  have hpool : (if (s.incidents s.incidentCount).requested < bond
        then (s.incidents s.incidentCount).requested else bond)
      = if (s.incidents s.incidentCount).requested < s.bondAccounted
        then (s.incidents s.incidentCount).requested else s.bondAccounted := by
    split
    · split
      · rfl
      · omega
    · split
      · omega
      · omega
  rw [hpool]
  generalize hpooled : (if (s.incidents s.incidentCount).requested < s.bondAccounted
    then (s.incidents s.incidentCount).requested else s.bondAccounted) = pool
  have hwithin : pool ≤ s.openRequested ∧ pool ≤ s.bondAccounted ∧ pool ≤ bond := by
    rw [← hpooled]
    split
    · omega
    · omega
  obtain ⟨hpool1, hpool2, hpool3⟩ := hwithin
  rw [sub_ok_iff.mpr ⟨hpool2, rfl⟩, sub_ok_iff.mpr ⟨hpool3, rfl⟩, ok_bind, ok_bind,
    sub_ok_iff.mpr ⟨hone, rfl⟩, ok_bind, ok_bind, sub_ok_iff.mpr ⟨Nat.le_of_eq hrequested, rfl⟩, ok_bind, ok_bind]
  refine .ok (.mk (bond - pool) closed ?_)
  rcases hbond with rfl | ⟨hle, hle'⟩
  · exact Or.inl rfl
  · rw [reserveOf]
    dsimp only
    rw [hrest]
    refine Or.inr ⟨?_, ?_⟩
    · omega
    · omega

/-! ## Payments -/

/-- The same transfers since each run's own start. -/
def SameLog (base base' : List Transfer) (t t' : Token) : Prop :=
  ∃ log, t.transfers = base ++ log ∧ t'.transfers = base' ++ log

variable {base base' : List Transfer}

theorem payOut_sameLog {src dst : Address} {t t' : Token} (h : SameLog base base' t t')
    (hle : amount ≤ t.balanceOf src) (hle' : amount ≤ t'.balanceOf src) :
    Related (SameLog base base') (payOut src dst amount t) (payOut src dst amount t') := by
  obtain ⟨log, hlog, hlog'⟩ := h
  rw [payOut_ok_iff.mpr ⟨hle, rfl⟩, payOut_ok_iff.mpr ⟨hle', rfl⟩]
  refine .ok ⟨log ++ paymentLog src dst amount, ?_, ?_⟩
  · show t.transfers ++ _ = _
    rw [hlog, List.append_assoc]
  · show t'.transfers ++ _ = _
    rw [hlog', List.append_assoc]

/-- The worlds of the two runs after the same calls. -/
structure SideBySide (base base' : List Transfer) (w w' : World) : Prop where
  escrow : Kept w.escrow w'.escrow
  log : SameLog base base' w.token w'.token

theorem onEscrow_side {f : State → Except Revert State} (h : SideBySide base base' w w')
    (hf : Related Kept (f w.escrow) (f w'.escrow)) : Related (SideBySide base base') (onEscrow f w) (onEscrow f w') :=
  hf.bind fun _ _ hkept => .ok ⟨hkept, h.log⟩

theorem claimRefund_side {leafHash : Word} (h : SideBySide base base' w w') (hw : Solvent C w) (hw' : Solvent C w') :
    Related (SideBySide base base') (claimRefund C leafHash w) (claimRefund C leafHash w') := by
  obtain ⟨s', token', donated'⟩ := w'
  obtain ⟨hkept, hlog⟩ := h
  obtain ⟨bond, closed, hbond⟩ := hkept
  rw [claimRefund, claimRefund]
  refine related_revertIf_bind fun hclaim => related_revertIf_bind fun hsettled => ?_
  obtain ⟨hid, hpaid⟩ := not_or.mp hclaim
  have hpaid := eq_false_of_ne_true hpaid
  have hsettled := not_not.mp hsettled
  rw [refundPay_eq]
  refine (payOut_sameLog hlog (refund_covered hw hid hpaid hsettled) ?_).bind fun _ _ hlog => ?_
  · exact refund_covered hw' hid hpaid hsettled
  · exact .ok ⟨.mk bond closed hbond, hlog⟩

theorem claim_side (h : SideBySide base base' w w') (hw : Solvent C w) (hw' : Solvent C w') :
    Related (SideBySide base base') (claim C m w) (claim C m w') := by
  obtain ⟨s', token', donated'⟩ := w'
  obtain ⟨hkept, hlog⟩ := h
  obtain ⟨bond, closed, hbond⟩ := hkept
  rw [claim, claim]
  refine related_revertIf_bind fun hsome => ?_
  rw [safeTransfer_eq_payOut _ hsome, safeTransfer_eq_payOut _ hsome]
  refine (payOut_sameLog hlog (credit_covered hw m.sender) ?_).bind fun _ _ hlog => ?_
  · exact credit_covered hw' m.sender
  · exact .ok ⟨.mk bond closed hbond, hlog⟩

/-! ## The two runs -/

/-- The calls that pay bounties and refunds. -/
inductive Payout : Call → Prop where
  | finalizeBounty (epoch : UInt32) : Payout (.finalizeBounty epoch)
  | settle (incidentId : Nat) : Payout (.settle incidentId)
  | claimRefund (leafHash : Word) : Payout (.claimRefund leafHash)
  | claim : Payout .claim

/-- **STEP**: a payout call fails in both runs, or pays the same in both. -/
theorem exec_side (hc : Payout c) (h : SideBySide base base' w w') (hw : Solvent C w) (hw' : Solvent C w') :
    Related (SideBySide base base') (exec C m c w) (exec C m c w') := by
  cases hc with
  | finalizeBounty epoch => exact onEscrow_side h (finalizeBounty_kept h.escrow)
  | settle incidentId => exact onEscrow_side h (settle_kept hw.books h.escrow)
  | claimRefund leafHash => exact claimRefund_side h hw hw'
  | claim => exact claim_side h hw hw'

theorem step_side (hc : Payout c) {tx : Tx} (haction : tx.action = .call c) (h : SideBySide base base' w w')
    (hw : Solvent C w) (hw' : Solvent C w') : SideBySide base base' (EscrowStep.step C w tx) (EscrowStep.step C w' tx)
      ∧ Solvent C (EscrowStep.step C w tx) ∧ Solvent C (EscrowStep.step C w' tx) := by
  have hside := exec_side (m := tx.msg) hc h hw hw'
  rw [EscrowStep.step, EscrowStep.step, haction]
  dsimp only
  by_cases hself : tx.msg.sender = C.self
  · rw [if_pos hself, if_pos hself]
    exact ⟨h, hw, hw'⟩
  · rw [if_neg hself, if_neg hself]
    cases hexec : exec C tx.msg c w with
    | error e =>
      rw [hexec] at hside
      cases hexec' : exec C tx.msg c w' with
      | error e' => exact ⟨h, hw, hw'⟩
      | ok u' =>
        rw [hexec'] at hside
        cases hside
    | ok u =>
      rw [hexec] at hside
      cases hexec' : exec C tx.msg c w' with
      | error e' =>
        rw [hexec'] at hside
        cases hside
      | ok u' =>
        rw [hexec'] at hside
        cases hside with
        | ok hside =>
          exact ⟨hside, exec_solvent hw hself hexec, exec_solvent hw' hself hexec'⟩

theorem run_side {txs : List Tx} (hpay : ∀ tx ∈ txs, ∃ c, tx.action = .call c ∧ Payout c)
    (h : SideBySide base base' w w') (hw : Solvent C w) (hw' : Solvent C w') :
    SideBySide base base' (run C w txs) (run C w' txs) := by
  induction txs generalizing w w' with
  | nil => exact h
  | cons tx txs ih =>
    obtain ⟨c, haction, hc⟩ := hpay tx List.mem_cons_self
    obtain ⟨hside, hw, hw'⟩ := step_side hc haction h hw hw'
    exact ih (fun tx' hmem => hpay tx' (List.mem_cons_of_mem _ hmem)) hside hw hw'

/-- What `payee` got in a list of transfers. -/
def received (payee : Address) (log : List Transfer) : Nat :=
  ((log.filter fun t => t.dst = payee).map fun t => t.amount).sum

/-- **WITHDRAWAL TAKES NO ACCEPTED PAYOUT**: after a withdrawal of an activated escrow, any
    calls that finalize, settle and pay make the same transfers, in the same order, as
    without it. -/
theorem withdraw_keeps_payouts {w w' : World} {now : Nat} {tx : Tx} (h : Reachable C w now)
    (hact : w.escrow.activatedAt ≠ 0) (hwithdraw : Executes C w tx .withdraw w')
    {txs : List Tx} (hpay : ∀ tx' ∈ txs, ∃ c, tx'.action = .call c ∧ Payout c) :
    (∃ log, (run C w txs).token.transfers = w.token.transfers ++ log
        ∧ (run C w' txs).token.transfers = w'.token.transfers ++ log) ∧ (∀ payee,
          received payee (run C w txs).token.transfers + received payee w'.token.transfers
            = received payee (run C w' txs).token.transfers + received payee w.token.transfers)
      ∧ Kept (run C w txs).escrow (run C w' txs).escrow := by
  have hw := solvent h
  have hw' := exec_solvent hw hwithdraw.2.1 hwithdraw.2.2
  have hside : SideBySide w.token.transfers w'.token.transfers w w' :=
    ⟨withdraw_kept hact hwithdraw.2.2, [], (List.append_nil _).symm, (List.append_nil _).symm⟩
  obtain ⟨hkept, log, hlog, hlog'⟩ := run_side hpay hside hw hw'
  refine ⟨⟨log, hlog, hlog'⟩, fun payee => ?_, hkept⟩
  have happend : ∀ base : List Transfer,
      received payee (base ++ log) = received payee base + received payee log := by
    intro base
    rw [received, List.filter_append, List.map_append, List.sum_append]
    rfl
  rw [hlog, hlog', happend, happend]
  omega

/-- The bounty, the settlement, the refund and the claim of the forked epoch. -/
def forkPayoutTxs : List Tx := [
  forkTx forkCarol 1802505900 (.finalizeBounty 7),
  forkTx forkCarol 1802505901 (.settle 1),
  forkTx forkCarol 1802505901 (.claimRefund forkLeaf1),
  forkTx forkAlice 1802505901 .claim]

/-- After the owner has left, the payer still gets two USDC and the reporter fifty. -/
theorem withdraw_keeps_payouts_sample :
    ∃ w', Executes forkContract (forkRun (forkTxs forkCarol forkCarolCommitment forkCarolSig))
        (forkTx forkOwner 1802505900 .withdraw) .withdraw w'
      ∧ received forkCarol (run forkContract w' forkPayoutTxs).token.transfers
        = received forkCarol w'.token.transfers + 2000000
      ∧ received forkAlice (run forkContract w' forkPayoutTxs).token.transfers
        = received forkAlice w'.token.transfers + 50000000 := by
  have hreach : Reachable forkContract
      (forkRun (forkTxs forkCarol forkCarolCommitment forkCarolSig)) 1801296300 :=
    fork_reachable (by decide) (by decide)
  have hfacts : (forkRun (forkTxs forkCarol forkCarolCommitment forkCarolSig)).escrow.activatedAt
        ≠ 0
      ∧ (exec forkContract (forkMsg forkOwner 1802505900) .withdraw
          (forkRun (forkTxs forkCarol forkCarolCommitment forkCarolSig))).toOption.isSome = true
      ∧ received forkCarol (run forkContract
          (forkRun (forkTxs forkCarol forkCarolCommitment forkCarolSig))
          forkPayoutTxs).token.transfers = 2000000
      ∧ received forkAlice (run forkContract
          (forkRun (forkTxs forkCarol forkCarolCommitment forkCarolSig))
          forkPayoutTxs).token.transfers = 50000000
      ∧ received forkCarol
          (forkRun (forkTxs forkCarol forkCarolCommitment forkCarolSig)).token.transfers = 0
      ∧ received forkAlice
          (forkRun (forkTxs forkCarol forkCarolCommitment forkCarolSig)).token.transfers = 0 := by
    decide +kernel
  obtain ⟨hact, hsome, hcarol, halice, hcarol0, halice0⟩ := hfacts
  obtain ⟨w', hw'⟩ := exec_of_isSome hsome
  have hwithdraw : Executes forkContract
      (forkRun (forkTxs forkCarol forkCarolCommitment forkCarolSig))
      (forkTx forkOwner 1802505900 .withdraw) .withdraw w' := ⟨rfl, by decide, hw'⟩
  have hpay : ∀ tx ∈ forkPayoutTxs, ∃ c, tx.action = .call c ∧ Payout c := by
    intro tx hmem
    simp only [forkPayoutTxs, List.mem_cons, List.not_mem_nil, or_false] at hmem
    rcases hmem with rfl | rfl | rfl | rfl
    · exact ⟨_, rfl, .finalizeBounty 7⟩
    · exact ⟨_, rfl, .settle 1⟩
    · exact ⟨_, rfl, .claimRefund forkLeaf1⟩
    · exact ⟨_, rfl, .claim⟩
  obtain ⟨-, hreceived, -⟩ := withdraw_keeps_payouts hreach hact hwithdraw hpay
  have hcarol' := hreceived forkCarol
  have halice' := hreceived forkAlice
  exact ⟨w', hwithdraw, by omega, by omega⟩

end EscrowReserve
