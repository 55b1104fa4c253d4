import Chit402.EscrowRunProofs
import Chit402.EscrowSolvencyProofs
import Mathlib.Order.Interval.Finset.Nat

/-! # No call fails for lack of funds

    In a solvent world every checked subtraction of the contract goes through,
    and so does every payment out of it.  What is left is a revert of the
    contract's own, or an owner who funds more than it holds. -/

namespace EscrowSound

open ExceptFlow Solidity EscrowState EscrowContract EscrowStep EscrowRun EscrowLedger EscrowSolvency
  FiniteSum Function Finset

variable {C : Contract} {m : Msg}

/-- Neither a failing subtraction nor a failing payment. -/
def Sound (e : Revert) : Prop := e ≠ .underflow ∧ e ≠ .transferFailed

instance (e : Revert) : Decidable (Sound e) := inferInstanceAs (Decidable (_ ∧ _))

theorem sub_sound {a b : Nat} (h : b ≤ a) : Raises Sound (sub a b) := by
  rw [sub, if_neg (Nat.not_lt.mpr h)]
  exact raises_ok _

theorem add_sound (w a b : Nat) : Raises Sound (add w a b) := by
  rw [add]
  split
  · exact raises_error (by decide)
  · exact raises_ok _

theorem payOut_sound {src dst : Address} {amount : Nat} {t : Token}
    (h : amount ≤ t.balanceOf src) : Raises Sound (payOut src dst amount t) := by
  obtain ⟨t', ht'⟩ : ∃ t', payOut src dst amount t = .ok t' := ⟨_, payOut_ok_iff.mpr ⟨h, rfl⟩⟩
  rw [ht']
  exact raises_ok _

variable {payTo : Address} {evidenceType : Nat} {s : State} {epoch : UInt32} {salt : Word} {w : World}

theorem onEscrow_sound {f : State → Except Revert State} (h : Raises Sound (f w.escrow)) :
    Raises Sound (onEscrow f w) :=
  raises_bind h fun _ _ => raises_ok _

/-! ## Owner calls -/

theorem quarantineEntries_sound (highWater entries : List HeadRef) (quarantined : Word → Bool) :
    Raises Sound (quarantineEntries C highWater entries quarantined) := by
  induction entries generalizing quarantined with
  | nil => exact raises_ok _
  | cons e entries ih =>
    rw [quarantineEntries]
    split
    · exact ih _
    · exact raises_error (by decide)

theorem pinQuarantineList_sound (listHash : Word) (entries highWater : List HeadRef) (s : State) :
    Raises Sound (pinQuarantineList C m listHash entries highWater s) := by
  rw [pinQuarantineList]
  iterate 5 refine raises_revertIf_bind (by decide) fun _ => ?_
  exact raises_bind (quarantineEntries_sound _ _ _) fun _ _ => raises_ok _

theorem safeTransfer_sound (src dst : Address) (amount : Nat) (t : Token) :
    Raises (fun e => e ≠ .underflow) (safeTransfer src dst amount t) := by
  rw [safeTransfer]
  split
  · exact raises_error (by decide)
  · exact raises_ok _

/-- Funding may find the owner short of tokens, and never underflows. -/
theorem fund_sound (amount : Nat) (w : World) : Raises (fun e => e ≠ .underflow) (fund C m amount w) := by
  rw [fund]
  iterate 3 refine raises_revertIf_bind (by decide) fun _ => ?_
  refine raises_bind ?_ fun _ _ => ?_
  · rw [safeTransferFrom]
    split
    · exact raises_error (by decide)
    · exact safeTransfer_sound _ _ _ _
  · exact raises_revertIf_bind (by decide) fun _ => raises_ok _

theorem activate_sound (s : State) : Raises Sound (activate C m s) := by
  rw [activate]
  iterate 4 refine raises_revertIf_bind (by decide) fun _ => ?_
  exact raises_ok _

theorem giveNotice_sound (s : State) : Raises Sound (giveNotice C m s) := by
  rw [giveNotice]
  iterate 4 refine raises_revertIf_bind (by decide) fun _ => ?_
  exact raises_ok _

theorem cancelNotice_sound (s : State) : Raises Sound (cancelNotice C m s) := by
  rw [cancelNotice]
  iterate 3 refine raises_revertIf_bind (by decide) fun _ => ?_
  exact raises_ok _

theorem withdrawReserve_sound (h : Books s) : Raises Sound (withdrawReserve m s) := by
  rw [withdrawReserve]
  split
  · iterate 3 refine raises_revertIf_bind (by decide) fun _ => ?_
    exact raises_bind (sub_sound h.bountiesPaid_le) fun _ _ => raises_ok _
  · exact raises_ok _

theorem withdraw_sound (h : Solvent C w) : Raises Sound (withdraw C m w) := by
  rw [withdraw]
  iterate 2 refine raises_revertIf_bind (by decide) fun _ => ?_
  refine raises_bind (withdrawReserve_sound h.books) fun reserve _ => ?_
  refine raises_bind (sub_sound ?_) fun amount hamount => ?_
  · split
    · exact Nat.le_refl _
    · omega
  · have hle : amount ≤ w.token.balanceOf C.self := by
      rw [(sub_ok_iff.mp hamount).2]
      exact Nat.le_trans (Nat.sub_le _ _) (bond_covered h)
    exact raises_bind (payOut_sound hle) fun _ _ => raises_ok _

/-! ## Commit and reveal -/

theorem commit_sound (c : Word) (s : State) : Raises Sound (commit m c s) := by
  rw [commit]
  iterate 3 refine raises_revertIf_bind (by decide) fun _ => ?_
  split
  · exact raises_error (by decide)
  · exact raises_bind (add_sound _ _ _) fun _ _ => raises_ok _

theorem consumeCommit_sound (payTo : Address) (evidenceType : Nat) (evidenceHash salt : Word)
    (s : State) : Raises Sound (consumeCommit C m payTo evidenceType evidenceHash salt s) := by
  rw [consumeCommit]
  iterate 5 refine raises_revertIf_bind (by decide) fun _ => ?_
  exact raises_ok _

theorem checkHead_sound (h : TreeHead) (sig : Sig) (s : State) : Raises Sound (checkHead C h sig s) := by
  rw [checkHead]
  iterate 2 refine raises_revertIf_bind (by decide) fun _ => ?_
  exact raises_revertIf (by decide)

section

variable (h : s.frozenUsed ≤ freezeCap)
include h

theorem openOrJoin_sound : Raises Sound (openOrJoin C m epoch s) := by
  rw [openOrJoin]
  dsimp only
  split
  · refine raises_revertIf_bind (by decide) fun _ => ?_
    refine raises_bind (sub_sound h) fun room _ => ?_
    generalize (if room < claimWindow then room else claimWindow) = d
    split
    · exact raises_bind (add_sound _ _ _) fun _ _ => raises_ok _
    · exact raises_ok _
  · exact raises_revertIf_bind (by decide) fun _ => raises_ok _

theorem record_sound {key : Word} {seq : Nat} {lo hi : Word} :
    Raises Sound (record C m key evidenceType epoch seq payTo lo hi s) := by
  rw [record]
  refine raises_revertIf_bind (by decide) fun _ => ?_
  exact raises_bind (openOrJoin_sound h) fun _ _ => raises_ok _

/-- Consuming a commit keeps the freeze accounting. -/
theorem consumed_frozenUsed {evidenceHash : Word} {consumed : Nat × State}
    (hcommit : consumeCommit C m payTo evidenceType evidenceHash salt s = .ok consumed) :
    consumed.2.frozenUsed ≤ freezeCap := by
  obtain ⟨-, -, -, commits, heq⟩ := consumeCommit_ok hcommit
  rw [heq]
  exact h

theorem revealA_sound {h1 h2 : TreeHead} {s1 s2 : Sig} : Raises Sound (revealA C m h1 s1 h2 s2 payTo salt s) := by
  rw [revealA]
  refine raises_bind (consumeCommit_sound _ _ _ _ _) fun consumed hcommit => ?_
  refine raises_revertIf_bind (by decide) fun _ => ?_
  refine raises_bind (checkHead_sound _ _ _) fun _ _ => ?_
  refine raises_bind (checkHead_sound _ _ _) fun _ _ => ?_
  exact record_sound (consumed_frozenUsed h hcommit)

theorem revealB_sound {ev : EvidenceB} : Raises Sound (revealB C m ev payTo salt s) := by
  rw [revealB]
  refine raises_bind (consumeCommit_sound _ _ _ _ _) fun consumed hcommit => ?_
  iterate 2 refine raises_revertIf_bind (by decide) fun _ => ?_
  refine raises_bind (checkHead_sound _ _ _) fun _ _ => ?_
  refine raises_bind (checkHead_sound _ _ _) fun _ _ => ?_
  iterate 2 refine raises_revertIf_bind (by decide) fun _ => ?_
  exact record_sound (consumed_frozenUsed h hcommit)

end

/-! ## Bounties and refunds -/

theorem finalizeBounty_sound (h : Books s) : Raises Sound (finalizeBounty m epoch s) := by
  rw [finalizeBounty]
  refine raises_revertIf_bind (by decide) fun hpending => ?_
  refine raises_revertIf_bind (by decide) fun _ => raises_bind (sub_sound ?_) fun _ _ => ?_
  · -- this epoch's bounty is one of those counted
    obtain ⟨hfirst, hfinal⟩ := not_or.mp hpending
    have hone : pendingShare (s.bounties epoch) = 1 :=
      if_pos ⟨hfirst, eq_false_of_ne_true hfinal⟩
    rw [h.pending_eq, ← hone]
    exact single_le_sum (f := fun e => pendingShare (s.bounties e)) (fun _ _ => Nat.zero_le _)
      (mem_univ epoch)
  · split
    · rename_i hpay
      refine raises_bind (sub_sound ?_) fun _ _ => raises_ok _
      exact Nat.le_trans (Nat.le_add_left _ _) hpay.2
    · exact raises_ok _

theorem registerRefund_sound (key : Word) (b : ReceiptBinding) (sig : Sig) (payer : Address)
    (payerSalt : Word) (s : State) : Raises Sound (registerRefund C m key b sig payer payerSalt s) := by
  rw [registerRefund]
  iterate 8 refine raises_revertIf_bind (by decide) fun _ => ?_
  exact raises_ok _

/-- The incident being settled is the open one, so both counters cover it. -/
theorem settle_sound {incidentId : Nat} (h : Books s) : Raises Sound (settle m incidentId s) := by
  rw [settle]
  refine raises_revertIf_bind (by decide) fun hid => ?_
  refine raises_revertIf_bind (by decide) fun hsettled => ?_
  obtain ⟨hid, hle⟩ := not_or.mp hid
  have hsettled := eq_false_of_ne_true hsettled
  obtain rfl := h.last_of_unsettled hid (Nat.not_lt.mp hle) hsettled
  refine raises_revertIf_bind (by decide) fun _ => raises_bind (sub_sound ?_) fun _ _ => ?_
  · split
    · omega
    · exact Nat.le_refl _
  · refine raises_bind (sub_sound ?_) fun _ _ => raises_bind (sub_sound ?_) fun _ _ => raises_ok _
    · rw [h.openIncidents_eq, if_pos ⟨hid, hsettled⟩]
    · rw [h.openRequested_eq, hsettled]
      exact Nat.le_refl _

theorem claimRefund_sound {leafHash : Word} (h : Solvent C w) : Raises Sound (claimRefund C leafHash w) := by
  rw [claimRefund]
  refine raises_revertIf_bind (by decide) fun hclaim => ?_
  refine raises_revertIf_bind (by decide) fun hsettled => ?_
  rw [refundPay_eq]
  obtain ⟨hid, hpaid⟩ := not_or.mp hclaim
  have hle := refund_covered h hid (eq_false_of_ne_true hpaid) (not_not.mp hsettled)
  exact raises_bind (payOut_sound hle) fun _ _ => raises_ok _

theorem claim_sound (h : Solvent C w) : Raises Sound (claim C m w) := by
  rw [claim]
  refine raises_revertIf_bind (by decide) fun hsome => ?_
  rw [safeTransfer_eq_payOut _ hsome]
  exact raises_bind (payOut_sound (credit_covered h m.sender)) fun _ _ => raises_ok _

/-- **NO CALL FAILS FOR LACK OF FUNDS** in a solvent world. -/
theorem exec_sound (h : Solvent C w) (c : Call) (hfund : ∀ amount, c ≠ .fund amount) : Raises Sound (exec C m c w) := by
  have hcap := h.books.frozenUsed_le
  cases c with
  | pinQuarantineList listHash entries highWater =>
    exact onEscrow_sound (pinQuarantineList_sound _ _ _ _)
  | fund amount => exact absurd rfl (hfund amount)
  | activate => exact onEscrow_sound (activate_sound _)
  | giveNotice => exact onEscrow_sound (giveNotice_sound _)
  | cancelNotice => exact onEscrow_sound (cancelNotice_sound _)
  | withdraw => exact withdraw_sound h
  | commit c => exact onEscrow_sound (commit_sound _ _)
  | revealA h1 s1 h2 s2 payTo salt => exact onEscrow_sound (revealA_sound hcap)
  | revealB ev payTo salt => exact onEscrow_sound (revealB_sound hcap)
  | finalizeBounty epoch => exact onEscrow_sound (finalizeBounty_sound h.books)
  | registerRefund key b sig payer payerSalt =>
    exact onEscrow_sound (registerRefund_sound _ _ _ _ _ _)
  | settle incidentId => exact onEscrow_sound (settle_sound h.books)
  | claimRefund leafHash => exact claimRefund_sound h
  | claim => exact claim_sound h

/-! ## The books as sets -/

def settledIncidents (s : State) : Finset Nat :=
  (Icc 1 s.incidentCount).filter fun i => (s.incidents i).settled = true

def unsettledIncidents (s : State) : Finset Nat :=
  (Icc 1 s.incidentCount).filter fun i => (s.incidents i).settled = false

def pendingEpochs (s : State) : Finset UInt32 :=
  univ.filter fun e => (s.bounties e).firstRevealAt ≠ 0 ∧ (s.bounties e).finalized = false

theorem obligations_eq (h : Books s) : obligations s = s.bondAccounted + ∑ a, s.credits a
      + ∑ i ∈ settledIncidents s, ((s.incidents i).pool - paidOut s i) := by
  have hsub : settledIncidents s ⊆ range (s.incidentCount + 1) := by
    intro i hi
    have hi := (mem_Icc.mp (mem_filter.mp hi).1).2
    exact mem_range.mpr (Nat.lt_succ_of_le hi)
  have hrest : ∀ i ∈ range (s.incidentCount + 1), i ∉ settledIncidents s → unclaimed s i = 0 := by
    intro i hi hnot
    rcases Nat.eq_zero_or_pos i with rfl | hpos
    · exact h.unclaimed_zero
    · refine unclaimed_unsettled (eq_false_of_ne_true fun hs => hnot ?_)
      exact mem_filter.mpr ⟨mem_Icc.mpr ⟨hpos, Nat.le_of_lt_succ (mem_range.mp hi)⟩, hs⟩
  have hpools : ∑ i ∈ settledIncidents s, unclaimed s i
      = ∑ i ∈ settledIncidents s, ((s.incidents i).pool - paidOut s i) :=
    sum_congr rfl fun i hi => unclaimed_settled (mem_filter.mp hi).2
  rw [obligations, ← sum_subset hsub hrest, hpools]

theorem unsettledIncidents_eq (h : Books s) : unsettledIncidents s
      = if s.incidentCount ≠ 0 ∧ (s.incidents s.incidentCount).settled = false then {s.incidentCount} else ∅ := by
  ext i
  rw [unsettledIncidents, mem_filter, mem_Icc]
  split
  · rename_i hopen
    rw [mem_singleton]
    constructor
    · rintro ⟨⟨h1, hle⟩, hsettled⟩
      exact h.last_of_unsettled (Nat.ne_of_gt h1) hle hsettled
    · rintro rfl
      exact ⟨⟨Nat.pos_of_ne_zero hopen.1, Nat.le_refl _⟩, hopen.2⟩
  · rename_i hnone
    refine iff_of_false ?_ (notMem_empty i)
    rintro ⟨⟨h1, hle⟩, hsettled⟩
    obtain rfl := h.last_of_unsettled (Nat.ne_of_gt h1) hle hsettled
    exact hnone ⟨Nat.ne_of_gt h1, hsettled⟩

theorem openIncidents_card (h : Books s) : s.openIncidents = (unsettledIncidents s).card := by
  rw [h.openIncidents_eq, unsettledIncidents_eq h]
  split
  · rfl
  · rfl

theorem openRequested_sum (h : Books s) : s.openRequested = ∑ i ∈ unsettledIncidents s, (s.incidents i).requested := by
  rw [h.openRequested_eq, unsettledIncidents_eq h]
  split
  · rename_i hsettled
    have hnone : ¬ (s.incidentCount ≠ 0 ∧ (s.incidents s.incidentCount).settled = false) :=
      fun hopen => Bool.false_ne_true (hopen.2.symm.trans hsettled)
    rw [if_neg hnone, sum_empty]
  · rename_i hsettled
    split
    · rw [sum_singleton]
    · rename_i hnone
      rw [sum_empty]
      have h0 : s.incidentCount = 0 := by
        by_contra h0
        exact hnone ⟨h0, eq_false_of_ne_true hsettled⟩
      rw [h0, h.zeroth]
      rfl

theorem pendingBounties_card (h : Books s) : s.pendingBounties = (pendingEpochs s).card := by
  rw [h.pending_eq, pendingEpochs, card_filter]
  rfl

/-- **THE LEDGER OF THE ESCROW**, in every reachable world: the balance covers what is owed,
    the counters count, and no call underflows or finds the contract short. -/
theorem ledger_sound {w : World} {now : Nat} (h : Reachable C w now) : w.escrow.bondAccounted + ∑ a, w.escrow.credits a
        + ∑ i ∈ settledIncidents w.escrow, ((w.escrow.incidents i).pool - paidOut w.escrow i) ≤ w.token.balanceOf C.self
    ∧ (∀ i ∈ settledIncidents w.escrow, paidOut w.escrow i ≤ (w.escrow.incidents i).pool) ∧ (PayersOutside C w.escrow →
        w.token.balanceOf C.self = w.escrow.bondAccounted + ∑ a, w.escrow.credits a
          + ∑ i ∈ settledIncidents w.escrow, ((w.escrow.incidents i).pool - paidOut w.escrow i) + w.donated)
    ∧ w.escrow.openRequested = ∑ i ∈ unsettledIncidents w.escrow, (w.escrow.incidents i).requested
    ∧ w.escrow.openIncidents = (unsettledIncidents w.escrow).card ∧ w.escrow.openIncidents ≤ 1
    ∧ w.escrow.pendingBounties = (pendingEpochs w.escrow).card ∧ w.escrow.bountiesPaid ≤ bountyCap
    ∧ (∀ (m : Msg) c, exec C m c w ≠ .error .underflow)
    ∧ (∀ (m : Msg) c, (∀ amount, c ≠ .fund amount) → exec C m c w ≠ .error .transferFailed) := by
  have hs := solvent h
  have hb := hs.books
  rw [← obligations_eq hb]
  refine ⟨Nat.le_trans (Nat.le_add_right _ _) hs.covered, fun i hi => ?_, hs.matched,
    openRequested_sum hb, openIncidents_card hb, ?_, pendingBounties_card hb, hb.bountiesPaid_le,
    fun m c => ?_, fun m c hfund herror => ?_⟩
  · obtain ⟨h1, hle⟩ := mem_Icc.mp (mem_filter.mp hi).1
    exact hb.paidOut_le (Nat.ne_of_gt h1) hle
  · rw [hb.openIncidents_eq]
    split
    · exact Nat.le_refl 1
    · exact Nat.zero_le 1
  · by_cases hfund : ∃ amount, c = .fund amount
    · obtain ⟨amount, rfl⟩ := hfund
      exact fun herror => fund_sound amount w _ herror rfl
    · exact fun herror => (exec_sound hs c (fun a ha => hfund ⟨a, ha⟩) _ herror).1 rfl
  · exact (exec_sound hs c hfund _ herror).2 rfl

/-- One open incident with a refund and a bounty; at deployment no refund names the escrow. -/
theorem ledger_sound_sample :
    ∑ i ∈ unsettledIncidents (forkRun (forkTxs forkCarol forkCarolCommitment forkCarolSig)).escrow,
        ((forkRun (forkTxs forkCarol forkCarolCommitment forkCarolSig)).escrow.incidents i).requested = 2000000
      ∧ (unsettledIncidents (forkRun (forkTxs forkCarol forkCarolCommitment forkCarolSig)).escrow).card = 1
      ∧ (pendingEpochs (forkRun (forkTxs forkCarol forkCarolCommitment forkCarolSig)).escrow).card = 1
      ∧ (forkRun []).token.balanceOf forkContract.self
        = (forkRun []).escrow.bondAccounted + ∑ a, (forkRun []).escrow.credits a
          + ∑ i ∈ settledIncidents (forkRun []).escrow,
            (((forkRun []).escrow.incidents i).pool - paidOut (forkRun []).escrow i) + (forkRun []).donated := by
  have hreach : Reachable forkContract
      (forkRun (forkTxs forkCarol forkCarolCommitment forkCarolSig)) 1801296300 :=
    fork_reachable (by decide) (by decide)
  have hfacts : (forkRun (forkTxs forkCarol forkCarolCommitment forkCarolSig)).escrow.openRequested
        = 2000000
      ∧ (forkRun (forkTxs forkCarol forkCarolCommitment forkCarolSig)).escrow.openIncidents = 1
      ∧ (forkRun (forkTxs forkCarol forkCarolCommitment forkCarolSig)).escrow.pendingBounties = 1 := by
    decide +kernel
  obtain ⟨hrequested, hopen, hpending⟩ := hfacts
  obtain ⟨-, -, -, hsum, hcard, -, hepochs, -⟩ := ledger_sound hreach
  have hstart : Reachable forkContract (forkRun []) 0 := fork_reachable (by decide) (by decide)
  refine ⟨hsum.symm.trans hrequested, hcard.symm.trans hopen, hepochs.symm.trans hpending, ?_⟩
  exact (ledger_sound hstart).2.2.1 fun leaf hid => absurd rfl hid

/-! ## A refund to the escrow itself -/

/-- A refund paid to the escrow itself settles its share and moves no tokens. -/
theorem refund_to_self {leaf : Word} {w' : World} (h : Solvent C w) (hcall : claimRefund C leaf w = .ok w')
    (hpayer : (w.escrow.refunds leaf).payer = C.self) (hpay : refundPay w.escrow (w.escrow.refunds leaf) ≠ 0) :
    obligations w'.escrow + w'.donated < w'.token.balanceOf C.self := by
  obtain ⟨hid, hpaid, hsettled, htoken, hdonated, hescrow⟩ := claimRefund_ok hcall
  have hpart := obligations_refunded h.books hid hpaid hsettled hescrow
  have hbalance := (payOut_balance htoken).2
  rw [if_pos hpayer] at hbalance
  have hcovered := h.covered
  omega

/-- The refund of the forked receipt, bound to the escrow's own address, and its settlement. -/
def selfRefundTxs : List Tx :=
  forkTxs forkSelf forkSelfCommitment forkSelfSig ++ [forkTx forkCarol 1802505901 (.settle 1)]

def selfRefundTx : Tx := forkTx forkCarol 1802505901 (.claimRefund forkLeaf1)

/-- Nothing was donated, and the escrow holds more than it owes. -/
theorem ledger_not_exact : Reachable forkContract (forkRun (selfRefundTxs ++ [selfRefundTx])) 1802505901
      ∧ (forkRun (selfRefundTxs ++ [selfRefundTx])).donated = 0
      ∧ (forkRun (selfRefundTxs ++ [selfRefundTx])).token.balanceOf forkContract.self
        ≠ (forkRun (selfRefundTxs ++ [selfRefundTx])).escrow.bondAccounted
          + ∑ a, (forkRun (selfRefundTxs ++ [selfRefundTx])).escrow.credits a
          + ∑ i ∈ settledIncidents (forkRun (selfRefundTxs ++ [selfRefundTx])).escrow,
            (((forkRun (selfRefundTxs ++ [selfRefundTx])).escrow.incidents i).pool
              - paidOut (forkRun (selfRefundTxs ++ [selfRefundTx])).escrow i) := by
  have hbefore : Reachable forkContract (forkRun selfRefundTxs) 1802505901 :=
    fork_reachable (by decide) (by decide)
  have hafter : Reachable forkContract (forkRun (selfRefundTxs ++ [selfRefundTx])) 1802505901 :=
    fork_reachable (by decide) (by decide)
  have hfacts : ((forkRun selfRefundTxs).escrow.refunds forkLeaf1).payer = forkSelf
      ∧ refundPay (forkRun selfRefundTxs).escrow ((forkRun selfRefundTxs).escrow.refunds forkLeaf1)
        = 2000000
      ∧ (exec forkContract selfRefundTx.msg (.claimRefund forkLeaf1)
          (forkRun selfRefundTxs)).toOption.isSome = true := by
    decide +kernel
  obtain ⟨hpayer, hpay, hsome⟩ := hfacts
  obtain ⟨w', hexec⟩ := exec_of_isSome hsome
  have hstep : forkRun (selfRefundTxs ++ [selfRefundTx]) = w' :=
    (run_concat _ _ _).trans (Executes.step ⟨rfl, by decide, hexec⟩)
  have hmore := refund_to_self (solvent hbefore) hexec hpayer (by rw [hpay]; decide)
  refine ⟨hafter, ?_, ?_⟩
  · decide +kernel
  · rw [← obligations_eq (solvent hafter).books, hstep]
    have : forkContract.self = forkSelf := rfl
    omega

end EscrowSound
