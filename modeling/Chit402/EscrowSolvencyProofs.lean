import Chit402.EscrowLedgerProofs

/-! # The escrow stays solvent

    What every entry point does to the obligations and to the balance, and
    the invariant that follows: the balance covers the obligations and the
    gifts, exactly so while no refund names the escrow as its payer.

    The invariant leaves no failing subtraction and no failing payment:
    `exec_sound`. -/

namespace EscrowSolvency

open Solidity EscrowState EscrowContract EscrowStep EscrowLedger FiniteSum Function Finset

variable {C : Contract} {m : Msg}

/-! ## Obligations under each call -/

variable {dst : Address} {amount i incidentId : Nat} {s s' : State} {epoch : UInt32} {leaf : Word} {w w' : World}

theorem unclaimed_of_paidOut (hinc : s'.incidents i = s.incidents i) (hpaid : paidOut s' i = paidOut s i) :
    unclaimed s' i = unclaimed s i := by
  rw [unclaimed, unclaimed, hinc, hpaid]

theorem unclaimed_congr (hinc : s'.incidents i = s.incidents i) (hrefunds : s'.refunds = s.refunds) :
    unclaimed s' i = unclaimed s i :=
  unclaimed_of_paidOut hinc (by rw [paidOut, paidOut, hinc, hrefunds])

theorem unclaimed_unsettled (h : (s.incidents i).settled = false) : unclaimed s i = 0 := by
  rw [unclaimed, if_neg (Bool.not_eq_true _ ▸ h)]

theorem unclaimed_settled (h : (s.incidents i).settled = true) :
    unclaimed s i = (s.incidents i).pool - paidOut s i := by
  rw [unclaimed, if_pos h]

theorem obligations_total (hcount : s'.incidentCount = s.incidentCount)
    (h : ∀ i, i ≤ s.incidentCount → unclaimed s' i = unclaimed s i) :
    obligations s' + (s.bondAccounted + ∑ a, s.credits a) = obligations s + (s'.bondAccounted + ∑ a, s'.credits a) := by
  have hsum : ∑ i ∈ range (s.incidentCount + 1), unclaimed s' i
      = ∑ i ∈ range (s.incidentCount + 1), unclaimed s i :=
    sum_congr rfl fun i hi => h i (Nat.le_of_lt_succ (mem_range.mp hi))
  rw [obligations, obligations, hcount, hsum]
  omega

theorem obligations_accounts {bond : Nat} {credits : Address → Nat} {closed : Bool}
    (h : s' = { s with bondAccounted := bond, credits := credits, closed := closed }) :
    obligations s' + (s.bondAccounted + ∑ a, s.credits a)
      = obligations s + (bond + ∑ a, credits a) := by
  subst h
  exact obligations_total rfl fun i _ => unclaimed_congr rfl rfl

theorem obligations_congr (htotal : s'.bondAccounted + ∑ a, s'.credits a = s.bondAccounted + ∑ a, s.credits a)
    (hcount : s'.incidentCount = s.incidentCount) (h : ∀ i, i ≤ s.incidentCount → unclaimed s' i = unclaimed s i) :
    obligations s' = obligations s := by
  have := obligations_total hcount h
  omega

theorem obligations_frame (hbond : s'.bondAccounted = s.bondAccounted) (hcredits : s'.credits = s.credits)
    (hcount : s'.incidentCount = s.incidentCount) (hinc : s'.incidents = s.incidents)
    (hrefunds : s'.refunds = s.refunds) : obligations s' = obligations s :=
  obligations_congr (by rw [hbond, hcredits]) hcount
    fun i _ => unclaimed_congr (congrFun hinc i) hrefunds

/-- A new incident owes nothing. -/
theorem obligations_opened (hopen : OpenedOrJoined C m epoch s incidentId s') : obligations s' = obligations s := by
  cases hopen with
  | joined => rfl
  | opened _ _ _ incidentId hid close «until» frozenUsed freezeUntil =>
    subst hid
    generalize hs' : State.mk _ _ _ _ _ _ _ _ _ _ _ _ _ (s.incidentCount + 1) _ _ _ _ _ _ _ _ _
      _ _ = s'
    have hnew : unclaimed s' (s.incidentCount + 1) = 0 := by
      rw [← hs']
      exact unclaimed_unsettled (congrArg Incident.settled (update_self _ _ s.incidents))
    have hold : ∀ i ∈ range (s.incidentCount + 1), unclaimed s' i = unclaimed s i := by
      intro i hi
      rw [← hs']
      exact unclaimed_congr (update_of_ne (Nat.ne_of_lt (mem_range.mp hi)) _ s.incidents) rfl
    rw [obligations, obligations, show s'.incidentCount = s.incidentCount + 1 by rw [← hs'],
      show s'.bondAccounted = s.bondAccounted by rw [← hs'],
      show s'.credits = s.credits by rw [← hs'], sum_range_succ, hnew, sum_congr rfl hold]
    rfl

theorem obligations_revealed (h : Revealed C m s s') : obligations s' = obligations s := by
  obtain ⟨commits, epoch, incidentId, s1, _, _, _, _, hopen, rfl⟩ := h.opened_or_joined
  have hopened := (obligations_opened hopen).trans (obligations_frame rfl rfl rfl rfl rfl)
  exact Eq.trans (obligations_frame rfl rfl rfl rfl rfl) hopened

/-- A paid bounty moves from the bond to a credit. -/
theorem obligations_finalized (h : finalizeBounty m epoch s = .ok s') : obligations s' = obligations s := by
  obtain ⟨-, -, -, pay, hpay, rfl⟩ := finalizeBounty_ok h
  have hsum := sum_update (mem_univ (s.bounties epoch).bestPayTo) (fun _ x => x) s.credits
    (s.credits (s.bounties epoch).bestPayTo + pay)
  have hle := bountyPay_le s
  rw [← hpay] at hle
  refine obligations_congr ?_ rfl fun i _ => unclaimed_congr rfl rfl
  dsimp only
  omega

theorem obligations_registered {key : Word} {b : ReceiptBinding} {sig : Sig} {payer : Address} {payerSalt : Word}
    (hs : Books s) (h : registerRefund C m key b sig payer payerSalt s = .ok s') : obligations s' = obligations s := by
  obtain ⟨hid, -, hsettled, -, hfresh, rfl⟩ := registerRefund_ok h
  refine obligations_congr rfl rfl fun i hi => ?_
  by_cases hk : i = (s.bKeys key).incidentId
  · subst hk
    rw [unclaimed_unsettled hsettled]
    exact unclaimed_unsettled ((congrArg Incident.settled (update_self _ _ s.incidents)).trans
      hsettled)
  · have hsame := update_of_ne hk { s.incidents (s.bKeys key).incidentId with
      requested := (s.incidents (s.bKeys key).incidentId).requested + refundAmount b } s.incidents
    rcases Nat.eq_zero_or_pos i with rfl | hpos
    · rw [hs.unclaimed_zero]
      exact unclaimed_unsettled (congrArg Incident.settled (hsame.trans hs.zeroth))
    · -- the new refund is unpaid, and there was none for the leaf
      refine unclaimed_of_paidOut hsame (paidOut_same hsame rfl ?_)
      rw [paidShare, if_neg (fun hp => by cases hp.2), paidShare,
        if_neg (fun hp => Nat.ne_of_lt hpos (hfresh.symm.trans hp.1))]

/-- A settlement moves the pool out of the bond. -/
theorem obligations_settled (hs : Books s) (h : settle m incidentId s = .ok s') : obligations s' = obligations s := by
  obtain ⟨hid, hle, hsettled, -, -, -, rfl⟩ := settle_ok h
  obtain rfl := hs.last_of_unsettled hid hle hsettled
  have hpool : settlePool s s.incidentCount ≤ s.bondAccounted := Nat.min_le_right _ _
  generalize settlePool s s.incidentCount = pool at hpool ⊢
  generalize hinc : { s.incidents s.incidentCount with pool := pool, settled := true } = inc
  have hinPool : inc.pool = pool := by rw [← hinc]
  have hclosed : inc.settled = true := by rw [← hinc]
  generalize hs' : State.mk _ _ _ _ _ _ _ _ _ _ _ _ _ s.incidentCount _ _ _ _ _ _ _ _ _ _ _ = s'
  have hself : s'.incidents s.incidentCount = inc := by
    rw [← hs']
    exact update_self _ _ s.incidents
  have hnew : unclaimed s' s.incidentCount = pool := by
    have hnone : paidOut s' s.incidentCount = 0 := by
      rw [paidOut, hself, ← hs']
      exact hs.paidOut_unsettled inc hsettled
    rw [unclaimed_settled (hself ▸ hclosed), hself, hinPool, hnone, Nat.sub_zero]
  have hold : ∑ i ∈ range s.incidentCount, unclaimed s' i
      = ∑ i ∈ range s.incidentCount, unclaimed s i := by
    refine sum_congr rfl fun i hi => ?_
    rw [← hs']
    exact unclaimed_congr (update_of_ne (Nat.ne_of_lt (mem_range.mp hi)) _ s.incidents) rfl
  rw [obligations, obligations, show s'.incidentCount = s.incidentCount by rw [← hs'],
    show s'.bondAccounted = s.bondAccounted - pool by rw [← hs'],
    show s'.credits = s.credits by rw [← hs'], sum_range_succ, sum_range_succ, hnew, hold, unclaimed_unsettled hsettled]
  omega

/-- A paid refund takes its share from what is left of the pool. -/
theorem obligations_refunded (hs : Books s) (hid : (s.refunds leaf).incidentId ≠ 0)
    (hpaid : (s.refunds leaf).paid = false) (hsettled : (s.incidents (s.refunds leaf).incidentId).settled = true)
    (h : s' = { s with
      refunds := update s.refunds leaf { s.refunds leaf with paid := true } }) :
    obligations s' + refundPay s (s.refunds leaf) = obligations s := by
  have hs' := hs.refunded hsettled
  rw [← h] at hs'
  have hle := hs.refund_le leaf
  have hinc : s'.incidents = s.incidents := by rw [h]
  have hrefunds : s'.refunds = update s.refunds leaf { s.refunds leaf with paid := true } := by
    rw [h]
  have hcount : s'.incidentCount = s.incidentCount := by rw [h]
  generalize hk : (s.refunds leaf).incidentId = k at hid hsettled hle
  -- what is paid from `k` grows by this refund's share, and stays within the pool
  have hgrown : paidOut s' k = paidOut s k + refundPay s (s.refunds leaf) := by
    have hsum := paidOut_update (i := k) (congrFun hinc k) hrefunds
    rw [paidShare, if_neg (fun hp => by rw [hpaid] at hp; cases hp.2), paidShare,
      if_pos ⟨hk, rfl⟩, Nat.add_zero] at hsum
    rw [refundPay, hk]
    exact hsum
  have hwithin := hs'.paidOut_le hid (hcount ▸ hle)
  have hpart : unclaimed s' k + refundPay s (s.refunds leaf) = unclaimed s k := by
    rw [hinc] at hwithin
    rw [unclaimed_settled (hinc ▸ hsettled), unclaimed_settled hsettled, hinc, hgrown]
    rw [hgrown] at hwithin
    omega
  have hothers : ∑ i ∈ (range (s.incidentCount + 1)).erase k, unclaimed s' i
      = ∑ i ∈ (range (s.incidentCount + 1)).erase k, unclaimed s i := by
    refine sum_congr rfl fun i hi => ?_
    have hi := ne_of_mem_erase hi
    refine unclaimed_of_paidOut (congrFun hinc i) (paidOut_same (congrFun hinc i) hrefunds ?_)
    rw [paidShare, if_neg (fun hp => hi (hp.1.symm.trans hk)), paidShare, if_neg (fun hp => hi (hp.1.symm.trans hk))]
  have hmem : k ∈ range (s.incidentCount + 1) := mem_range.mpr (Nat.lt_succ_of_le hle)
  rw [obligations, obligations, hcount, show s'.bondAccounted = s.bondAccounted by rw [h],
    show s'.credits = s.credits by rw [h], ← add_sum_erase _ (fun i => unclaimed s' i) hmem,
    ← add_sum_erase _ (fun i => unclaimed s i) hmem, hothers]
  omega

/-! ## The balance under each call -/

/-- A payment leaves the payer's account, unless it returns there. -/
theorem payOut_balance {src : Address} {t t' : Token} (h : payOut src dst amount t = .ok t') : amount ≤ t.balanceOf src
      ∧ t'.balanceOf src = if dst = src then t.balanceOf src else t.balanceOf src - amount := by
  obtain ⟨hle, rfl⟩ := payOut_ok_iff.mp h
  refine ⟨hle, ?_⟩
  by_cases hdst : dst = src
  · subst hdst
    rw [if_pos rfl]
    exact congrFun (move_self hle) dst
  · rw [if_neg hdst]
    exact move_src amount (Ne.symm hdst)

/-- No registered refund pays the escrow itself. -/
def PayersOutside (C : Contract) (s : State) : Prop :=
  ∀ leaf, (s.refunds leaf).incidentId ≠ 0 → (s.refunds leaf).payer ≠ C.self

theorem payers_congr (h : s'.refunds = s.refunds) (hp : PayersOutside C s') : PayersOutside C s := by
  intro leaf
  rw [← h]
  exact hp leaf

/-- **SOLVENCY**: the balance covers the obligations and the gifts. -/
structure Solvent (C : Contract) (w : World) : Prop where
  books : Books w.escrow
  covered : obligations w.escrow + w.donated ≤ w.token.balanceOf C.self
  matched : PayersOutside C w.escrow →
    w.token.balanceOf C.self = obligations w.escrow + w.donated

theorem solvent_start (token : Token) : Solvent C (start C token) := by
  have hnone : obligations initial = 0 := by
    rw [obligations]
    simp only [sum_eq_zero_iff, Nat.add_eq_zero_iff]
    exact ⟨⟨rfl, fun _ _ => rfl⟩, fun _ _ => rfl⟩
  refine ⟨books_initial, ?_, fun _ => ?_⟩
  · show obligations initial + token.balanceOf C.self ≤ token.balanceOf C.self
    rw [hnone, Nat.zero_add]
  · show token.balanceOf C.self = obligations initial + token.balanceOf C.self
    rw [hnone, Nat.zero_add]

section

variable (h : Solvent C w)
include h

/-- Calls that leave the token alone keep the escrow solvent when they keep what it owes. -/
theorem Solvent.keep (hbooks : Books s) (howed : obligations s = obligations w.escrow)
    (hpayers : PayersOutside C s → PayersOutside C w.escrow) : Solvent C { w with escrow := s } where
  books := hbooks
  covered := by
    show obligations s + w.donated ≤ _
    rw [howed]
    exact h.covered
  matched := fun hp => by
    show _ = obligations s + w.donated
    rw [howed]
    exact h.matched (hpayers hp)

/-- A payment out of the escrow keeps it solvent when it settles what is owed. -/
theorem Solvent.pay (hbooks : Books w'.escrow) (hpay : payOut C.self dst amount w.token = .ok w'.token)
    (howed : obligations w'.escrow + amount = obligations w.escrow) (hdonated : w'.donated = w.donated)
    (hpayers : PayersOutside C w'.escrow → PayersOutside C w.escrow ∧ dst ≠ C.self) : Solvent C w' := by
  obtain ⟨hle, hbalance⟩ := payOut_balance hpay
  have hcovered := h.covered
  refine ⟨hbooks, ?_, fun hp => ?_⟩
  · rw [hbalance, hdonated]
    split
    · omega
    · omega
  · obtain ⟨hp, hdst⟩ := hpayers hp
    have hmatched := h.matched hp
    rw [hbalance, hdonated, if_neg hdst]
    omega

theorem bond_covered : w.escrow.bondAccounted ≤ w.token.balanceOf C.self := by
  have hcovered := h.covered
  rw [obligations] at hcovered
  omega

theorem credit_covered (a : Address) : w.escrow.credits a ≤ w.token.balanceOf C.self := by
  have hcredit : w.escrow.credits a ≤ ∑ b, w.escrow.credits b :=
    single_le_sum (fun _ _ => Nat.zero_le _) (mem_univ a)
  have hcovered := h.covered
  rw [obligations] at hcovered
  omega

theorem refund_covered (hid : (w.escrow.refunds leaf).incidentId ≠ 0) (hpaid : (w.escrow.refunds leaf).paid = false)
    (hsettled : (w.escrow.incidents (w.escrow.refunds leaf).incidentId).settled = true) :
    refundPay w.escrow (w.escrow.refunds leaf) ≤ w.token.balanceOf C.self := by
  have hpart := obligations_refunded h.books hid hpaid hsettled rfl
  have hcovered := h.covered
  omega

/-! ## Solvency of every reachable world -/

/-- **STEP**: no successful call makes the escrow insolvent. -/
theorem exec_solvent {c : Call} (hself : m.sender ≠ C.self) (hexec : exec C m c w = .ok w') : Solvent C w' := by
  -- most calls move no money and owe what was owed
  cases c with
  | pinQuarantineList listHash entries highWater =>
    obtain ⟨s, hcall, rfl⟩ := onEscrow_ok_iff.mp hexec
    obtain ⟨quarantined, rfl⟩ := pinQuarantineList_ok hcall
    exact h.keep { h.books with } (obligations_frame rfl rfl rfl rfl rfl) id
  | fund amount =>
    obtain ⟨-, -, hdonated, hgrown, hescrow⟩ := fund_ok hexec
    have hcovered := h.covered
    have howed : obligations w'.escrow = obligations w.escrow + amount := by
      have htotal := obligations_accounts hescrow
      omega
    have hbooks : Books w'.escrow := by
      rw [hescrow]
      exact { h.books with }
    refine ⟨hbooks, by omega, fun hp => ?_⟩
    rw [hescrow] at hp
    have hmatched := h.matched hp
    omega
  | activate =>
    obtain ⟨s, hcall, rfl⟩ := onEscrow_ok_iff.mp hexec
    obtain ⟨-, -, rfl⟩ := activate_ok hcall
    exact h.keep { h.books with } (obligations_frame rfl rfl rfl rfl rfl) id
  | giveNotice =>
    obtain ⟨s, hcall, rfl⟩ := onEscrow_ok_iff.mp hexec
    obtain ⟨-, -, -, -, rfl⟩ := giveNotice_ok hcall
    exact h.keep { h.books with } (obligations_frame rfl rfl rfl rfl rfl) id
  | cancelNotice =>
    obtain ⟨s, hcall, rfl⟩ := onEscrow_ok_iff.mp hexec
    obtain rfl := cancelNotice_ok hcall
    exact h.keep { h.books with } (obligations_frame rfl rfl rfl rfl rfl) id
  | withdraw =>
    obtain ⟨howner, -, reserve, -, hpay, hdonated, hescrow⟩ := withdraw_ok hexec
    refine h.pay ?_ hpay ?_ hdonated fun hp => ⟨?_, howner ▸ hself⟩
    · rw [hescrow]
      exact { h.books with }
    · have htotal := obligations_accounts hescrow
      omega
    · rw [hescrow] at hp
      exact hp
  | commit c =>
    obtain ⟨s, hcall, rfl⟩ := onEscrow_ok_iff.mp hexec
    obtain ⟨-, -, commits, slots, seq, rfl⟩ := commit_ok hcall
    exact h.keep { h.books with } (obligations_frame rfl rfl rfl rfl rfl) id
  | revealA h1 s1 h2 s2 payTo salt =>
    obtain ⟨s, hcall, rfl⟩ := onEscrow_ok_iff.mp hexec
    have hr := (revealA_ok hcall).1
    exact h.keep (h.books.revealed hr) (obligations_revealed hr) (payers_congr hr.refunds_eq)
  | revealB ev payTo salt =>
    obtain ⟨s, hcall, rfl⟩ := onEscrow_ok_iff.mp hexec
    have hr := (revealB_ok hcall).1
    exact h.keep (h.books.revealed hr) (obligations_revealed hr) (payers_congr hr.refunds_eq)
  | finalizeBounty epoch =>
    obtain ⟨s, hcall, rfl⟩ := onEscrow_ok_iff.mp hexec
    refine h.keep (h.books.finalized hcall) (obligations_finalized hcall) ?_
    obtain ⟨-, -, -, pay, -, rfl⟩ := finalizeBounty_ok hcall
    exact payers_congr rfl
  | registerRefund key b sig payer payerSalt =>
    obtain ⟨s, hcall, rfl⟩ := onEscrow_ok_iff.mp hexec
    refine h.keep (h.books.registered hcall) (obligations_registered h.books hcall) ?_
    obtain ⟨-, -, -, -, hfresh, rfl⟩ := registerRefund_ok hcall
    intro hp leaf hid
    have hne : leaf ≠ b.leafHash := fun heq => hid (heq ▸ hfresh)
    have hpayer := hp leaf
    simp only [update_of_ne hne] at hpayer
    exact hpayer hid
  | settle incidentId =>
    obtain ⟨s, hcall, rfl⟩ := onEscrow_ok_iff.mp hexec
    refine h.keep (h.books.settled hcall) (obligations_settled h.books hcall) ?_
    obtain ⟨-, -, -, -, -, -, rfl⟩ := settle_ok hcall
    exact id
  | claimRefund leafHash =>
    obtain ⟨hid, hpaid, hsettled, hpay, hdonated, hescrow⟩ := claimRefund_ok hexec
    refine h.pay ?_ hpay (obligations_refunded h.books hid hpaid hsettled hescrow)
      hdonated fun hp => ?_
    · rw [hescrow]
      exact h.books.refunded hsettled
    · have hp : ∀ leaf, (w.escrow.refunds leaf).incidentId ≠ 0 →
          (w.escrow.refunds leaf).payer ≠ C.self := by
        intro leaf hleaf
        have hpayer := hp leaf
        rw [hescrow] at hpayer
        by_cases hl : leaf = leafHash
        · subst hl
          simp only [update_self] at hpayer
          exact hpayer hleaf
        · simp only [update_of_ne hl] at hpayer
          exact hpayer hleaf
      exact ⟨hp, hp leafHash hid⟩
  | claim =>
    obtain ⟨hpay, hdonated, hescrow⟩ := claim_ok hexec
    refine h.pay ?_ hpay ?_ hdonated fun hp => ⟨?_, hself⟩
    · rw [hescrow]
      exact { h.books with }
    · have hsum := sum_update (mem_univ m.sender) (fun _ x => x) w.escrow.credits 0
      have htotal := obligations_accounts hescrow
      omega
    · rw [hescrow] at hp
      exact hp

/-- A gift counts as donated. -/
theorem solvent_gift {balances allowance : Address → Nat} {gift : Nat} : Solvent C { w with
      token := { w.token with
        balanceOf := update balances C.self (w.token.balanceOf C.self + gift)
        allowance := allowance }
      donated := w.donated + gift } := by
  refine ⟨h.books, ?_, fun hp => ?_⟩
  · show obligations w.escrow + (w.donated + gift) ≤ update balances C.self _ C.self
    rw [update_self]
    have := h.covered
    omega
  · show update balances C.self _ C.self = obligations w.escrow + (w.donated + gift)
    rw [update_self, h.matched hp]
    omega

end

/-- **RUN**: every reachable world is solvent. -/
theorem solvent {now : Nat} (h : Reachable C w now) : Solvent C w :=
  Reachable.induct (fun w _ => Solvent C w) (fun token _ => solvent_start token)
    (fun _ _ _ ih _ => ih) (fun _ _ _ _ _ ih => solvent_gift ih)
    (fun _ _ _ _ ih hself hexec => exec_solvent ih hself hexec) h

end EscrowSolvency
