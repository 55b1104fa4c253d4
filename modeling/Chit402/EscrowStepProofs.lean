import Chit402.EscrowContractProofs

/-! # What a successful escrow call did

    One inversion lemma for each entry point: its guards, and the new state
    in terms of the old.  Then calls as data, transactions with what the
    rest of the chain does to the token, and reachable worlds. -/

namespace EscrowStep

open ExceptFlow Solidity EscrowState EscrowContract Function

variable {C : Contract} {m : Msg}

/-! ## Owner calls -/

variable {payTo : Address} {evidenceType incidentId seq : Nat} {sig : Sig} {s s' : State} {epoch : UInt32}
  {key salt : Word} {w w' : World}

theorem pinQuarantineList_ok {listHash : Word} {entries highWater : List HeadRef}
    (h : pinQuarantineList C m listHash entries highWater s = .ok s') : ∃ quarantined, s' = { s with
      quarantined := quarantined
      listPinned := true
      quarantineListHash := listHash
      quarantineCount := entries.length } := by
  rw [pinQuarantineList, guarded_iff, guarded_iff, guarded_iff, guarded_iff, guarded_iff, bind_iff] at h
  obtain ⟨-, -, -, -, -, quarantined, -, h⟩ := h
  exact ⟨quarantined, (Except.ok.inj h).symm⟩

theorem fund_ok {amount : Nat} (h : fund C m amount w = .ok w') :
    m.sender = C.owner ∧ w.escrow.closed = false ∧ w'.donated = w.donated
      ∧ w'.token.balanceOf C.self = w.token.balanceOf C.self + amount
      ∧ w'.escrow = { w.escrow with bondAccounted := w.escrow.bondAccounted + amount } := by
  rw [fund, guarded_iff, guarded_iff, guarded_iff, bind_iff] at h
  obtain ⟨howner, hclosed, -, token, -, h⟩ := h
  rw [guarded_iff] at h
  obtain ⟨hgrown, h⟩ := h
  cases h
  refine ⟨not_not.mp howner, eq_false_of_ne_true hclosed, rfl, ?_, rfl⟩
  show token.balanceOf C.self = w.token.balanceOf C.self + amount
  omega

theorem activate_ok (h : activate C m s = .ok s') : s.activatedAt = 0 ∧ s.closed = false
      ∧ s' = { s with activatedAt := m.timestamp % 2 ^ 64 } := by
  rw [activate, guarded_iff, guarded_iff, guarded_iff, guarded_iff] at h
  obtain ⟨-, hnew, -, -, h⟩ := h
  obtain ⟨hact, hclosed⟩ := not_or.mp hnew
  exact ⟨not_not.mp hact, eq_false_of_ne_true hclosed, (Except.ok.inj h).symm⟩

theorem giveNotice_ok (h : giveNotice C m s = .ok s') : s.activatedAt ≠ 0 ∧ s.closed = false ∧ s.noticeAt = 0
      ∧ s.activatedAt + bondPeriod ≤ m.timestamp ∧ s' = { s with noticeAt := m.timestamp % 2 ^ 64 } := by
  rw [giveNotice, guarded_iff, guarded_iff, guarded_iff, guarded_iff] at h
  obtain ⟨-, hact, hnotice, hearly, h⟩ := h
  obtain ⟨hact, hclosed⟩ := not_or.mp hact
  exact ⟨hact, eq_false_of_ne_true hclosed, not_not.mp hnotice, Nat.not_lt.mp hearly,
    (Except.ok.inj h).symm⟩

theorem cancelNotice_ok (h : cancelNotice C m s = .ok s') : s' = { s with noticeAt := 0 } := by
  rw [cancelNotice, guarded_iff, guarded_iff, guarded_iff] at h
  exact (Except.ok.inj h.2.2.2).symm

/-- The reserve of a withdrawal that may go ahead. -/
theorem withdrawReserve_ok {reserve : Nat} (h : withdrawReserve m s = .ok reserve) (hact : s.activatedAt ≠ 0) :
    s.noticeAt ≠ 0 ∧ revealGraceEnd s ≤ m.timestamp ∧ s.freezeUntil ≤ m.timestamp ∧ s.bountiesPaid ≤ bountyCap
      ∧ reserve = s.openRequested + min (s.pendingBounties * bounty) (bountyCap - s.bountiesPaid) := by
  rw [withdrawReserve, if_pos hact, guarded_iff, guarded_iff, guarded_iff, bind_iff] at h
  obtain ⟨hnotice, hearly, hfrozen, room, hroom, h⟩ := h
  obtain ⟨hpaid, rfl⟩ := sub_ok_iff.mp hroom
  cases h
  refine ⟨hnotice, Nat.not_lt.mp hearly, Nat.not_lt.mp hfrozen, hpaid, ?_⟩
  congr 1
  split
  · omega
  · omega

theorem withdraw_ok (h : withdraw C m w = .ok w') :
    m.sender = C.owner ∧ w.escrow.closed = false
      ∧ ∃ reserve, withdrawReserve m w.escrow = .ok reserve
        ∧ payOut C.self C.owner (w.escrow.bondAccounted - min w.escrow.bondAccounted reserve)
            w.token = .ok w'.token
        ∧ w'.donated = w.donated
        ∧ w'.escrow = { w.escrow with
            bondAccounted := min w.escrow.bondAccounted reserve
            closed := true } := by
  rw [withdraw, guarded_iff, guarded_iff, bind_iff] at h
  obtain ⟨howner, hclosed, reserve, hreserve, h⟩ := h
  have hkept : (if w.escrow.bondAccounted < reserve then w.escrow.bondAccounted else reserve)
      = min w.escrow.bondAccounted reserve := by
    split
    · omega
    · omega
  rw [hkept, bind_iff] at h
  obtain ⟨amount, hamount, h⟩ := h
  obtain ⟨-, rfl⟩ := sub_ok_iff.mp hamount
  obtain ⟨token, htoken, h⟩ := bind_iff.mp h
  cases h
  exact ⟨not_not.mp howner, eq_false_of_ne_true hclosed, reserve, hreserve, htoken, rfl,
    rfl⟩

/-! ## Commit and reveal -/

theorem commit_ok {c : Word} (h : commit m c s = .ok s') :
    s.closed = false ∧ (s.noticeAt ≠ 0 → m.timestamp < s.noticeAt + noticePeriod)
      ∧ ∃ commits commitSlots commitSeq, s' = { s with
          commits := commits
          commitSlots := commitSlots
          commitSeq := commitSeq } := by
  rw [commit, guarded_iff, guarded_iff, guarded_iff] at h
  obtain ⟨hclosed, hcover, -, h⟩ := h
  refine ⟨eq_false_of_ne_true hclosed,
    fun hn => Nat.not_le.mp fun hle => hcover ⟨hn, hle⟩, ?_⟩
  split at h
  · cases h
  · obtain ⟨seq, -, h⟩ := bind_iff.mp h
    exact ⟨_, _, _, (Except.ok.inj h).symm⟩

theorem consumeCommit_ok {evidenceHash : Word}
    (h : consumeCommit C m payTo evidenceType evidenceHash salt s = .ok (seq, s')) :
    s.activatedAt ≠ 0 ∧ s.closed = false ∧ minDelay ≤ m.timestamp ∧ ∃ commits, s' = { s with commits := commits } := by
  rw [consumeCommit, guarded_iff] at h
  obtain ⟨hact, h⟩ := h
  rw [guarded_iff, guarded_iff, guarded_iff, guarded_iff] at h
  obtain ⟨-, hyoung, -, -, h⟩ := h
  obtain ⟨hact, hclosed⟩ := not_or.mp hact
  obtain ⟨-, rfl⟩ := Prod.mk.inj (Except.ok.inj h)
  exact ⟨hact, eq_false_of_ne_true hclosed, by omega, _, rfl⟩

/-- An accepted reveal: its commit is gone, and its evidence is recorded. -/
structure Revealed (C : Contract) (m : Msg) (s s' : State) : Prop where
  activated : s.activatedAt ≠ 0
  opened : s.closed = false
  late : minDelay ≤ m.timestamp
  recorded : ∃ commits key evidenceType epoch seq payTo lo hi,
    record C m key evidenceType epoch seq payTo lo hi { s with commits := commits } = .ok s'

/-- A head signed by the issuer's key. -/
def SignedHead (C : Contract) (h : TreeHead) (sig : Sig) : Prop :=
  h.kid = C.kid ∧ p256 C (treeHeadDigest C h) sig.r sig.s C.pubX C.pubY = true

theorem checkHead_ok_iff {h : TreeHead} : checkHead C h sig s = .ok ()
      ↔ SignedHead C h sig ∧ s.quarantined (headRefKey C h.epoch h.treeSize h.root) = false := by
  rw [checkHead, guarded_iff, guarded_iff, revertIf_ok_iff, not_not, not_not, Bool.not_eq_true, SignedHead, and_assoc]

theorem revealA_ok {h1 h2 : TreeHead} {s1 s2 : Sig} (h : revealA C m h1 s1 h2 s2 payTo salt s = .ok s') :
    Revealed C m s s' ∧ SignedHead C h1 s1 ∧ SignedHead C h2 s2
      ∧ h1.epoch = h2.epoch ∧ h1.treeSize = h2.treeSize ∧ h1.root ≠ h2.root := by
  rw [revealA, bind_iff] at h
  obtain ⟨⟨seq, mid⟩, hcommit, h⟩ := h
  obtain ⟨hact, hclosed, hlate, commits, rfl⟩ := consumeCommit_ok hcommit
  rw [guarded_iff, bind_iff] at h
  obtain ⟨hdiffer, u1, hhead1, h⟩ := h
  obtain ⟨u2, hhead2, h⟩ := bind_iff.mp h
  obtain ⟨hepoch, hdiffer⟩ := not_or.mp hdiffer
  obtain ⟨hsize, hroot⟩ := not_or.mp hdiffer
  exact ⟨⟨hact, hclosed, hlate, commits, _, _, _, _, _, _, _, h⟩, (checkHead_ok_iff.mp hhead1).1,
    (checkHead_ok_iff.mp hhead2).1, not_not.mp hepoch, not_not.mp hsize, hroot⟩

theorem revealB_ok {ev : EvidenceB} (h : revealB C m ev payTo salt s = .ok s') :
    Revealed C m s s' ∧ SignedHead C ev.h1 ev.s1 ∧ SignedHead C ev.h2 ev.s2 ∧ ev.h1.epoch = ev.h2.epoch ∧ ev.l1 ≠ ev.l2
      ∧ EscrowMerkle.verifyInclusion C.hashes.sha256 ev.l1 ev.index ev.h1.treeSize ev.h1.root ev.p1 = true
      ∧ EscrowMerkle.verifyInclusion C.hashes.sha256 ev.l2 ev.index ev.h2.treeSize ev.h2.root ev.p2 = true := by
  rw [revealB, bind_iff] at h
  obtain ⟨⟨seq, mid⟩, hcommit, h⟩ := h
  obtain ⟨hact, hclosed, hlate, commits, rfl⟩ := consumeCommit_ok hcommit
  rw [guarded_iff, guarded_iff, bind_iff] at h
  obtain ⟨hdiffer, -, u1, hhead1, h⟩ := h
  obtain ⟨u2, hhead2, h⟩ := bind_iff.mp h
  rw [guarded_iff, guarded_iff, not_not, not_not] at h
  obtain ⟨hproof1, hproof2, h⟩ := h
  obtain ⟨hepoch, hleaf⟩ := not_or.mp hdiffer
  exact ⟨⟨hact, hclosed, hlate, commits, _, _, _, _, _, _, _, h⟩, (checkHead_ok_iff.mp hhead1).1,
    (checkHead_ok_iff.mp hhead2).1, not_not.mp hepoch, hleaf, hproof1, hproof2⟩

/-- The seconds an incident opened now freezes. -/
def freezeLength (s : State) : Nat := min (freezeCap - s.frozenUsed) claimWindow

/-- The incident part opens the next incident, or joins one that is still open. -/
inductive OpenedOrJoined (C : Contract) (m : Msg) (epoch : UInt32) (s : State) :
    Nat → State → Prop where
  | opened (hnew : s.incidentOf (incidentKey C epoch) = 0) (hnone : s.openIncidents = 0)
      (hcap : s.frozenUsed ≤ freezeCap) (incidentId : Nat) (hid : incidentId = s.incidentCount + 1)
      (close «until» frozenUsed freezeUntil : Nat) (hclose : close = m.timestamp + claimWindow)
      (huntil : «until» = if freezeLength s = 0 then 0 else m.timestamp + freezeLength s)
      (hused : frozenUsed = s.frozenUsed + freezeLength s)
      (hfreeze : freezeUntil = if freezeLength s = 0 then s.freezeUntil else «until») :
      OpenedOrJoined C m epoch s incidentId { s with
        incidentCount := incidentId
        incidentOf := update s.incidentOf (incidentKey C epoch) incidentId
        openIncidents := 1
        freezeUntil := freezeUntil
        frozenUsed := frozenUsed
        incidents := update s.incidents incidentId {
          epoch := epoch
          openedAt := m.timestamp
          claimsCloseAt := close
          freezeUntil := «until»
          settled := false
          requested := 0
          pool := 0 } }
  | joined (hold : s.incidentOf (incidentKey C epoch) ≠ 0)
      (hunsettled : (s.incidents (s.incidentOf (incidentKey C epoch))).settled = false)
      (hopen : m.timestamp ≤ (s.incidents (s.incidentOf (incidentKey C epoch))).claimsCloseAt) :
      OpenedOrJoined C m epoch s (s.incidentOf (incidentKey C epoch)) s

theorem openOrJoin_ok (h : openOrJoin C m epoch s = .ok (incidentId, s')) :
    OpenedOrJoined C m epoch s incidentId s' := by
  have hrange := m.inRange
  rw [openOrJoin] at h
  by_cases hnew : s.incidentOf (incidentKey C epoch) = 0
  · rw [if_pos hnew, guarded_iff, bind_iff] at h
    obtain ⟨hnone, room, hroom, h⟩ := h
    obtain ⟨hcap, rfl⟩ := sub_ok_iff.mp hroom
    have hd : (if freezeCap - s.frozenUsed < claimWindow then freezeCap - s.frozenUsed
        else claimWindow) = freezeLength s := by
      rw [freezeLength]
      split
      · omega
      · omega
    have hlen : freezeLength s ≤ claimWindow := Nat.min_le_right _ _
    have hwindow : claimWindow = 1209600 := rfl
    have hopened : m.timestamp % 2 ^ 64 = m.timestamp := Nat.mod_eq_of_lt (by omega)
    have hclose : (m.timestamp + claimWindow) % 2 ^ 64 = m.timestamp + claimWindow :=
      Nat.mod_eq_of_lt (by omega)
    simp only [hd, hopened, hclose] at h
    by_cases h0 : freezeLength s = 0
    · rw [if_neg (not_not.mpr h0), ok_bind, if_neg (not_not.mpr h0), if_neg (not_not.mpr h0)] at h
      cases h
      exact .opened hnew (not_not.mp hnone) hcap _ rfl _ _ _ _ rfl (if_pos h0).symm
        (by rw [h0, Nat.add_zero]) (if_pos h0).symm
    · rw [if_pos h0, Nat.mod_eq_of_lt (show freezeLength s < 2 ^ 32 by omega), bind_iff] at h
      obtain ⟨used, hused, h⟩ := h
      rw [if_pos h0, if_pos h0, Nat.mod_eq_of_lt (show m.timestamp + freezeLength s < 2 ^ 64 by omega)] at h
      cases h
      exact .opened hnew (not_not.mp hnone) hcap _ rfl _ _ _ _ rfl (if_neg h0).symm
        (add_ok_iff.mp hused).2 (if_neg h0).symm
  · rw [if_neg hnew, guarded_iff] at h
    obtain ⟨hopen, h⟩ := h
    obtain ⟨hsettled, hclose⟩ := not_or.mp hopen
    cases h
    exact .joined hnew (eq_false_of_ne_true hsettled) (Nat.not_lt.mp hclose)

theorem record_ok {lo hi : Word} (h : record C m key evidenceType epoch seq payTo lo hi s = .ok s') :
    ∃ incidentId s1, OpenedOrJoined C m epoch s incidentId s1 ∧ s' = noteBounty m epoch seq payTo { s1 with
          evidenceIncident := update s1.evidenceIncident key incidentId
          bKeys := if evidenceType = evidenceB then
              update s1.bKeys key { lo := lo, hi := hi, incidentId := incidentId }
            else s1.bKeys } := by
  rw [record, guarded_iff, bind_iff] at h
  obtain ⟨-, ⟨incidentId, s1⟩, hopen, h⟩ := h
  exact ⟨incidentId, s1, openOrJoin_ok hopen, (Except.ok.inj h).symm⟩

theorem noteBounty_frame (epoch : UInt32) (seq : Nat) (payTo : Address) (s : State) :
    ∃ bounties pendingBounties, noteBounty m epoch seq payTo s
      = { s with bounties := bounties, pendingBounties := pendingBounties } := by
  rw [noteBounty]
  split
  · exact ⟨_, _, rfl⟩
  · split
    · exact ⟨_, _, rfl⟩
    · split
      · exact ⟨_, _, rfl⟩
      · exact ⟨_, _, rfl⟩

/-- An accepted reveal opens or joins an incident, and notes its evidence and its bounty. -/
theorem Revealed.opened_or_joined (h : Revealed C m s s') :
    ∃ commits epoch incidentId s1 evidenceIncident bKeys bounties pendingBounties,
      OpenedOrJoined C m epoch { s with commits := commits } incidentId s1
        ∧ s' = { s1 with
            evidenceIncident := evidenceIncident
            bKeys := bKeys
            bounties := bounties
            pendingBounties := pendingBounties } := by
  obtain ⟨commits, key, evidenceType, epoch, seq, payTo, lo, hi, hrecord⟩ := h.recorded
  obtain ⟨incidentId, s1, hopen, rfl⟩ := record_ok hrecord
  have hframe := noteBounty_frame (m := m) epoch seq payTo
  exact ⟨commits, epoch, incidentId, s1, _, _, _, _, hopen, (hframe _).choose_spec.choose_spec⟩

theorem Revealed.refunds_eq (h : Revealed C m s s') : s'.refunds = s.refunds := by
  obtain ⟨commits, epoch, incidentId, s1, _, _, _, _, hopen, rfl⟩ := h.opened_or_joined
  cases hopen with
  | opened => rfl
  | joined => rfl

theorem Revealed.noticeAt_eq (h : Revealed C m s s') : s'.noticeAt = s.noticeAt := by
  obtain ⟨commits, epoch, incidentId, s1, _, _, _, _, hopen, rfl⟩ := h.opened_or_joined
  cases hopen with
  | opened => rfl
  | joined => rfl

/-! ## Bounties and refunds -/

/-- A bounty is paid when the cap and the bond past the refunds allow it. -/
def bountyPay (s : State) : Nat :=
  if s.bountiesPaid + bounty ≤ bountyCap ∧ s.openRequested + bounty ≤ s.bondAccounted then bounty
  else 0

theorem finalizeBounty_ok (h : finalizeBounty m epoch s = .ok s') :
    (s.bounties epoch).firstRevealAt ≠ 0 ∧ (s.bounties epoch).finalized = false
      ∧ 1 ≤ s.pendingBounties
      ∧ ∃ pay, pay = bountyPay s ∧ s' = { s with
          pendingBounties := s.pendingBounties - 1
          bountiesPaid := s.bountiesPaid + pay
          bondAccounted := s.bondAccounted - pay
          credits := update s.credits (s.bounties epoch).bestPayTo
            (s.credits (s.bounties epoch).bestPayTo + pay)
          bounties := update s.bounties epoch
            { s.bounties epoch with finalized := true, paid := pay } } := by
  rw [finalizeBounty, guarded_iff, guarded_iff, bind_iff] at h
  obtain ⟨hpending, -, pending, hsub, h⟩ := h
  obtain ⟨hfirst, hfinal⟩ := not_or.mp hpending
  obtain ⟨hone, rfl⟩ := sub_ok_iff.mp hsub
  refine ⟨hfirst, eq_false_of_ne_true hfinal, hone, ?_⟩
  by_cases hpay : s.bountiesPaid + bounty ≤ bountyCap
      ∧ s.openRequested + bounty ≤ s.bondAccounted
  · rw [if_pos hpay, bind_iff] at h
    obtain ⟨bond, hbond, h⟩ := h
    have hbond := (sub_ok_iff.mp hbond).2
    rw [hbond] at h
    exact ⟨bounty, (if_pos hpay).symm, (Except.ok.inj h).symm⟩
  · rw [if_neg hpay] at h
    refine ⟨0, (if_neg hpay).symm, ?_⟩
    rw [Nat.add_zero, Nat.sub_zero, Nat.add_zero, update_eq_self]
    exact (Except.ok.inj h).symm

theorem bountyPay_le (s : State) : bountyPay s ≤ s.bondAccounted := by
  rw [bountyPay]
  split
  · rename_i hpay
    exact Nat.le_trans (Nat.le_add_left _ _) hpay.2
  · exact Nat.zero_le _

theorem bountyPay_cap (h : s.bountiesPaid ≤ bountyCap) : s.bountiesPaid + bountyPay s ≤ bountyCap := by
  rw [bountyPay]
  split
  · rename_i hpay
    exact hpay.1
  · exact h

/-- The amount a binding registers. -/
def refundAmount (b : ReceiptBinding) : Nat := min b.amountAtomic.toNat refundCap

theorem registerRefund_ok {b : ReceiptBinding} {payer : Address} {payerSalt : Word}
    (h : registerRefund C m key b sig payer payerSalt s = .ok s') :
    (s.bKeys key).incidentId ≠ 0 ∧ s.closed = false
      ∧ (s.incidents (s.bKeys key).incidentId).settled = false
      ∧ m.timestamp ≤ (s.incidents (s.bKeys key).incidentId).claimsCloseAt
      ∧ (s.refunds b.leafHash).incidentId = 0
      ∧ s' = { s with
          refunds := update s.refunds b.leafHash {
            payer := payer
            amount := refundAmount b
            paid := false
            incidentId := (s.bKeys key).incidentId }
          incidents := update s.incidents (s.bKeys key).incidentId
            { s.incidents (s.bKeys key).incidentId with
              requested := (s.incidents (s.bKeys key).incidentId).requested + refundAmount b }
          openRequested := s.openRequested + refundAmount b } := by
  rw [registerRefund, guarded_iff, guarded_iff, guarded_iff, guarded_iff, guarded_iff, guarded_iff, guarded_iff,
    guarded_iff] at h
  obtain ⟨haffected, hclosed, hopen, -, -, -, -, hnew, h⟩ := h
  obtain ⟨hid, -⟩ := not_or.mp haffected
  obtain ⟨hsettled, hwindow⟩ := not_or.mp hopen
  have hamount : (if b.amountAtomic.toNat < refundCap then b.amountAtomic.toNat else refundCap)
      = refundAmount b := by
    rw [refundAmount]
    split
    · omega
    · omega
  rw [hamount] at h
  exact ⟨hid, eq_false_of_ne_true hclosed, eq_false_of_ne_true hsettled, Nat.not_lt.mp hwindow,
    not_not.mp hnew, (Except.ok.inj h).symm⟩

/-- A settlement takes the smaller of the requests and the bond. -/
def settlePool (s : State) (incidentId : Nat) : Nat :=
  min (s.incidents incidentId).requested s.bondAccounted

theorem settle_ok (h : settle m incidentId s = .ok s') : incidentId ≠ 0 ∧ incidentId ≤ s.incidentCount
      ∧ (s.incidents incidentId).settled = false ∧ (s.incidents incidentId).claimsCloseAt < m.timestamp
      ∧ 1 ≤ s.openIncidents ∧ (s.incidents incidentId).requested ≤ s.openRequested ∧ s' = { s with
          incidents := update s.incidents incidentId
            { s.incidents incidentId with pool := settlePool s incidentId, settled := true }
          bondAccounted := s.bondAccounted - settlePool s incidentId
          openIncidents := s.openIncidents - 1
          openRequested := s.openRequested - (s.incidents incidentId).requested } := by
  rw [settle, guarded_iff, guarded_iff, guarded_iff] at h
  obtain ⟨hid, hsettled, hopen, h⟩ := h
  have hpool : (if (s.incidents incidentId).requested < s.bondAccounted
      then (s.incidents incidentId).requested else s.bondAccounted)
      = settlePool s incidentId := by
    rw [settlePool]
    split
    · omega
    · omega
  rw [hpool, bind_iff] at h
  obtain ⟨bond, hbond, h⟩ := h
  obtain ⟨opened, hopened, h⟩ := bind_iff.mp h
  obtain ⟨requested, hrequested, h⟩ := bind_iff.mp h
  obtain ⟨-, rfl⟩ := sub_ok_iff.mp hbond
  obtain ⟨hone, rfl⟩ := sub_ok_iff.mp hopened
  obtain ⟨hreq, rfl⟩ := sub_ok_iff.mp hrequested
  obtain ⟨hid, hcount⟩ := not_or.mp hid
  exact ⟨hid, Nat.not_lt.mp hcount, eq_false_of_ne_true hsettled, Nat.not_le.mp hopen, hone, hreq,
    (Except.ok.inj h).symm⟩

/-- The pro-rata share of a settled refund; a zero request divides to zero. -/
def refundPay (s : State) (r : Refund) : Nat :=
  r.amount * (s.incidents r.incidentId).pool / (s.incidents r.incidentId).requested

theorem refundPay_eq (s : State) (r : Refund) : (if (s.incidents r.incidentId).requested = 0 then 0
      else r.amount * (s.incidents r.incidentId).pool / (s.incidents r.incidentId).requested) = refundPay s r := by
  rw [refundPay]
  split
  · rename_i h
    rw [h, Nat.div_zero]
  · rfl

theorem claimRefund_ok {leafHash : Word} (h : claimRefund C leafHash w = .ok w') :
    (w.escrow.refunds leafHash).incidentId ≠ 0 ∧ (w.escrow.refunds leafHash).paid = false
      ∧ (w.escrow.incidents (w.escrow.refunds leafHash).incidentId).settled = true
      ∧ payOut C.self (w.escrow.refunds leafHash).payer
          (refundPay w.escrow (w.escrow.refunds leafHash)) w.token = .ok w'.token
      ∧ w'.donated = w.donated
      ∧ w'.escrow = { w.escrow with
          refunds := update w.escrow.refunds leafHash
            { w.escrow.refunds leafHash with paid := true } } := by
  rw [claimRefund, guarded_iff, guarded_iff] at h
  obtain ⟨hclaim, hsettled, h⟩ := h
  rw [refundPay_eq, bind_iff] at h
  obtain ⟨token, htoken, h⟩ := h
  obtain ⟨hid, hpaid⟩ := not_or.mp hclaim
  cases h
  exact ⟨hid, eq_false_of_ne_true hpaid, not_not.mp hsettled, htoken, rfl, rfl⟩

theorem claim_ok (h : claim C m w = .ok w') : payOut C.self m.sender (w.escrow.credits m.sender) w.token = .ok w'.token
      ∧ w'.donated = w.donated ∧ w'.escrow = { w.escrow with credits := update w.escrow.credits m.sender 0 } := by
  rw [claim, guarded_iff, bind_iff] at h
  obtain ⟨hsome, token, htoken, h⟩ := h
  rw [safeTransfer_eq_payOut _ hsome] at htoken
  cases h
  exact ⟨htoken, rfl, rfl⟩

/-! ## Calls, transactions and reachable worlds -/

inductive Call where
  | pinQuarantineList (listHash : Word) (entries highWater : List HeadRef)
  | fund (amount : Nat)
  | activate
  | giveNotice
  | cancelNotice
  | withdraw
  | commit (c : Word)
  | revealA (h1 : TreeHead) (s1 : Sig) (h2 : TreeHead) (s2 : Sig) (payTo : Address) (salt : Word)
  | revealB (ev : EvidenceB) (payTo : Address) (salt : Word)
  | finalizeBounty (epoch : UInt32)
  | registerRefund (key : Word) (b : ReceiptBinding) (sig : Sig) (payer : Address)
      (payerSalt : Word)
  | settle (incidentId : Nat)
  | claimRefund (leafHash : Word)
  | claim

/-- A call that leaves the token alone. -/
def onEscrow (f : State → Except Revert State) (w : World) : Except Revert World := do
  let s ← f w.escrow
  .ok { w with escrow := s }

def exec (C : Contract) (m : Msg) : Call → World → Except Revert World
  | .pinQuarantineList listHash entries highWater =>
    onEscrow (pinQuarantineList C m listHash entries highWater)
  | .fund amount => fund C m amount
  | .activate => onEscrow (activate C m)
  | .giveNotice => onEscrow (giveNotice C m)
  | .cancelNotice => onEscrow (cancelNotice C m)
  | .withdraw => withdraw C m
  | .commit c => onEscrow (commit m c)
  | .revealA h1 s1 h2 s2 payTo salt => onEscrow (revealA C m h1 s1 h2 s2 payTo salt)
  | .revealB ev payTo salt => onEscrow (revealB C m ev payTo salt)
  | .finalizeBounty epoch => onEscrow (finalizeBounty m epoch)
  | .registerRefund key b sig payer payerSalt =>
    onEscrow (registerRefund C m key b sig payer payerSalt)
  | .settle incidentId => onEscrow (settle m incidentId)
  | .claimRefund leafHash => claimRefund C leafHash
  | .claim => claim C m

theorem onEscrow_ok_iff {f : State → Except Revert State} :
    onEscrow f w = .ok w' ↔ ∃ s, f w.escrow = .ok s ∧ w' = { w with escrow := s } := by
  rw [onEscrow, bind_iff]
  refine exists_congr fun s => and_congr_right fun _ => ?_
  rw [Except.ok.injEq, eq_comm]

/-- The calls that only the owner may make. -/
def ownerCall : Call → Bool
  | .pinQuarantineList .. | .fund _ | .activate | .giveNotice | .cancelNotice | .withdraw => true
  | _ => false

/-- **WHAT A CALL CAN DO** to the escrow: the owner moves the pinned list, the activation, the notice and
    the bond, and every other call has a specification of its own. -/
inductive Effect (C : Contract) (m : Msg) (s : State) : Call → State → Prop where
  | owner {call : Call} {quarantined : Word → Bool} {listPinned closed : Bool} {listHash : Word}
      {count activatedAt noticeAt bond : Nat} (hcall : ownerCall call = true)
      (hact : s.activatedAt ≠ 0 → activatedAt = s.activatedAt)
      (hnotice : noticeAt = s.noticeAt ∨ noticeAt = 0 ∨ noticeAt = m.timestamp) : Effect C m s call
        { s with
          quarantined := quarantined, listPinned := listPinned, quarantineListHash := listHash, quarantineCount := count
          activatedAt := activatedAt, noticeAt := noticeAt, bondAccounted := bond, closed := closed }
  | commit {c : Word} {s' : State} (hcall : commit m c s = .ok s') : Effect C m s (.commit c) s'
  | revealA {h1 h2 : TreeHead} {s1 s2 : Sig} {payTo : Address} {salt : Word} {s' : State}
      (hcall : revealA C m h1 s1 h2 s2 payTo salt s = .ok s') : Effect C m s (.revealA h1 s1 h2 s2 payTo salt) s'
  | revealB {ev : EvidenceB} {payTo : Address} {salt : Word} {s' : State}
      (hcall : revealB C m ev payTo salt s = .ok s') : Effect C m s (.revealB ev payTo salt) s'
  | finalizeBounty {epoch : UInt32} {s' : State} (hcall : finalizeBounty m epoch s = .ok s') :
      Effect C m s (.finalizeBounty epoch) s'
  | registerRefund {key payerSalt : Word} {b : ReceiptBinding} {sig : Sig} {payer : Address} {s' : State}
      (hcall : registerRefund C m key b sig payer payerSalt s = .ok s') :
      Effect C m s (.registerRefund key b sig payer payerSalt) s'
  | settle {incidentId : Nat} {s' : State} (hcall : settle m incidentId s = .ok s') :
      Effect C m s (.settle incidentId) s'
  | claimRefund {leafHash : Word} {refunds : Word → Refund} :
      Effect C m s (.claimRefund leafHash) { s with refunds := refunds }
  | claim : Effect C m s .claim { s with credits := update s.credits m.sender 0 }

theorem onEscrow_effect {call : Call} {f : State → Except Revert State}
    (hf : ∀ s, f w.escrow = .ok s → Effect C m w.escrow call s) (h : onEscrow f w = .ok w') :
    Effect C m w.escrow call w'.escrow := by
  obtain ⟨s, hcall, rfl⟩ := onEscrow_ok_iff.mp h
  exact hf s hcall

theorem exec_effect {call : Call} (hexec : exec C m call w = .ok w') : Effect C m w.escrow call w'.escrow := by
  cases call with
  | pinQuarantineList listHash entries highWater =>
    refine onEscrow_effect (fun s hcall => ?_) hexec
    obtain ⟨quarantined, rfl⟩ := pinQuarantineList_ok hcall
    exact .owner rfl (fun _ => rfl) (.inl rfl)
  | fund amount =>
    obtain ⟨-, -, -, -, hescrow⟩ := fund_ok hexec
    rw [hescrow]
    exact .owner rfl (fun _ => rfl) (.inl rfl)
  | activate =>
    refine onEscrow_effect (fun s hcall => ?_) hexec
    obtain ⟨hnew, -, rfl⟩ := activate_ok hcall
    exact .owner rfl (fun hact => absurd hnew hact) (.inl rfl)
  | giveNotice =>
    refine onEscrow_effect (fun s hcall => ?_) hexec
    obtain ⟨-, -, -, -, rfl⟩ := giveNotice_ok hcall
    exact .owner rfl (fun _ => rfl) (.inr (.inr (Nat.mod_eq_of_lt (Nat.lt_trans m.inRange (by decide)))))
  | cancelNotice =>
    refine onEscrow_effect (fun s hcall => ?_) hexec
    obtain rfl := cancelNotice_ok hcall
    exact .owner rfl (fun _ => rfl) (.inr (.inl rfl))
  | withdraw =>
    obtain ⟨-, -, reserve, -, -, -, hescrow⟩ := withdraw_ok hexec
    rw [hescrow]
    exact .owner rfl (fun _ => rfl) (.inl rfl)
  | commit c => exact onEscrow_effect (fun _ => .commit) hexec
  | revealA h1 s1 h2 s2 payTo salt => exact onEscrow_effect (fun _ => .revealA) hexec
  | revealB ev payTo salt => exact onEscrow_effect (fun _ => .revealB) hexec
  | finalizeBounty epoch => exact onEscrow_effect (fun _ => .finalizeBounty) hexec
  | registerRefund key b sig payer payerSalt => exact onEscrow_effect (fun _ => .registerRefund) hexec
  | settle incidentId => exact onEscrow_effect (fun _ => .settle) hexec
  | claimRefund leafHash =>
    obtain ⟨-, -, -, -, -, hescrow⟩ := claimRefund_ok hexec
    rw [hescrow]
    exact .claimRefund
  | claim =>
    obtain ⟨-, -, hescrow⟩ := claim_ok hexec
    rw [hescrow]
    exact .claim

/-- A call, or what the rest of the chain does to the token: balances and allowances of
    others move in any way, and the escrow may be sent a gift. -/
inductive Action where
  | call (c : Call)
  | outside (balances allowance : Address → Nat) (gift : Nat)

structure Tx where
  msg : Msg
  action : Action

/-- A call that reverts changes nothing, and the escrow never calls itself. -/
def step (C : Contract) (w : World) (tx : Tx) : World :=
  match tx.action with
  | .call c =>
    if tx.msg.sender = C.self then w
    else
      match exec C tx.msg c w with
      | .error _ => w
      | .ok w' => w'
  | .outside balances allowance gift =>
    { w with
      token := { w.token with
        balanceOf := update balances C.self (w.token.balanceOf C.self + gift)
        allowance := allowance }
      donated := w.donated + gift }

/-- A contract whose constructor succeeded. -/
def Deployed (C : Contract) : Prop :=
  ∃ tokenCodeLength tokenDecimals liveHead liveSig,
    deploy C.hashes C.chainid tokenCodeLength tokenDecimals C.self C.owner C.token C.kid C.pubX
      C.pubY C.logSalt liveHead liveSig = .ok C

/-- The world at deployment; what the address already held counts as donated. -/
def start (C : Contract) (token : Token) : World where
  escrow := initial
  token := token
  donated := token.balanceOf C.self

/-- Worlds that transactions lead to from deployment, with the block time reached. -/
inductive Reachable (C : Contract) : World → Nat → Prop where
  | deployed (h : Deployed C) (token : Token) (now : Nat) : Reachable C (start C token) now
  | step {w : World} {now : Nat} (h : Reachable C w now) (tx : Tx)
      (hlater : now ≤ tx.msg.timestamp) : Reachable C (step C w tx) tx.msg.timestamp
  | wait {w : World} {now : Nat} (h : Reachable C w now) {later : Nat} (hle : now ≤ later) :
      Reachable C w later

/-- **WHAT HOLDS OF EVERY REACHABLE WORLD**: a property that waiting, gifts and successful
    calls keep. -/
theorem Reachable.induct (Inv : World → Nat → Prop) (start : ∀ token now, Inv (start C token) now)
    (wait : ∀ w now later, Inv w now → now ≤ later → Inv w later)
    (outside : ∀ w now balances allowance gift, Inv w now → Inv { w with
      token := { w.token with
        balanceOf := update balances C.self (w.token.balanceOf C.self + gift)
        allowance := allowance }
      donated := w.donated + gift } now)
    (call : ∀ w m c w', Inv w m.timestamp → m.sender ≠ C.self → exec C m c w = .ok w' →
      Inv w' m.timestamp) {now : Nat} (h : Reachable C w now) : Inv w now := by
  induction h with
  | deployed _ token now => exact start token now
  | wait _ hle ih => exact wait _ _ _ ih hle
  | step _ tx hlater ih =>
    have ih := wait _ _ _ ih hlater
    rw [EscrowStep.step]
    cases haction : tx.action with
    | outside balances allowance gift => exact outside _ _ _ _ _ ih
    | call c =>
      simp only
      split
      · exact ih
      · rename_i hself
        split
        · exact ih
        · rename_i w' hexec
          exact call _ _ _ _ ih hself hexec

end EscrowStep
