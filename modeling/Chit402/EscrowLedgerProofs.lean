import Chit402.EscrowStepProofs
import Chit402.FiniteSumProofs
import Mathlib.Data.FinEnum

/-! # The escrow's books

    What the contract owes, and the counters it keeps next to the maps:

    `solvent` is the invariant of every reachable world. -/

namespace EscrowLedger

open Solidity EscrowState EscrowContract EscrowStep FiniteSum Function Finset

variable {C : Contract} {m : Msg}

/-! ## What the contract owes -/

/-- What a refund took from incident `i`. -/
def paidShare (inc : Incident) (i : Nat) (r : Refund) : Nat :=
  if r.incidentId = i ∧ r.paid = true then r.amount * inc.pool / inc.requested else 0

/-- The refunds already paid from incident `i`. -/
def paidOut (s : State) (i : Nat) : Nat :=
  ∑ leaf : Word, paidShare (s.incidents i) i (s.refunds leaf)

/-- What a refund asks of incident `i`. -/
def askedShare (i : Nat) (r : Refund) : Nat := if r.incidentId = i then r.amount else 0

/-- The refunds registered under incident `i`. -/
def asked (s : State) (i : Nat) : Nat := ∑ leaf : Word, askedShare i (s.refunds leaf)

/-- What is left of a settled pool. -/
def unclaimed (s : State) (i : Nat) : Nat :=
  if (s.incidents i).settled then (s.incidents i).pool - paidOut s i else 0

def obligations (s : State) : Nat :=
  s.bondAccounted + ∑ a : Address, s.credits a
    + ∑ i ∈ range (s.incidentCount + 1), unclaimed s i

/-- A bounty revealed and not yet finalized. -/
def pendingShare (b : EpochBounty) : Nat :=
  if b.firstRevealAt ≠ 0 ∧ b.finalized = false then 1 else 0

/-- **THE BOOKS**: every counter is the sum it stands for. -/
structure Books (s : State) : Prop where
  incidentOf_le : ∀ ik, s.incidentOf ik ≤ s.incidentCount
  bKey_le : ∀ key, (s.bKeys key).incidentId ≤ s.incidentCount
  refund_le : ∀ leaf, (s.refunds leaf).incidentId ≤ s.incidentCount
  zeroth : s.incidents 0 = noIncident
  settledBefore : ∀ i, 1 ≤ i → i < s.incidentCount → (s.incidents i).settled = true
  openIncidents_eq : s.openIncidents
    = if s.incidentCount ≠ 0 ∧ (s.incidents s.incidentCount).settled = false then 1 else 0
  openRequested_eq : s.openRequested
    = if (s.incidents s.incidentCount).settled then 0
      else (s.incidents s.incidentCount).requested
  asked_eq : ∀ i, 1 ≤ i → i ≤ s.incidentCount → asked s i = (s.incidents i).requested
  paid_settled : ∀ leaf, (s.refunds leaf).paid = true →
    (s.incidents (s.refunds leaf).incidentId).settled = true
  pool_le : ∀ i, (s.incidents i).settled = true → (s.incidents i).pool ≤ (s.incidents i).requested
  pending_eq : s.pendingBounties = ∑ epoch : UInt32, pendingShare (s.bounties epoch)
  bountiesPaid_le : s.bountiesPaid ≤ bountyCap
  frozenUsed_le : s.frozenUsed ≤ freezeCap

theorem books_initial : Books initial := by
  refine ⟨fun _ => Nat.le_refl 0, fun _ => Nat.le_refl 0, fun _ => Nat.le_refl 0, rfl,
    fun i h1 h2 => ?_, rfl, rfl, fun i h1 h2 => ?_, fun _ h => ?_, fun _ h => ?_, ?_,
    Nat.zero_le _, Nat.zero_le _⟩
  · exact absurd h2 (Nat.not_lt_zero i)
  · exact absurd (Nat.le_trans h1 h2) (by decide)
  · cases h
  · cases h
  · exact (sum_eq_zero fun _ _ => rfl).symm

/-! ## Consequences of the books -/

variable {i incidentId : Nat} {r : Refund} {s s' : State} {epoch : UInt32} {key leaf : Word}

theorem Books.last_of_unsettled (h : Books s) (h0 : i ≠ 0) (hle : i ≤ s.incidentCount)
    (hopen : (s.incidents i).settled = false) : i = s.incidentCount := by
  rcases Nat.lt_or_eq_of_le hle with hlt | heq
  · rw [h.settledBefore i (by omega) hlt] at hopen
    cases hopen
  · exact heq

theorem Books.paidOut_le (h : Books s) (h0 : i ≠ 0) (hle : i ≤ s.incidentCount) :
    paidOut s i ≤ (s.incidents i).pool := by
  have hasked := h.asked_eq i (by omega) hle
  calc paidOut s i
      ≤ ∑ leaf : Word, askedShare i (s.refunds leaf) * (s.incidents i).pool
          / (s.incidents i).requested := by
        refine sum_le_sum fun leaf _ => ?_
        rw [paidShare, askedShare]
        split
        · rename_i hp
          rw [if_pos hp.1]
        · exact Nat.zero_le _
    _ ≤ (s.incidents i).pool := sum_share_le _ _ (Nat.le_of_eq hasked)

theorem Books.paidOut_unsettled (h : Books s) (inc : Incident) (hopen : (s.incidents i).settled = false) :
    ∑ leaf : Word, paidShare inc i (s.refunds leaf) = 0 := by
  refine sum_eq_zero fun leaf _ => ?_
  rw [paidShare, if_neg]
  rintro ⟨rfl, hp⟩
  rw [h.paid_settled leaf hp] at hopen
  cases hopen

theorem Books.unclaimed_zero (h : Books s) : unclaimed s 0 = 0 := by
  rw [unclaimed, h.zeroth]
  rfl

theorem Books.asked_beyond (h : Books s) (hi : s.incidentCount < i) : asked s i = 0 := by
  refine sum_eq_zero fun leaf _ => ?_
  have := h.refund_le leaf
  rw [askedShare, if_neg (by omega)]

/-- With no incident open, the last one is settled too. -/
theorem Books.all_settled (h : Books s) (hnone : s.openIncidents = 0) (h1 : 1 ≤ i) (hle : i ≤ s.incidentCount) :
    (s.incidents i).settled = true := by
  rcases Nat.lt_or_eq_of_le hle with hlt | rfl
  · exact h.settledBefore i h1 hlt
  · rw [h.openIncidents_eq] at hnone
    split at hnone
    · cases hnone
    · rename_i hopen
      exact eq_true_of_ne_false fun hf => hopen ⟨by omega, hf⟩

theorem Books.openRequested_zero (h : Books s) (hnone : s.openIncidents = 0) : s.openRequested = 0 := by
  rw [h.openRequested_eq]
  split
  · rfl
  · rename_i hopen
    rcases Nat.eq_zero_or_pos s.incidentCount with h0 | hpos
    · rw [h0, h.zeroth]
      rfl
    · exact absurd (h.all_settled hnone hpos (Nat.le_refl _)) hopen

/-! ## Recording evidence -/

theorem pending_update (bounties : UInt32 → EpochBounty) (epoch : UInt32) (b : EpochBounty) :
    ∑ e : UInt32, pendingShare (update bounties epoch b e) + pendingShare (bounties epoch)
      = ∑ e : UInt32, pendingShare (bounties e) + pendingShare b :=
  sum_update (mem_univ epoch) (fun _ b => pendingShare b) bounties b

/-- The pending counter follows the first reveal of an epoch. -/
theorem noteBounty_pending {epoch : UInt32} {seq : Nat} {payTo : Address} {s : State}
    (h : s.pendingBounties = ∑ e : UInt32, pendingShare (s.bounties e)) (htime : m.timestamp ≠ 0) :
    (noteBounty m epoch seq payTo s).pendingBounties
      = ∑ e : UInt32, pendingShare ((noteBounty m epoch seq payTo s).bounties e) := by
  have hstamp : m.timestamp % 2 ^ 64 = m.timestamp :=
    Nat.mod_eq_of_lt (Nat.lt_trans m.inRange (by decide))
  have hupdate := pending_update s.bounties epoch
  rw [noteBounty]
  split
  · exact h
  · rename_i hopen
    have hopen := eq_false_of_ne_true hopen
    split
    · rename_i hfirst
      have hnew := hupdate { s.bounties epoch with
        firstRevealAt := m.timestamp % 2 ^ 64, bestSeq := seq, bestPayTo := payTo }
      rw [pendingShare, if_neg (fun hp => hp.1 hfirst), pendingShare,
        if_pos ⟨by rw [hstamp]; exact htime, hopen⟩, ← h, Nat.add_zero] at hnew
      exact hnew.symm
    · rename_i hfirst
      split
      · have hnew := hupdate { s.bounties epoch with bestSeq := seq, bestPayTo := payTo }
        rw [pendingShare, if_pos ⟨hfirst, hopen⟩, pendingShare, if_pos ⟨hfirst, hopen⟩, ← h] at hnew
        exact (Nat.add_right_cancel hnew).symm
      · exact h

theorem Books.noted (h : Books s) (epoch : UInt32) (seq : Nat) (payTo : Address) (htime : m.timestamp ≠ 0) :
    Books (noteBounty m epoch seq payTo s) := by
  have hpending := @noteBounty_pending m epoch seq payTo s h.pending_eq htime
  obtain ⟨bounties, pending, heq⟩ := @noteBounty_frame m epoch seq payTo s
  rw [heq] at hpending ⊢
  exact { h with pending_eq := hpending }

/-- A new incident starts with empty books. -/
theorem Books.opened (h : Books s) (hopen : OpenedOrJoined C m epoch s incidentId s') :
    Books s' ∧ incidentId ≤ s'.incidentCount := by
  cases hopen with
  | joined => exact ⟨h, h.incidentOf_le _⟩
  | opened _ hnone hcap incidentId hid close «until» frozenUsed freezeUntil _ _ hused _ =>
    subst hid
    generalize hinc : Incident.mk epoch m.timestamp close «until» false 0 0 = inc
    have hunsettled : inc.settled = false := by rw [← hinc]
    have hnone' : inc.requested = 0 := by rw [← hinc]
    have hold : ∀ i, i ≤ s.incidentCount →
        update s.incidents (s.incidentCount + 1) inc i = s.incidents i :=
      fun i hle => update_of_ne (Nat.ne_of_lt (Nat.lt_succ_of_le hle)) inc s.incidents
    have hself := update_self (s.incidentCount + 1) inc s.incidents
    refine ⟨?_, Nat.le_refl _⟩
    constructor
    case incidentOf_le =>
      intro ik
      show update s.incidentOf (incidentKey C epoch) (s.incidentCount + 1) ik ≤ _
      rw [update_apply]
      split
      · exact Nat.le_refl _
      · exact Nat.le_succ_of_le (h.incidentOf_le ik)
    case bKey_le => exact fun key => Nat.le_succ_of_le (h.bKey_le key)
    case refund_le => exact fun leaf => Nat.le_succ_of_le (h.refund_le leaf)
    case zeroth => exact (hold 0 (Nat.zero_le _)).trans h.zeroth
    case settledBefore =>
      intro i h1 hlt
      have hle := Nat.le_of_lt_succ hlt
      exact (congrArg Incident.settled (hold i hle)).trans (h.all_settled hnone h1 hle)
    case openIncidents_eq =>
      exact (if_pos ⟨Nat.succ_ne_zero _,
        (congrArg Incident.settled hself).trans hunsettled⟩).symm
    case openRequested_eq =>
      show s.openRequested = if (update s.incidents (s.incidentCount + 1) inc
          (s.incidentCount + 1)).settled then 0
        else (update s.incidents (s.incidentCount + 1) inc (s.incidentCount + 1)).requested
      rw [hself, h.openRequested_zero hnone, hunsettled, hnone']
      rfl
    case asked_eq =>
      intro i h1 hle
      show asked s i = (update s.incidents (s.incidentCount + 1) inc i).requested
      rcases Nat.lt_or_eq_of_le hle with hlt | rfl
      · rw [hold i (Nat.le_of_lt_succ hlt)]
        exact h.asked_eq i h1 (Nat.le_of_lt_succ hlt)
      · rw [hself, hnone']
        exact h.asked_beyond (Nat.lt_succ_self _)
    case paid_settled =>
      intro leaf hpaid
      exact (congrArg Incident.settled (hold _ (h.refund_le leaf))).trans
        (h.paid_settled leaf hpaid)
    case pool_le =>
      intro i
      show (update s.incidents (s.incidentCount + 1) inc i).settled = true →
        (update s.incidents (s.incidentCount + 1) inc i).pool
          ≤ (update s.incidents (s.incidentCount + 1) inc i).requested
      rw [update_apply]
      split
      · rw [hunsettled]
        exact fun hs => nomatch hs
      · exact h.pool_le i
    case pending_eq => exact h.pending_eq
    case bountiesPaid_le => exact h.bountiesPaid_le
    case frozenUsed_le =>
      show frozenUsed ≤ freezeCap
      rw [hused, freezeLength]
      omega

theorem Books.recorded {evidenceType : Nat} {seq : Nat} {payTo : Address} {lo hi : Word} (h : Books s)
    (htime : m.timestamp ≠ 0) (hrecord : record C m key evidenceType epoch seq payTo lo hi s = .ok s') : Books s' := by
  obtain ⟨incidentId, s1, hopen, rfl⟩ := record_ok hrecord
  obtain ⟨h1, hid⟩ := h.opened hopen
  apply Books.noted _ epoch seq payTo htime
  refine { h1 with bKey_le := fun key' => ?_ }
  show ((if evidenceType = evidenceB then update s1.bKeys key _ else s1.bKeys) key').incidentId ≤ _
  split
  · rw [update_apply]
    split
    · exact hid
    · exact h1.bKey_le key'
  · exact h1.bKey_le key'

theorem Books.revealed {s s' : State} (h : Books s) (hr : Revealed C m s s') : Books s' := by
  obtain ⟨commits, key, evidenceType, epoch, seq, payTo, lo, hi, hrecord⟩ := hr.recorded
  have htime : m.timestamp ≠ 0 := Nat.ne_of_gt (Nat.lt_of_lt_of_le (by decide) hr.late)
  have hs : Books { s with commits := commits } := { h with }
  exact hs.recorded htime hrecord

/-! ## Bounties and refunds -/

/-- Finalizing an epoch takes it off the pending ones. -/
theorem Books.finalized_pending (h : Books s) (paid : Nat) (hfirst : (s.bounties epoch).firstRevealAt ≠ 0)
    (hfinal : (s.bounties epoch).finalized = false) : s.pendingBounties - 1 = ∑ e : UInt32, pendingShare
      (update s.bounties epoch { s.bounties epoch with finalized := true, paid := paid } e) := by
  have hnew := pending_update s.bounties epoch
    { s.bounties epoch with finalized := true, paid := paid }
  rw [pendingShare, if_pos ⟨hfirst, hfinal⟩, pendingShare, if_neg (fun hp => nomatch hp.2),
    ← h.pending_eq, Nat.add_zero] at hnew
  omega

theorem Books.finalized {epoch : UInt32} {s s' : State} (h : Books s)
    (hcall : finalizeBounty m epoch s = .ok s') : Books s' := by
  obtain ⟨hfirst, hfinal, -, pay, hpay, rfl⟩ := finalizeBounty_ok hcall
  have hcap := bountyPay_cap h.bountiesPaid_le
  rw [← hpay] at hcap
  exact { h with
    pending_eq := h.finalized_pending pay hfirst hfinal
    bountiesPaid_le := hcap }

theorem asked_update (s : State) (leaf : Word) (r : Refund) (i : Nat) :
    ∑ x : Word, askedShare i (update s.refunds leaf r x) + askedShare i (s.refunds leaf) = asked s i + askedShare i r :=
  sum_update (mem_univ leaf) (fun _ r => askedShare i r) s.refunds r

theorem paidOut_update (hinc : s'.incidents i = s.incidents i) (hrefunds : s'.refunds = update s.refunds leaf r) :
    paidOut s' i + paidShare (s.incidents i) i (s.refunds leaf) = paidOut s i + paidShare (s.incidents i) i r := by
  rw [paidOut, hinc, hrefunds]
  exact sum_update (mem_univ leaf) (fun _ r => paidShare (s.incidents i) i r) s.refunds r

theorem paidOut_same (hinc : s'.incidents i = s.incidents i) (hrefunds : s'.refunds = update s.refunds leaf r)
    (hshare : paidShare (s.incidents i) i r = paidShare (s.incidents i) i (s.refunds leaf)) :
    paidOut s' i = paidOut s i := by
  have hsum := paidOut_update hinc hrefunds
  rw [hshare] at hsum
  exact Nat.add_right_cancel hsum

/-- A refund is registered under the open incident, which is the last. -/
theorem Books.registered {b : ReceiptBinding} {sig : Sig} {payer : Address} {payerSalt : Word} (h : Books s)
    (hcall : registerRefund C m key b sig payer payerSalt s = .ok s') : Books s' := by
  obtain ⟨hid, -, hsettled, -, hfresh, rfl⟩ := registerRefund_ok hcall
  generalize refundAmount b = amount
  -- an incident not settled is the last one
  have hlast := h.last_of_unsettled hid (h.bKey_le key) hsettled
  rw [hlast] at hid hsettled ⊢
  generalize hinc : { s.incidents s.incidentCount with
    requested := (s.incidents s.incidentCount).requested + amount } = inc
  have hunsettled : inc.settled = false := by rw [← hinc]; exact hsettled
  have hrequested : inc.requested = (s.incidents s.incidentCount).requested + amount := by
    rw [← hinc]
  have hold : ∀ i, i ≠ s.incidentCount →
      update s.incidents s.incidentCount inc i = s.incidents i :=
    fun i hi => update_of_ne hi inc s.incidents
  have hself := update_self s.incidentCount inc s.incidents
  generalize hr : Refund.mk payer amount false s.incidentCount = r
  have hasked : ∀ i, 1 ≤ i → ∑ x : Word, askedShare i (update s.refunds b.leafHash r x)
      = asked s i + if i = s.incidentCount then amount else 0 := by
    intro i h1
    have hsum := asked_update s b.leafHash r i
    rw [askedShare, hfresh, if_neg (Nat.ne_of_lt h1), Nat.add_zero, askedShare, ← hr] at hsum
    rw [← hr, hsum]
    simp only [eq_comm]
  constructor
  case incidentOf_le => exact h.incidentOf_le
  case bKey_le => exact h.bKey_le
  case refund_le =>
    intro leaf
    show (update s.refunds b.leafHash r leaf).incidentId ≤ _
    rw [update_apply]
    split
    · rw [← hr]
    · exact h.refund_le leaf
  case zeroth => exact (hold 0 hid.symm).trans h.zeroth
  case settledBefore =>
    intro i h1 hlt
    exact (congrArg Incident.settled (hold i (Nat.ne_of_lt hlt))).trans (h.settledBefore i h1 hlt)
  case openIncidents_eq =>
    exact (h.openIncidents_eq.trans (if_pos ⟨hid, hsettled⟩)).trans
      (if_pos ⟨hid, (congrArg Incident.settled hself).trans hunsettled⟩).symm
  case openRequested_eq =>
    have hopen := h.openRequested_eq
    simp only [hsettled] at hopen
    simp only [hself, hunsettled, hrequested, hopen]
    rfl
  case asked_eq =>
    intro i h1 hle
    refine (hasked i h1).trans ?_
    rw [h.asked_eq i h1 hle]
    by_cases hi : i = s.incidentCount
    · subst hi
      simp only [hself, hrequested, if_true]
    · rw [if_neg hi]
      exact congrArg Incident.requested (hold i hi).symm
  case paid_settled =>
    intro leaf
    show (update s.refunds b.leafHash r leaf).paid = true →
      (update s.incidents s.incidentCount inc (update s.refunds b.leafHash r leaf).incidentId).settled
        = true
    rw [update_apply s.refunds]
    split
    · rw [← hr]
      exact fun hp => nomatch hp
    · intro hp
      have := h.paid_settled leaf hp
      rw [hold _ fun heq => by rw [heq, hsettled] at this; cases this]
      exact this
  case pool_le =>
    intro i
    show (update s.incidents s.incidentCount inc i).settled = true →
      (update s.incidents s.incidentCount inc i).pool
        ≤ (update s.incidents s.incidentCount inc i).requested
    rw [update_apply]
    split
    · rw [hunsettled]
      exact fun hs => nomatch hs
    · exact h.pool_le i
  case pending_eq => exact h.pending_eq
  case bountiesPaid_le => exact h.bountiesPaid_le
  case frozenUsed_le => exact h.frozenUsed_le

/-- Settling closes the open incident, which is the last. -/
theorem Books.settled (h : Books s) (hcall : settle m incidentId s = .ok s') : Books s' := by
  obtain ⟨hid, hle, hsettled, -, -, -, rfl⟩ := settle_ok hcall
  obtain rfl := h.last_of_unsettled hid hle hsettled
  have hpool : settlePool s s.incidentCount ≤ (s.incidents s.incidentCount).requested :=
    Nat.min_le_left _ _
  generalize settlePool s s.incidentCount = pool at hpool ⊢
  generalize hinc : { s.incidents s.incidentCount with pool := pool, settled := true } = inc
  have hclosed : inc.settled = true := by rw [← hinc]
  have hrequested : inc.requested = (s.incidents s.incidentCount).requested := by rw [← hinc]
  have hinPool : inc.pool ≤ inc.requested := by rw [← hinc]; exact hpool
  have hold : ∀ i, i ≠ s.incidentCount →
      update s.incidents s.incidentCount inc i = s.incidents i :=
    fun i hi => update_of_ne hi inc s.incidents
  have hself := update_self s.incidentCount inc s.incidents
  exact { h with
    zeroth := (hold 0 hid.symm).trans h.zeroth
    settledBefore := fun i h1 hlt =>
      (congrArg Incident.settled (hold i (Nat.ne_of_lt hlt))).trans (h.settledBefore i h1 hlt)
    openIncidents_eq := by
      have hopen := h.openIncidents_eq
      rw [if_pos ⟨hid, hsettled⟩] at hopen
      refine (congrArg (· - 1) hopen).trans (if_neg fun hs => ?_).symm
      cases ((congrArg Incident.settled hself).trans hclosed).symm.trans hs.2
    openRequested_eq := by
      have hopen := h.openRequested_eq
      rw [hsettled] at hopen
      simp only [hself, hclosed, hopen]
      exact Nat.sub_self _
    asked_eq := fun i h1 hle => by
      refine (h.asked_eq i h1 hle).trans ?_
      by_cases hi : i = s.incidentCount
      · subst hi
        simp only [hself, hrequested]
      · exact congrArg Incident.requested (hold i hi).symm
    paid_settled := fun leaf hp => by
      by_cases hi : (s.refunds leaf).incidentId = s.incidentCount
      · simp only [hi, hself, hclosed]
      · exact (congrArg Incident.settled (hold _ hi)).trans (h.paid_settled leaf hp)
    pool_le := fun i => by
      by_cases hi : i = s.incidentCount
      · subst hi
        simp only [hself]
        exact fun _ => hinPool
      · simp only [hold i hi]
        exact h.pool_le i }

/-- Paying a refund of a settled incident only marks it paid. -/
theorem Books.refunded (h : Books s) (hsettled : (s.incidents (s.refunds leaf).incidentId).settled = true) :
    Books { s with refunds := update s.refunds leaf { s.refunds leaf with paid := true } } := by
  generalize hr : { s.refunds leaf with paid := true } = r
  have hsame : r.incidentId = (s.refunds leaf).incidentId := by rw [← hr]
  have hasked : ∀ i, askedShare i r = askedShare i (s.refunds leaf) := fun i => by rw [← hr]; rfl
  exact { h with
    refund_le := fun x => by
      show (update s.refunds leaf r x).incidentId ≤ _
      rw [update_apply]
      split
      · rw [hsame]
        exact h.refund_le leaf
      · exact h.refund_le x
    asked_eq := fun i h1 hle => by
      have hsum := asked_update s leaf r i
      rw [hasked, h.asked_eq i h1 hle] at hsum
      exact Nat.add_right_cancel hsum
    paid_settled := fun x => by
      show (update s.refunds leaf r x).paid = true →
        (s.incidents (update s.refunds leaf r x).incidentId).settled = true
      rw [update_apply]
      split
      · rw [hsame]
        exact fun _ => hsettled
      · exact h.paid_settled x }

end EscrowLedger
