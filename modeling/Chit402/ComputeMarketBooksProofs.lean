import Chit402.ComputeMarketStepProofs

/-! # The books of the compute marketplace

    What every message keeps: each task's escrow is what was sent less the
    fee, and is paid out when the task settles or is cancelled; each deposit
    is paid back when its bid is closed; an active bid is listed under a
    task that is open or bidding.  The last is what `acceptBid` rests on,
    which reads no status. -/

namespace ComputeMarketBooks

open OrderedMap ComputeMarket ComputeMarketStep Function

variable {s s' : Store} {sends : List BankSend} {h h' : History} {env : Env} {info : MessageInfo}
  {bids bids' : OrderedMap String Bid} {tasks tasks' : OrderedMap String Task}
  {lists lists' : OrderedMap String (List String)} {id : String} {t : Task} {b : Bid}

/-! ## One task -/

/-- What was sent with a task. -/
def sentWith (h : History) (taskId : String) : ℕ := (h.taskFunds taskId).elim 0 Coin.amount

def feePaid (h : History) (taskId : String) : ℕ := total (paidFor (.fee taskId) h.payments)

def netEscrow (h : History) (taskId : String) : ℕ := sentWith h taskId - feePaid h taskId

/-- The bid a task was assigned to. -/
def Winner (bids : OrderedMap String Bid) (t : Task) (b : Bid) : Prop :=
  bids.lookup t.winningBidId = some b ∧ b.taskId = t.taskId ∧ b.active = false

/-- What the winner's provider gets: the price, as far as the escrow goes. -/
def award (t : Task) (b : Bid) (net : ℕ) : ℕ := min (b.price * t.duration) net

/-- The payments out of a task's escrow, by status. -/
def EscrowPaid (bids : OrderedMap String Bid) (net : ℕ) (t : Task) (paid : List (String × ℕ)) : Prop :=
  match t.status with
  | .open | .bidding => paid = []
  | .assigned | .computing => paid = [] ∧ ∃ b, Winner bids t b
  | .settled => ∃ b, Winner bids t b ∧ paid = nonzero [(b.provider, award t b net), (t.requester, net - award t b net)]
  | .cancelled => paid = nonzero [(t.requester, net)]
  | .completed => False

structure TaskBooks (h : History) (bids : OrderedMap String Bid) (id : String) (t : Task) : Prop where
  key : t.taskId = id
  fee : feePaid h id ≤ sentWith h id
  escrow : t.status ≠ .cancelled → t.escrow = netEscrow h id
  paid : EscrowPaid bids (netEscrow h id) t (paidFor (.escrow id) h.payments)

/-- Bids keep what they were placed with, and stay closed. -/
def SameTerms (b b' : Bid) : Prop :=
  b'.taskId = b.taskId ∧ b'.provider = b.provider ∧ b'.price = b.price ∧ (b.active = false → b'.active = false)

def BidsKept (bids bids' : OrderedMap String Bid) : Prop :=
  ∀ id b, bids.lookup id = some b → ∃ b', bids'.lookup id = some b' ∧ SameTerms b b'

theorem bidsKept_refl (bids : OrderedMap String Bid) : BidsKept bids bids :=
  fun _ b hb => ⟨b, hb, rfl, rfl, rfl, fun hc => hc⟩

theorem bidsKept_new (b : Bid) (hnew : bids.lookup id = none) : BidsKept bids (set bids id b) := by
  intro k u hu
  have hne : k ≠ id := by
    rintro rfl
    rw [hnew] at hu
    cases hu
  exact ⟨u, (lookup_set_ne bids b hne).trans hu, rfl, rfl, rfl, fun hc => hc⟩

theorem sameTerms_released (ids : List String) (id : String) (b : Bid) : SameTerms b (released ids id b) := by
  unfold released
  split
  · exact ⟨rfl, rfl, rfl, fun _ => rfl⟩
  · exact ⟨rfl, rfl, rfl, fun hc => hc⟩

theorem bidsKept_released (ids : List String) (bids : OrderedMap String Bid) :
    BidsKept bids (releaseBids ids bids).1 := by
  intro k b hb
  refine ⟨released ids k b, ?_, sameTerms_released ids k b⟩
  rw [releaseBids_lookup, hb, Option.map_some]

theorem winner_kept (hkept : BidsKept bids bids') (hw : Winner bids t b) :
    ∃ b', Winner bids' t b' ∧ b'.provider = b.provider ∧ b'.price = b.price := by
  obtain ⟨hlookup, htask, hclosed⟩ := hw
  obtain ⟨b', hlookup', htask', hprovider, hprice, hstays⟩ := hkept _ _ hlookup
  exact ⟨b', ⟨hlookup', htask'.trans htask, hstays hclosed⟩, hprovider, hprice⟩

variable {bid : Bid} {paid : List (String × ℕ)} {ids : List String} {taskId : String} {task task' : Task}
  {status : TaskStatus} {net : ℕ}

theorem early_not_cancelled (h : Early status) : status ≠ .cancelled := by
  rintro rfl
  rcases h with hs | hs
  · cases hs
  · cases hs

theorem early_not_assigned (h : Early status) : ¬ (status = .assigned ∨ status = .computing) := by
  rcases h with rfl | rfl
  · rintro (hs | hs)
    · cases hs
    · cases hs
  · rintro (hs | hs)
    · cases hs
    · cases hs

theorem escrowPaid_early (hstatus : Early t.status) : EscrowPaid bids net t paid ↔ paid = [] := by
  unfold EscrowPaid
  rcases hstatus with hs | hs
  · rw [hs]
  · rw [hs]

theorem escrowPaid_kept (hkept : BidsKept bids bids') (hpaid : EscrowPaid bids net t paid) :
    EscrowPaid bids' net t paid := by
  unfold EscrowPaid at hpaid ⊢
  cases hstatus : t.status with
  | «open» | bidding | completed | cancelled =>
    rw [hstatus] at hpaid
    exact hpaid
  | assigned | computing =>
    rw [hstatus] at hpaid
    obtain ⟨hnone, b, hw⟩ := hpaid
    obtain ⟨b', hw', -, -⟩ := winner_kept hkept hw
    exact ⟨hnone, b', hw'⟩
  | settled =>
    rw [hstatus] at hpaid
    obtain ⟨b, hw, heq⟩ := hpaid
    obtain ⟨b', hw', hprovider, hprice⟩ := winner_kept hkept hw
    refine ⟨b', hw', ?_⟩
    rw [heq, award, award, hprovider, hprice]

/-- A task whose money does not move keeps its books. -/
theorem TaskBooks.frame (tb : TaskBooks h bids id t) (hkept : BidsKept bids bids')
    (hfunds : h'.taskFunds id = h.taskFunds id) (hfee : paidFor (.fee id) h'.payments = paidFor (.fee id) h.payments)
    (hescrow : paidFor (.escrow id) h'.payments = paidFor (.escrow id) h.payments) : TaskBooks h' bids' id t := by
  have hsent : sentWith h' id = sentWith h id := by rw [sentWith, hfunds, ← sentWith]
  have hpaid : feePaid h' id = feePaid h id := by rw [feePaid, hfee, ← feePaid]
  have hnet : netEscrow h' id = netEscrow h id := by rw [netEscrow, hsent, hpaid, ← netEscrow]
  refine ⟨tb.key, ?_, ?_, ?_⟩
  · rw [hsent, hpaid]
    exact tb.fee
  · intro hlive
    rw [hnet]
    exact tb.escrow hlive
  · rw [hnet, hescrow]
    exact escrowPaid_kept hkept tb.paid

/-! ## One bid -/

structure BidBooks (h : History) (tasks : OrderedMap String Task) (lists : OrderedMap String (List String))
    (id : String) (b : Bid) : Prop where
  key : b.bidId = id
  stake : b.deposit ≠ 0
  funds : ∃ coin, h.bidFunds id = some coin ∧ coin.amount = b.deposit
  paid : paidFor (.deposit id) h.payments = if b.active = true then [] else [(b.provider, b.deposit)]
  listed : ∃ ids, lists.lookup b.taskId = some ids ∧ id ∈ ids
  task : ∃ t, tasks.lookup b.taskId = some t ∧ (b.active = true → Early t.status)

/-- A bid that is not touched keeps its books while its task takes bids and its list grows. -/
theorem BidBooks.frame (bb : BidBooks h tasks lists id b) (htasks : ∀ t, tasks.lookup b.taskId = some t →
      ∃ t', tasks'.lookup b.taskId = some t' ∧ (b.active = true → Early t.status → Early t'.status))
    (hlists : (∃ t, tasks.lookup b.taskId = some t) → ∀ ids, lists.lookup b.taskId = some ids →
      ∃ ids', lists'.lookup b.taskId = some ids' ∧ ids ⊆ ids') (hfunds : h'.bidFunds id = h.bidFunds id)
    (hpaid : paidFor (.deposit id) h'.payments = paidFor (.deposit id) h.payments) :
    BidBooks h' tasks' lists' id b := by
  obtain ⟨ids, hids, hmem⟩ := bb.listed
  obtain ⟨t, ht, hearly⟩ := bb.task
  obtain ⟨ids', hids', hsub⟩ := hlists ⟨t, ht⟩ ids hids
  obtain ⟨t', ht', hkeep⟩ := htasks t ht
  refine ⟨bb.key, bb.stake, ?_, ?_, ⟨ids', hids', hsub hmem⟩, ⟨t', ht', fun hactive => hkeep hactive (hearly hactive)⟩⟩
  · rw [hfunds]
    exact bb.funds
  · rw [hpaid]
    exact bb.paid

/-! ## All of them -/

/-- **THE BOOKS**: of every task and bid, and nothing was paid for any other. -/
structure Books (s : Store) (h : History) : Prop where
  task : ∀ id t, s.tasks.lookup id = some t → TaskBooks h s.bids id t
  bid : ∀ id b, s.bids.lookup id = some b → BidBooks h s.tasks s.taskBidList id b
  noTask : ∀ id, s.tasks.lookup id = none →
    h.taskFunds id = none ∧ paidFor (.escrow id) h.payments = [] ∧ paidFor (.fee id) h.payments = []
  noBid : ∀ id, s.bids.lookup id = none → h.bidFunds id = none ∧ paidFor (.deposit id) h.payments = []
  taskIds : ∀ id t, s.tasks.lookup id = some t → ∃ height count, count < s.taskCount ∧ id = taskIdOf height count
  bidIds : ∀ id b, s.bids.lookup id = some b → ∃ taskId count, count < s.bidCount ∧ id = bidIdOf taskId count

/-- The next task's id is new. -/
theorem Books.freshTask (hb : Books s h) (height : ℕ) : s.tasks.lookup (taskIdOf height s.taskCount) = none := by
  cases ht : s.tasks.lookup (taskIdOf height s.taskCount) with
  | none => rfl
  | some t =>
    obtain ⟨height', count, hlt, hid⟩ := hb.taskIds _ t ht
    exact absurd (taskIdOf_inj hid) (Nat.ne_of_gt hlt)

theorem Books.freshBid (hb : Books s h) (taskId : String) : s.bids.lookup (bidIdOf taskId s.bidCount) = none := by
  cases hbid : s.bids.lookup (bidIdOf taskId s.bidCount) with
  | none => rfl
  | some b =>
    obtain ⟨taskId', count, hlt, hid⟩ := hb.bidIds _ b hbid
    exact absurd (bidIdOf_inj hid) (Nat.ne_of_gt hlt)

/-- Some more payments are made. -/
abbrev after (h : History) (sends : List BankSend) : History := { h with payments := h.payments ++ sends }

theorem paidFor_after_nil {p : Purpose} {sends : List BankSend} (hnone : paidFor p sends = []) (h : History) :
    paidFor p (after h sends).payments = paidFor p h.payments := by
  rw [paidFor_append, hnone, List.append_nil]

/-- A task or a bid is recorded with the coin that came with it. -/
abbrev withTask (h : History) (taskId : String) (coin : Option Coin) : History :=
  { h with taskFunds := update h.taskFunds taskId coin }

abbrev withBid (h : History) (bidId : String) (coin : Option Coin) : History :=
  { h with bidFunds := update h.bidFunds bidId coin }

/-! ## A new task, a new bid -/

theorem Books.submit {fee : ℕ} (hb : Books s h) (hw : Submitted env info s s' sends task fee) :
    Books s' (after (withTask h (taskIdOf env.height s.taskCount) (acceptedCoin info.funds)) sends) := by
  obtain ⟨id₀, hid₀⟩ : ∃ id₀, taskIdOf env.height s.taskCount = id₀ := ⟨_, rfl⟩
  have hnew : s.tasks.lookup id₀ = none := hid₀ ▸ hb.freshTask env.height
  have htasks := hw.tasks
  have hlists := hw.taskBidList
  have hsends := hw.sends
  have hkey := hw.key
  rw [hid₀] at htasks hlists hsends hkey
  rw [hid₀]
  -- what is sent moves no escrow and no deposit, and a fee of the new task only
  have hescrow : ∀ id, paidFor (.escrow id) sends = [] := fun id => by
    rw [hsends]
    apply paidFor_sendNonzero_ne
    exact fun hc => nomatch hc
  have hdeposit : ∀ id, paidFor (.deposit id) sends = [] := fun id => by
    rw [hsends]
    apply paidFor_sendNonzero_ne
    exact fun hc => nomatch hc
  have hfee : ∀ id, id ≠ id₀ → paidFor (.fee id) sends = [] := fun id hne => by
    rw [hsends]
    exact paidFor_sendNonzero_ne (fun hc => hne (Purpose.fee.inj hc).symm) _ _
  constructor
  case task =>
    intro id t ht
    rw [htasks, lookup_set] at ht
    rw [hw.bids]
    by_cases hid : id = id₀
    · subst hid
      rw [if_pos rfl] at ht
      cases ht
      obtain ⟨-, hnoEscrow, hnoFee⟩ := hb.noTask id hnew
      have hpaid : feePaid (after (withTask h id (acceptedCoin info.funds)) sends) id
          = fee := by
        rw [feePaid, paidFor_append, hnoFee, hsends, paidFor_sendNonzero, List.nil_append, total_nonzero]
        exact Nat.add_zero fee
      have hsent : sentWith (after (withTask h id (acceptedCoin info.funds)) sends) id
          = acceptedAmount info.funds := by
        show ((update h.taskFunds id (acceptedCoin info.funds)) id).elim 0 Coin.amount = _
        rw [update_self, acceptedAmount]
      refine ⟨hkey, ?_, fun _ => ?_, ?_⟩
      · rw [hpaid, hsent]
        exact hw.fee_le
      · rw [netEscrow, hpaid, hsent]
        exact hw.escrow
      · rw [escrowPaid_early (.inl hw.status), paidFor_append, hnoEscrow, hescrow, List.append_nil]
    · rw [if_neg hid] at ht
      exact (hb.task id t ht).frame (bidsKept_refl s.bids) (update_of_ne hid ..) (paidFor_after_nil (hfee id hid) _)
        (paidFor_after_nil (hescrow id) _)
  case bid =>
    intro id b hbid
    rw [hw.bids] at hbid
    refine (hb.bid id b hbid).frame (fun t ht => ?_) (fun hex ids hids => ?_) rfl (paidFor_after_nil (hdeposit id) _)
    · have hne : b.taskId ≠ id₀ := by
        rintro hc
        rw [hc, hnew] at ht
        cases ht
      exact ⟨t, by rw [htasks, lookup_set_ne _ _ hne, ht], fun _ he => he⟩
    · obtain ⟨t, ht⟩ := hex
      have hne : b.taskId ≠ id₀ := by
        rintro hc
        rw [hc, hnew] at ht
        cases ht
      exact ⟨ids, by rw [hlists, lookup_set_ne _ _ hne, hids], List.Subset.refl ids⟩
  case noTask =>
    intro id hid
    rw [htasks] at hid
    obtain ⟨hne, hid⟩ := lookup_set_eq_none hid
    obtain ⟨hfunds, hnoEscrow, hnoFee⟩ := hb.noTask id hid
    exact ⟨(update_of_ne hne ..).trans hfunds, (paidFor_after_nil (hescrow id) _).trans hnoEscrow,
      (paidFor_after_nil (hfee id hne) _).trans hnoFee⟩
  case noBid =>
    intro id hid
    rw [hw.bids] at hid
    exact ⟨(hb.noBid id hid).1, (paidFor_after_nil (hdeposit id) _).trans (hb.noBid id hid).2⟩
  case taskIds =>
    rw [htasks, hw.taskCount]
    refine forall_lookup_set ⟨env.height, s.taskCount, Nat.lt_succ_self _, hid₀.symm⟩ fun id t ht => ?_
    obtain ⟨height, count, hlt, heq⟩ := hb.taskIds id t ht
    exact ⟨height, count, Nat.lt_succ_of_lt hlt, heq⟩
  case bidIds =>
    intro id b hbid
    rw [hw.bids] at hbid
    rw [hw.bidCount]
    exact hb.bidIds id b hbid

theorem Books.place {bidList : List String} (hb : Books s h) (hw : Placed info taskId s s' task bid bidList) :
    Books s' (after (withBid h (bidIdOf taskId s.bidCount) (acceptedCoin info.funds)) []) := by
  obtain ⟨id₀, hid₀⟩ : ∃ id₀, bidIdOf taskId s.bidCount = id₀ := ⟨_, rfl⟩
  have hnew : s.bids.lookup id₀ = none := hid₀ ▸ hb.freshBid taskId
  have hbids := hw.bids
  have hlists := hw.taskBidList
  have hkey := hw.key
  rw [hid₀] at hbids hlists hkey
  rw [hid₀]
  -- the task may go from open to bidding; nothing else of it is read by its books
  have htask : ∃ t', s'.tasks = set s.tasks taskId t' ∧ Early t'.status ∧ t'.taskId = task.taskId
      ∧ t'.escrow = task.escrow ∨ s'.tasks = s.tasks := by
    rw [hw.tasks]
    split_ifs with hopen
    · exact ⟨_, .inl ⟨rfl, .inr rfl, rfl, rfl⟩⟩
    · exact ⟨task, .inr rfl⟩
  have hlookup : ∀ id t', s'.tasks.lookup id = some t' → ∃ t, s.tasks.lookup id = some t ∧ (t' = t ∨
      Early t.status ∧ Early t'.status ∧ t'.taskId = t.taskId ∧ t'.escrow = t.escrow) := by
    intro id t' ht'
    obtain ⟨u, ⟨hset, hearly, hid, hescrow⟩ | hsame⟩ := htask
    · rw [hset, lookup_set] at ht'
      by_cases hc : id = taskId
      · rw [if_pos hc] at ht'
        cases ht'
        exact ⟨task, hc ▸ hw.found, .inr ⟨hw.early, hearly, hid, hescrow⟩⟩
      · rw [if_neg hc] at ht'
        exact ⟨t', ht', .inl rfl⟩
    · rw [hsame] at ht'
      exact ⟨t', ht', .inl rfl⟩
  have hkept : ∀ id t, s.tasks.lookup id = some t → ∃ t', s'.tasks.lookup id = some t' ∧
      (Early t.status → Early t'.status) := by
    intro id t ht
    obtain ⟨u, ⟨hset, hearly, -⟩ | hsame⟩ := htask
    · rw [hset, lookup_set]
      by_cases hc : id = taskId
      · exact ⟨u, if_pos hc, fun _ => hearly⟩
      · exact ⟨t, (if_neg hc).trans ht, fun he => he⟩
    · rw [hsame]
      exact ⟨t, ht, fun he => he⟩
  constructor
  case task =>
    intro id t' ht'
    obtain ⟨t, ht, hsame⟩ := hlookup id t' ht'
    have tb : TaskBooks (after (withBid h id₀ (acceptedCoin info.funds)) []) s'.bids id t := by
      rw [hbids]
      exact (hb.task id t ht).frame (bidsKept_new bid hnew) rfl (paidFor_after_nil rfl _) (paidFor_after_nil rfl _)
    rcases hsame with rfl | ⟨hearly, hearly', hid, hescrow⟩
    · exact tb
    · have hpaid := tb.paid
      rw [escrowPaid_early hearly] at hpaid
      exact ⟨hid.trans tb.key, tb.fee, fun _ => hescrow.trans (tb.escrow (early_not_cancelled hearly)),
        (escrowPaid_early hearly').mpr hpaid⟩
  case bid =>
    intro id b hbid
    rw [hbids, lookup_set] at hbid
    by_cases hid : id = id₀
    · subst hid
      rw [if_pos rfl] at hbid
      cases hbid
      have hpos : bid.deposit ≠ 0 := by
        have := hw.enough
        rw [minDeposit] at this
        omega
      obtain ⟨t', ht', hearly⟩ := hkept taskId task hw.found
      refine ⟨hkey, hpos, ?_, ?_, ?_, ?_⟩
      · have hamount := hw.deposit
        rw [acceptedAmount] at hamount
        cases hcoin : acceptedCoin info.funds with
        | none =>
          rw [hcoin] at hamount
          exact absurd hamount hpos
        | some coin =>
          rw [hcoin] at hamount
          exact ⟨coin, update_self .., hamount.symm⟩
      · rw [if_pos hw.active, paidFor_after_nil rfl]
        exact (hb.noBid id hnew).2
      · rw [hw.under, hlists]
        exact ⟨_, lookup_set_self .., List.mem_append_right _ (List.mem_singleton_self id)⟩
      · rw [hw.under]
        exact ⟨t', ht', fun _ => hearly hw.early⟩
    · rw [if_neg hid] at hbid
      refine (hb.bid id b hbid).frame (fun t ht => ?_) (fun _ ids hids => ?_) (update_of_ne hid ..)
        (paidFor_after_nil rfl _)
      · obtain ⟨t', ht', hearly⟩ := hkept b.taskId t ht
        exact ⟨t', ht', fun _ => hearly⟩
      · rw [hlists, lookup_set]
        by_cases hc : b.taskId = taskId
        · have hsame : ids = bidList := Option.some.inj (hids.symm.trans (hc ▸ hw.listed))
          rw [if_pos hc, hsame]
          exact ⟨_, rfl, List.subset_append_left _ _⟩
        · rw [if_neg hc]
          exact ⟨ids, hids, List.Subset.refl ids⟩
  case noTask =>
    intro id hid
    have hnone : s.tasks.lookup id = none := by
      cases ht : s.tasks.lookup id with
      | none => rfl
      | some t =>
        obtain ⟨t', ht', -⟩ := hkept id t ht
        rw [hid] at ht'
        cases ht'
    obtain ⟨hfunds, hnoEscrow, hnoFee⟩ := hb.noTask id hnone
    exact ⟨hfunds, (paidFor_after_nil rfl _).trans hnoEscrow, (paidFor_after_nil rfl _).trans hnoFee⟩
  case noBid =>
    intro id hid
    rw [hbids] at hid
    obtain ⟨hne, hid⟩ := lookup_set_eq_none hid
    exact ⟨(update_of_ne hne ..).trans (hb.noBid id hid).1, (paidFor_after_nil rfl _).trans (hb.noBid id hid).2⟩
  case taskIds =>
    intro id t' ht'
    obtain ⟨t, ht, -⟩ := hlookup id t' ht'
    rw [hw.taskCount]
    exact hb.taskIds id t ht
  case bidIds =>
    rw [hbids, hw.bidCount]
    refine forall_lookup_set ⟨taskId, s.bidCount, Nat.lt_succ_self _, hid₀.symm⟩ fun id b hbid => ?_
    obtain ⟨under, count, hlt, heq⟩ := hb.bidIds id b hbid
    exact ⟨under, count, Nat.lt_succ_of_lt hlt, heq⟩

/-! ## Closing the bids of a task -/

/-- A listed bid that is active is closed by the loop. -/
theorem released_inactive (hmem : b.active = true → id ∈ ids) (hstake : b.deposit ≠ 0) :
    (released ids id b).active = false := by
  by_cases hactive : b.active = true
  · rw [released_of (hmem hactive) ⟨hactive, hstake⟩]
  · rw [released_keep fun _ hrel => hactive hrel.1]
    exact Bool.eq_false_of_not_eq_true hactive

/-- What the loop pays for a bid is what the bid's books ask for. -/
theorem refunds_spec (ids : List String) (id : String) (b : Bid) (hstake : b.deposit ≠ 0) :
    (if b.active = true then [] else [(b.provider, b.deposit)]) ++ refunds ids id b
      = if (released ids id b).active = true then []
        else [((released ids id b).provider, (released ids id b).deposit)] := by
  by_cases hactive : b.active = true
  · by_cases hmem : id ∈ ids
    · have hrel : Releasable b := ⟨hactive, hstake⟩
      rw [released_of hmem hrel, refunds_of hmem hrel, if_pos hactive, List.nil_append, if_neg Bool.false_ne_true]
    · rw [released_keep fun hc => absurd hc hmem, refunds_keep fun hc => absurd hc hmem, List.append_nil]
  · have hrel : ¬ Releasable b := fun hc => hactive hc.1
    rw [released_keep fun _ => hrel, refunds_keep fun _ => hrel, List.append_nil]

/-- The loop over a list that holds the bids of a task closes them. -/
theorem Books.closed (hb : Books s h) (hall : ∀ listed, s.taskBidList.lookup taskId = some listed → listed ⊆ ids)
    (hbid : s.bids.lookup id = some b) (hid : b.taskId = taskId) : (released ids id b).active = false := by
  obtain ⟨listed, hlisted, hmem⟩ := (hb.bid id b hbid).listed
  exact released_inactive (fun _ => hall listed (hid ▸ hlisted) hmem) (hb.bid id b hbid).stake

/-- **CLOSING**: a task that stops taking bids has its active bids closed and refunded. -/
theorem Books.close {refunded extra : List BankSend} (hb : Books s h) (hc : Closed taskId task' ids s s' refunded)
    (hfound : s.tasks.lookup taskId = some task)
    (hclosed : ∀ id b, s.bids.lookup id = some b → b.taskId = taskId → (released ids id b).active = false)
    (hdeposit : ∀ id, paidFor (.deposit id) extra = []) (hfee : ∀ id, paidFor (.fee id) extra = [])
    (hescrow : ∀ id, id ≠ taskId → paidFor (.escrow id) extra = [])
    (htask : TaskBooks (after h (refunded ++ extra)) s'.bids taskId task') :
    Books s' (after h (refunded ++ extra)) := by
  have hpaidEscrow : ∀ id, id ≠ taskId → paidFor (.escrow id) (refunded ++ extra) = [] := fun id hne => by
    rw [paidFor_append, hc.refunded, releaseBids_paid_escrow, hescrow id hne, List.nil_append]
  have hpaidFee : ∀ id, paidFor (.fee id) (refunded ++ extra) = [] := fun id => by
    rw [paidFor_append, hc.refunded, releaseBids_paid_fee, hfee, List.nil_append]
  have hpaidDeposit : ∀ id, paidFor (.deposit id) (refunded ++ extra) = (s.bids.lookup id).elim [] (refunds ids id) :=
    fun id => by rw [paidFor_append, hc.refunded, releaseBids_paid, hdeposit, List.append_nil]
  have hlookup : ∀ id, s'.bids.lookup id = (s.bids.lookup id).map (released ids id) := fun id => by
    rw [hc.bids, releaseBids_lookup]
  -- only the closed task and its bids have moved
  constructor
  case task =>
    intro id t ht
    rw [hc.tasks, lookup_set] at ht
    by_cases hid : id = taskId
    · subst hid
      rw [if_pos rfl] at ht
      cases ht
      exact htask
    · rw [if_neg hid] at ht
      rw [hc.bids]
      exact (hb.task id t ht).frame (bidsKept_released ids s.bids) rfl (paidFor_after_nil (hpaidFee id) h)
        (paidFor_after_nil (hpaidEscrow id hid) h)
  case bid =>
    intro id b' hbid'
    rw [hlookup] at hbid'
    obtain ⟨b, hbid, rfl⟩ := Option.map_eq_some_iff.mp hbid'
    have bb := hb.bid id b hbid
    obtain ⟨listed, hlisted, hmem⟩ := bb.listed
    obtain ⟨t, ht, hearly⟩ := bb.task
    have hterms := sameTerms_released ids id b
    have hdepositSame : (released ids id b).deposit = b.deposit ∧ (released ids id b).bidId = b.bidId := by
      unfold released
      split
      · exact ⟨rfl, rfl⟩
      · exact ⟨rfl, rfl⟩
    refine ⟨hdepositSame.2.trans bb.key, ?_, ?_, ?_, ?_, ?_⟩
    · rw [hdepositSame.1]
      exact bb.stake
    · rw [hdepositSame.1]
      exact bb.funds
    · rw [paidFor_append, bb.paid, hpaidDeposit, hbid, Option.elim_some, refunds_spec ids id b bb.stake]
    · rw [hterms.1, hc.taskBidList]
      exact ⟨listed, hlisted, hmem⟩
    · rw [hterms.1, hc.tasks, lookup_set]
      by_cases hid : b.taskId = taskId
      · refine ⟨task', if_pos hid, fun hactive => ?_⟩
        rw [hclosed id b hbid hid] at hactive
        cases hactive
      · refine ⟨t, (if_neg hid).trans ht, fun hactive => hearly ?_⟩
        by_contra hinactive
        rw [hterms.2.2.2 (Bool.eq_false_of_not_eq_true hinactive)] at hactive
        cases hactive
  case noTask =>
    intro id hid
    rw [hc.tasks] at hid
    obtain ⟨hne, hid⟩ := lookup_set_eq_none hid
    obtain ⟨hfunds, hnoEscrow, hnoFee⟩ := hb.noTask id hid
    exact ⟨hfunds, (paidFor_after_nil (hpaidEscrow id hne) h).trans hnoEscrow,
      (paidFor_after_nil (hpaidFee id) h).trans hnoFee⟩
  case noBid =>
    intro id hid
    rw [hlookup, Option.map_eq_none_iff] at hid
    have hnone : paidFor (.deposit id) (refunded ++ extra) = [] := by rw [hpaidDeposit, hid, Option.elim_none]
    exact ⟨(hb.noBid id hid).1, (paidFor_after_nil hnone h).trans (hb.noBid id hid).2⟩
  case taskIds =>
    rw [hc.tasks, hc.taskCount]
    exact forall_lookup_set (hb.taskIds taskId task hfound) hb.taskIds
  case bidIds =>
    intro id b' hbid'
    rw [hlookup] at hbid'
    obtain ⟨b, hbid, -⟩ := Option.map_eq_some_iff.mp hbid'
    rw [hc.bidCount]
    exact hb.bidIds id b hbid

theorem Books.accept {bidId : String} (hb : Books s h) (hok : acceptBid info bidId s = .ok (s', sends)) :
    Books s' (after h sends) := by
  obtain ⟨bid, task, bidList, hbid, hactive, htask, hlist, hc⟩ :=
    acceptBid_ok hok fun bid hbid => (hb.bid bidId bid hbid).stake
  have bb := hb.bid bidId bid hbid
  have tb := hb.task bid.taskId task htask
  obtain ⟨t, ht, hearly⟩ := bb.task
  obtain rfl : t = task := Option.some.inj (ht.symm.trans htask)
  have hpaid := tb.paid
  rw [escrowPaid_early (hearly hactive)] at hpaid
  have hnoFee : paidFor (.fee bid.taskId) sends = [] := by rw [hc.refunded, releaseBids_paid_fee]
  have hnoEscrow : paidFor (.escrow bid.taskId) sends = [] := by rw [hc.refunded, releaseBids_paid_escrow]
  have hframe : TaskBooks (after h sends) s.bids bid.taskId t :=
    tb.frame (bidsKept_refl s.bids) rfl (paidFor_after_nil hnoFee h) (paidFor_after_nil hnoEscrow h)
  have hwinner : s'.bids.lookup bidId = some { bid with active := false } := by
    rw [hc.bids, releaseBids_lookup, hbid, Option.map_some, released_of List.mem_cons_self ⟨hactive, bb.stake⟩]
  have hnotCancelled : t.status ≠ .cancelled := early_not_cancelled (hearly hactive)
  rw [← List.append_nil sends] at hframe ⊢
  refine hb.close hc htask (fun _ _ => hb.closed fun listed hlisted id hid => ?_) (fun _ => rfl) (fun _ => rfl)
    (fun _ _ => rfl) ?_
  · cases hlisted.symm.trans hlist
    by_cases hself : id = bidId
    · rw [hself]
      exact List.mem_cons_self
    · exact List.mem_cons_of_mem _ (List.mem_filter.mpr ⟨hid, decide_eq_true hself⟩)
  · refine ⟨tb.key, hframe.fee, fun _ => hframe.escrow hnotCancelled, ?_, _, hwinner, tb.key.symm, rfl⟩
    rw [List.append_nil, paidFor_append, hpaid, hnoEscrow, List.nil_append]

theorem Books.cancel (hb : Books s h) (hok : cancelTask info taskId s = .ok (s', sends)) :
    Books s' (after h sends) := by
  obtain ⟨task, refunded, htask, hearly, hc, rfl⟩ := cancelTask_ok hok
  have tb := hb.task taskId task htask
  have hpaid := tb.paid
  rw [escrowPaid_early hearly] at hpaid
  have hnotCancelled : task.status ≠ .cancelled := early_not_cancelled hearly
  have hnoFee : paidFor (.fee taskId) (refunded ++ sendNonzero (.escrow taskId) task.requester task.escrow) = [] := by
    rw [paidFor_append, hc.refunded, releaseBids_paid_fee, List.nil_append]
    apply paidFor_sendNonzero_ne
    exact fun hx => nomatch hx
  refine hb.close hc htask (fun _ _ => hb.closed fun listed hlisted => ?_) (fun id => ?_)
    (fun id => ?_) (fun id hne => ?_) ?_
  · rw [hlisted, Option.getD_some]
    exact List.Subset.refl listed
  · apply paidFor_sendNonzero_ne
    exact fun hx => nomatch hx
  · apply paidFor_sendNonzero_ne
    exact fun hx => nomatch hx
  · apply paidFor_sendNonzero_ne
    exact fun hx => hne (Purpose.escrow.inj hx).symm
  · have hnet : netEscrow (after h (refunded ++ sendNonzero (.escrow taskId) task.requester task.escrow)) taskId
        = netEscrow h taskId := by
      rw [netEscrow, feePaid, paidFor_after_nil hnoFee]
      rfl
    refine ⟨tb.key, ?_, fun hx => absurd rfl hx, ?_⟩
    · rw [feePaid, paidFor_after_nil hnoFee]
      exact tb.fee
    · rw [hnet]
      show paidFor (.escrow taskId) _ = nonzero [(task.requester, netEscrow h taskId)]
      rw [paidFor_append, hpaid, List.nil_append, paidFor_append, hc.refunded, releaseBids_paid_escrow, List.nil_append,
        paidFor_sendNonzero, tb.escrow hnotCancelled]

theorem Books.settle (hb : Books s h) (hw : Settled taskId s s' sends task task' bid) : Books s' (after h sends) := by
  have tb := hb.task taskId task hw.found
  obtain ⟨hkey, hrequester, hescrow, hduration, hwinner⟩ := hw.same
  -- the books of an assigned task: nothing is paid yet, and the winner is there
  obtain ⟨hpaid, b, hb'⟩ : paidFor (.escrow taskId) h.payments = [] ∧ ∃ b, Winner s.bids task b := by
    have hpaid := tb.paid
    unfold EscrowPaid at hpaid
    rcases hw.status with hs | hs
    · rw [hs] at hpaid
      exact hpaid
    · rw [hs] at hpaid
      exact hpaid
  cases hw.winner.symm.trans hb'.1
  have hnotCancelled : task.status ≠ .cancelled := by
    rcases hw.status with hs | hs
    · rw [hs]
      exact fun hx => nomatch hx
    · rw [hs]
      exact fun hx => nomatch hx
  have hnet := tb.escrow hnotCancelled
  have hnothing : ∀ p, Purpose.escrow taskId ≠ p → paidFor p sends = [] := fun p hne => by
    rw [hw.sends, paidFor_append, paidFor_sendNonzero_ne hne, paidFor_sendNonzero_ne hne, List.nil_append]
  have hfee : ∀ id, paidFor (.fee id) sends = [] := fun id => hnothing _ fun hx => nomatch hx
  have hdeposit : ∀ id, paidFor (.deposit id) sends = [] := fun id => hnothing _ fun hx => nomatch hx
  have hother : ∀ id, id ≠ taskId → paidFor (.escrow id) sends = [] := fun id hne =>
    hnothing _ fun hx => hne (Purpose.escrow.inj hx).symm
  have hsame : netEscrow (after h sends) taskId = netEscrow h taskId := by
    rw [netEscrow, feePaid, paidFor_after_nil (hfee taskId)]
    rfl
  have hclose : Closed taskId task' [] s s' [] :=
    ⟨hw.tasks, hw.bids, rfl, hw.taskBidList, hw.taskCount, hw.bidCount⟩
  show Books s' (after h ([] ++ sends))
  refine hb.close hclose hw.found (fun id b hbid hid => ?_) hdeposit hfee hother ?_
  · -- a bid on an assigned task is closed already
    rw [released_keep fun hx => absurd hx List.not_mem_nil]
    obtain ⟨t, ht, hearly⟩ := (hb.bid id b hbid).task
    cases ht.symm.trans (hid ▸ hw.found)
    exact Bool.eq_false_iff.mpr fun hactive => early_not_assigned (hearly hactive) hw.status
  · rw [List.nil_append]
    refine ⟨hkey.trans tb.key, ?_, fun _ => ?_, ?_⟩
    · rw [feePaid, paidFor_after_nil (hfee taskId)]
      exact tb.fee
    · rw [hsame, hescrow]
      exact hnet
    · rw [EscrowPaid, hw.done]
      refine ⟨bid, ⟨by rw [hw.bids, hwinner, hw.winner], hb'.2.1.trans hkey.symm, hb'.2.2⟩, ?_⟩
      rw [hsame, paidFor_append, hpaid, List.nil_append, hw.sends, paidFor_append, paidFor_sendNonzero,
        paidFor_sendNonzero, ← nonzero_append, award, hrequester, hduration, ← hnet]
      rfl

theorem Books.idle (hb : Books s h) (hi : Idle s s') : Books s' (after h []) := by
  have hpayments : after h [] = h := by
    show ({ h with payments := h.payments ++ [] } : History) = h
    rw [List.append_nil]
  rw [hpayments]
  refine ⟨?_, ?_, ?_, ?_, ?_, ?_⟩
  · rw [hi.tasks, hi.bids]
    exact hb.task
  · rw [hi.bids, hi.tasks, hi.taskBidList]
    exact hb.bid
  · rw [hi.tasks]
    exact hb.noTask
  · rw [hi.bids]
    exact hb.noBid
  · rw [hi.tasks, hi.taskCount]
    exact hb.taskIds
  · rw [hi.bids, hi.bidCount]
    exact hb.bidIds

/-- **STEP**: every message keeps the books. -/
theorem execute_books {chain : Chain} {msg : ExecuteMsg} (hb : Books s h)
    (hok : execute chain env info msg s = .ok (s', sends)) : Books s' (after (h.take env info s msg) sends) := by
  cases msg with
  | registerGPUSpec vendor model vramMb cudaCores basePrice =>
    obtain ⟨hi, rfl⟩ := registerGPUSpec_ok hok
    exact hb.idle hi
  | submitTask specId sdlHash maxPrice duration =>
    obtain ⟨task, fee, hw⟩ := submitTask_ok hok
    exact hb.submit hw
  | placeBid taskId price =>
    obtain ⟨rfl, task, bid, bidList, hw⟩ := placeBid_ok hok
    exact hb.place hw
  | acceptBid bidId => exact hb.accept hok
  | settleTask taskId outputHash nullifier =>
    obtain ⟨task, task', bid, hw⟩ := settleTask_ok hok
    exact hb.settle hw
  | cancelTask taskId => exact hb.cancel hok
  | updateConfig feeBps revenueSplitter zkVerifier =>
    obtain ⟨hi, rfl⟩ := updateConfig_ok hok
    exact hb.idle hi

end ComputeMarketBooks
