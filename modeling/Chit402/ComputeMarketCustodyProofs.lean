import Chit402.ComputeMarketBooksProofs

/-! # Custody in the compute marketplace

    No message makes or loses money: what the contract is liable for and
    what it sends add up to what it was liable for and what it took.  Where
    every coin taken is in the denomination the contract sends, its balance
    therefore covers what it owes. -/

namespace ComputeMarketCustody

open ExceptFlow OrderedMap ComputeMarket ComputeMarketStep ComputeMarketBooks Function

variable {s s' : Store} {sends : List BankSend} {h : History} {env : Env} {info : MessageInfo} {chain : Chain}
  {w w' : World}

/-! ## Liabilities -/

/-- The statuses in which the escrow is still held. -/
def Live (status : TaskStatus) : Prop :=
  status = .open ∨ status = .bidding ∨ status = .assigned ∨ status = .computing

instance (status : TaskStatus) : Decidable (Live status) := inferInstanceAs (Decidable (_ ∨ _))

def liveEscrow (t : Task) : ℕ := if Live t.status then t.escrow else 0

def activeDeposit (b : Bid) : ℕ := if b.active = true then b.deposit else 0

/-- What the contract has to pay out in the end, in whatever denomination. -/
def liable (s : Store) : ℕ := sum s.tasks liveEscrow + sum s.bids activeDeposit

def outlay (sends : List BankSend) : ℕ := (sends.map fun m => m.amount.amount).sum

@[simp] theorem outlay_nil : outlay [] = 0 := rfl

theorem outlay_append (l r : List BankSend) : outlay (l ++ r) = outlay l + outlay r := by
  unfold outlay
  rw [List.map_append, List.sum_append]

theorem outlay_sendNonzero (p : Purpose) (toAddress : String) (amount : ℕ) :
    outlay (sendNonzero p toAddress amount) = amount := by
  unfold sendNonzero
  by_cases hzero : amount = 0
  · rw [if_pos hzero, hzero, outlay_nil]
  · rw [if_neg hzero]
    exact Nat.add_zero amount

theorem early_live {status : TaskStatus} (he : Early status) : Live status := by
  rcases he with hs | hs
  · exact .inl hs
  · exact .inr (.inl hs)

theorem releaseBid_conserves (bidId : String) (bids : OrderedMap String Bid) :
    sum (releaseBid bidId bids).1 activeDeposit + outlay (releaseBid bidId bids).2 = sum bids activeDeposit := by
  rcases releaseBid_cases bidId bids with ⟨bid, hbid, hrel⟩ | hkeep
  · rw [releaseBid_of hbid hrel]
    have hsum := sum_set bids bidId { bid with active := false } activeDeposit
    rw [hbid, Option.elim_some] at hsum
    have hbefore : activeDeposit bid = bid.deposit := if_pos hrel.1
    have hafter : activeDeposit { bid with active := false } = 0 := rfl
    have hpaid : outlay [⟨.deposit bidId, bid.provider, ⟨"uakt", bid.deposit⟩⟩] = bid.deposit := Nat.add_zero _
    rw [hbefore, hafter] at hsum
    rw [hpaid]
    exact hsum
  · rw [releaseBid_keep hkeep, outlay_nil, Nat.add_zero]

theorem releaseBids_conserves (ids : List String) (bids : OrderedMap String Bid) :
    sum (releaseBids ids bids).1 activeDeposit + outlay (releaseBids ids bids).2 = sum bids activeDeposit := by
  induction ids generalizing bids with
  | nil => rfl
  | cons bidId rest ih =>
    show sum (releaseBids rest (releaseBid bidId bids).1).1 activeDeposit
      + outlay ((releaseBid bidId bids).2 ++ (releaseBids rest (releaseBid bidId bids).1).2) = _
    have hfirst := releaseBid_conserves bidId bids
    have hrest := ih (releaseBid bidId bids).1
    rw [outlay_append]
    omega

theorem liable_close {taskId : String} {task task' : Task} {ids : List String} {refunded : List BankSend}
    (hc : Closed taskId task' ids s s' refunded) (hfound : s.tasks.lookup taskId = some task) :
    liable s' + outlay refunded + liveEscrow task = liable s + liveEscrow task' := by
  have htasks := sum_set s.tasks taskId task' liveEscrow
  have hbids := releaseBids_conserves ids s.bids
  rw [hfound, Option.elim_some] at htasks
  rw [liable, liable, hc.tasks, hc.bids, hc.refunded]
  omega

/-- What a message leaves with the contract. -/
def taken (info : MessageInfo) : ExecuteMsg → ℕ
  | .submitTask .. | .placeBid .. => acceptedAmount info.funds
  | .registerGPUSpec .. | .acceptBid .. | .settleTask .. | .cancelTask .. | .updateConfig .. => 0

variable {msg : ExecuteMsg} {balance balance' : String → ℕ} {tx : Tx}

/-- **CONSERVATION**: liabilities and payments are paid for by what was there and what came in. -/
theorem execute_conserves (hb : Books s h) (hok : execute chain env info msg s = .ok (s', sends)) :
    liable s' + outlay sends = liable s + taken info msg := by
  -- what comes in is what becomes owed or goes out
  cases msg with
  | registerGPUSpec vendor model vramMb cudaCores basePrice =>
    obtain ⟨hi, rfl⟩ := registerGPUSpec_ok hok
    rw [liable, hi.tasks, hi.bids, ← liable, outlay_nil, taken]
  | submitTask specId sdlHash maxPrice duration =>
    obtain ⟨task, fee, hw⟩ := submitTask_ok hok
    have hsum := sum_set s.tasks (taskIdOf env.height s.taskCount) task liveEscrow
    have hlive : liveEscrow task = acceptedAmount info.funds - fee := by
      rw [liveEscrow, if_pos (.inl hw.status), hw.escrow]
    have hle := hw.fee_le
    rw [hb.freshTask, Option.elim_none, hlive] at hsum
    rw [liable, hw.tasks, hw.bids, hw.sends, outlay_sendNonzero, taken, liable]
    omega
  | placeBid taskId price =>
    obtain ⟨rfl, task, bid, bidList, hw⟩ := placeBid_ok hok
    have hsum := sum_set s.bids (bidIdOf taskId s.bidCount) bid activeDeposit
    have hactive : activeDeposit bid = acceptedAmount info.funds := by
      rw [activeDeposit, if_pos hw.active, hw.deposit]
    have htasks : sum s'.tasks liveEscrow = sum s.tasks liveEscrow := by
      rw [hw.tasks]
      split
      · rename_i hopen
        have hset := sum_set s.tasks taskId { task with status := .bidding } liveEscrow
        have hbefore : liveEscrow task = task.escrow := if_pos (.inl hopen)
        have hafter : liveEscrow { task with status := .bidding } = task.escrow := rfl
        rw [hw.found, Option.elim_some, hbefore, hafter] at hset
        omega
      · rfl
    rw [hb.freshBid, Option.elim_none, hactive] at hsum
    rw [liable, htasks, hw.bids, outlay_nil, taken, liable]
    omega
  | acceptBid bidId =>
    obtain ⟨bid, task, bidList, hbid, hactive, htask, -, hc⟩ :=
      acceptBid_ok hok fun bid hbid => (hb.bid bidId bid hbid).stake
    obtain ⟨t, ht, hearly⟩ := (hb.bid bidId bid hbid).task
    obtain rfl : t = task := Option.some.inj (ht.symm.trans htask)
    have hclose := liable_close hc htask
    have hbefore : liveEscrow t = t.escrow := if_pos (early_live (hearly hactive))
    have hafter : liveEscrow { t with status := .assigned, winningBidId := bidId } = t.escrow := rfl
    rw [taken]
    omega
  | settleTask taskId outputHash nullifier =>
    obtain ⟨task, task', bid, hw⟩ := settleTask_ok hok
    have hsum := sum_set s.tasks taskId task' liveEscrow
    have hbefore : liveEscrow task = task.escrow := by
      rw [liveEscrow, if_pos]
      rcases hw.status with hs | hs
      · exact .inr (.inr (.inl hs))
      · exact .inr (.inr (.inr hs))
    have hafter : liveEscrow task' = 0 := by
      rw [liveEscrow, hw.done]
      rfl
    have hle : min (bid.price * task.duration) task.escrow ≤ task.escrow := Nat.min_le_right _ _
    rw [hw.found, Option.elim_some, hbefore, hafter] at hsum
    rw [liable, hw.tasks, hw.bids, hw.sends, outlay_append, outlay_sendNonzero, outlay_sendNonzero, taken, liable]
    omega
  | cancelTask taskId =>
    obtain ⟨task, refunded, htask, hearly, hc, rfl⟩ := cancelTask_ok hok
    have hclose := liable_close hc htask
    have hbefore : liveEscrow task = task.escrow := if_pos (early_live hearly)
    have hafter : liveEscrow { task with status := .cancelled, escrow := 0 } = 0 := rfl
    rw [outlay_append, outlay_sendNonzero, taken]
    omega
  | updateConfig feeBps revenueSplitter zkVerifier =>
    obtain ⟨hi, rfl⟩ := updateConfig_ok hok
    rw [liable, hi.tasks, hi.bids, ← liable, outlay_nil, taken]

/-! ## The denomination sent -/

theorem sendNonzero_uakt (p : Purpose) (toAddress : String) (amount : ℕ) :
    ∀ m ∈ sendNonzero p toAddress amount, m.amount.denom = "uakt" := by
  intro m hm
  unfold sendNonzero at hm
  split at hm
  · exact absurd hm List.not_mem_nil
  · rw [List.mem_singleton.mp hm]

theorem releaseBids_uakt (ids : List String) (bids : OrderedMap String Bid) :
    ∀ m ∈ (releaseBids ids bids).2, m.amount.denom = "uakt" := by
  induction ids generalizing bids with
  | nil => exact fun m hm => absurd hm List.not_mem_nil
  | cons bidId rest ih =>
    intro m hm
    rcases List.mem_append.mp hm with hfirst | hrest
    · rcases releaseBid_cases bidId bids with ⟨bid, hbid, hrel⟩ | hkeep
      · rw [releaseBid_of hbid hrel] at hfirst
        rw [List.mem_singleton.mp hfirst]
      · rw [releaseBid_keep hkeep] at hfirst
        exact absurd hfirst List.not_mem_nil
    · exact ih (releaseBid bidId bids).1 m hrest

/-- Whatever was taken, uakt is sent. -/
theorem execute_uakt (hb : Books s h) (hok : execute chain env info msg s = .ok (s', sends)) :
    ∀ m ∈ sends, m.amount.denom = "uakt" := by
  cases msg with
  | registerGPUSpec vendor model vramMb cudaCores basePrice =>
    obtain ⟨-, rfl⟩ := registerGPUSpec_ok hok
    exact fun m hm => absurd hm List.not_mem_nil
  | submitTask specId sdlHash maxPrice duration =>
    obtain ⟨task, fee, hw⟩ := submitTask_ok hok
    rw [hw.sends]
    exact sendNonzero_uakt _ _ _
  | placeBid taskId price =>
    obtain ⟨rfl, -⟩ := placeBid_ok hok
    exact fun m hm => absurd hm List.not_mem_nil
  | acceptBid bidId =>
    obtain ⟨bid, task, bidList, -, -, -, -, hc⟩ := acceptBid_ok hok fun bid hbid => (hb.bid bidId bid hbid).stake
    rw [hc.refunded]
    exact releaseBids_uakt _ _
  | settleTask taskId outputHash nullifier =>
    obtain ⟨task, task', bid, hw⟩ := settleTask_ok hok
    rw [hw.sends]
    intro m hm
    rcases List.mem_append.mp hm with hprovider | hrequester
    · exact sendNonzero_uakt _ _ _ m hprovider
    · exact sendNonzero_uakt _ _ _ m hrequester
  | cancelTask taskId =>
    obtain ⟨task, refunded, -, -, hc, rfl⟩ := cancelTask_ok hok
    intro m hm
    rcases List.mem_append.mp hm with hdeposit | hescrow
    · rw [hc.refunded] at hdeposit
      exact releaseBids_uakt _ _ m hdeposit
    · exact sendNonzero_uakt _ _ _ m hescrow
  | updateConfig feeBps revenueSplitter zkVerifier =>
    obtain ⟨-, rfl⟩ := updateConfig_ok hok
    exact fun m hm => absurd hm List.not_mem_nil

/-! ## Balances -/

theorem credit_le (balance : String → ℕ) (c : Coin) (d : String) : balance d ≤ credit balance c d := by
  unfold credit
  by_cases hd : d = c.denom
  · rw [hd, update_self]
    omega
  · rw [update_of_ne hd]

theorem credits_le (funds : List Coin) (balance : String → ℕ) (d : String) :
    balance d ≤ funds.foldl credit balance d := by
  induction funds generalizing balance with
  | nil => exact Nat.le_refl _
  | cons c rest ih => exact Nat.le_trans (credit_le balance c d) (ih (credit balance c))

theorem credits_mem {c : Coin} {funds : List Coin} (hc : c ∈ funds) (balance : String → ℕ) :
    balance c.denom + c.amount ≤ funds.foldl credit balance c.denom := by
  induction funds generalizing balance with
  | nil => exact absurd hc List.not_mem_nil
  | cons c' rest ih =>
    rcases List.mem_cons.mp hc with rfl | hrest
    · refine Nat.le_trans (Nat.le_of_eq ?_) (credits_le rest (credit balance c) c.denom)
      rw [credit, update_self]
    · exact Nat.le_trans (Nat.add_le_add_right (credit_le balance c' c.denom) _) (ih hrest (credit balance c'))

theorem pay_le {m : BankSend} (hpay : pay chain balance m = .ok balance') (d : String) :
    balance d ≤ balance' d + m.amount.amount := by
  unfold pay at hpay
  split at hpay
  · cases hpay
  · split at hpay
    · cases hpay
      omega
    · cases hpay
      by_cases hd : d = m.amount.denom
      · rw [hd, update_self]
        omega
      · rw [update_of_ne hd]
        omega

/-- What a response sends is the most it takes out of any balance. -/
theorem pays_le (hpay : sends.foldlM (pay chain) balance = .ok balance') (d : String) :
    balance d ≤ balance' d + outlay sends := by
  induction sends generalizing balance with
  | nil =>
    cases hpay
    exact Nat.le_refl _
  | cons m rest ih =>
    rw [List.foldlM_cons] at hpay
    obtain ⟨middle, hfirst, hrest⟩ := bind_iff.mp hpay
    have hm := pay_le hfirst d
    have hr := ih hrest
    show balance d ≤ balance' d + (m.amount.amount + outlay rest)
    omega

/-! ## A run -/

/-- Every task and bid so far was funded in uakt. -/
def AllUakt (h : History) : Prop :=
  (∀ id c, h.taskFunds id = some c → c.denom = "uakt") ∧ ∀ id c, h.bidFunds id = some c → c.denom = "uakt"

structure Kept (w : World) : Prop where
  books : Books w.store w.history
  covered : AllUakt w.history → liable w.store ≤ w.balance "uakt"
  uakt : ∀ m ∈ w.history.payments, m.amount.denom = "uakt"

/-- Records are new, so a history that is all uakt was so before. -/
theorem allUakt_take (hb : Books s h) (hall : AllUakt (after (h.take env info s msg) sends)) :
    AllUakt h ∧ (taken info msg = 0 ∨ ∀ c, acceptedCoin info.funds = some c → c.denom = "uakt") := by
  cases msg with
  | submitTask specId sdlHash maxPrice duration =>
    refine ⟨⟨fun id c hc => ?_, hall.2⟩, .inr fun c hc => ?_⟩
    · by_cases hid : id = taskIdOf env.height s.taskCount
      · rw [hid, (hb.noTask _ (hb.freshTask env.height)).1] at hc
        cases hc
      · exact hall.1 id c ((update_of_ne hid ..).trans hc)
    · exact hall.1 (taskIdOf env.height s.taskCount) c ((update_self ..).trans hc)
  | placeBid taskId price =>
    refine ⟨⟨hall.1, fun id c hc => ?_⟩, .inr fun c hc => ?_⟩
    · by_cases hid : id = bidIdOf taskId s.bidCount
      · rw [hid, (hb.noBid _ (hb.freshBid taskId)).1] at hc
        cases hc
      · exact hall.2 id c ((update_of_ne hid ..).trans hc)
    · exact hall.2 (bidIdOf taskId s.bidCount) c ((update_self ..).trans hc)
  | registerGPUSpec | acceptBid | settleTask | cancelTask | updateConfig => exact ⟨hall, .inl rfl⟩

theorem take_payments (h : History) (msg : ExecuteMsg) : (h.take env info s msg).payments = h.payments := by
  cases msg with
  | submitTask | placeBid | registerGPUSpec | acceptBid | settleTask | cancelTask | updateConfig => rfl

/-- A coin taken in uakt is there to pay from. -/
theorem taken_le (balance : String → ℕ)
    (hcoin : taken info msg = 0 ∨ ∀ c, acceptedCoin info.funds = some c → c.denom = "uakt") :
    balance "uakt" + taken info msg ≤ info.funds.foldl credit balance "uakt" := by
  have hmono := credits_le info.funds balance "uakt"
  rcases hcoin with hzero | huakt
  · rw [hzero]
    exact hmono
  · have haccepted : balance "uakt" + acceptedAmount info.funds ≤ info.funds.foldl credit balance "uakt" := by
      unfold acceptedAmount
      cases hc : acceptedCoin info.funds with
      | none => exact hmono
      | some c =>
        have hmem : c ∈ info.funds := List.mem_of_find?_eq_some hc
        rw [← huakt c hc]
        exact credits_mem hmem balance
    have hle : taken info msg ≤ acceptedAmount info.funds := by
      cases msg with
      | submitTask specId sdlHash maxPrice duration => exact Nat.le_refl _
      | placeBid taskId price => exact Nat.le_refl _
      | registerGPUSpec | acceptBid | settleTask | cancelTask | updateConfig => exact Nat.zero_le _
    omega

theorem deliver_kept (hw : Kept w) (hok : deliver chain tx w = .ok w') : Kept w' := by
  obtain ⟨⟨store, sends⟩, hexec, hok⟩ := bind_iff.mp hok
  obtain ⟨balance, hpay, hok⟩ := bind_iff.mp hok
  cases hok
  constructor
  case books => exact execute_books hw.books hexec
  case covered =>
    intro hall
    obtain ⟨hbefore, hcoin⟩ := allUakt_take hw.books hall
    have hcovered := hw.covered hbefore
    have hconserved := execute_conserves hw.books hexec
    have hcredit := taken_le w.balance hcoin
    have hdebit := pays_le hpay "uakt"
    show liable store ≤ balance "uakt"
    omega
  case uakt =>
    intro m hm
    rcases List.mem_append.mp hm with hold | hnew
    · rw [take_payments] at hold
      exact hw.uakt m hold
    · exact execute_uakt hw.books hexec m hnew

theorem step_kept (tx : Tx) (hw : Kept w) : Kept (step chain w tx) := by
  unfold step
  cases hok : deliver chain tx w with
  | ok w' => exact deliver_kept hw hok
  | error e => exact hw

theorem instantiate_kept {msg : InstantiateMsg} (hinit : instantiate chain msg = .ok s) (balance : String → ℕ) :
    Kept (start s balance) := by
  obtain ⟨admin, -, hinit⟩ := bind_iff.mp hinit
  obtain ⟨revenueSplitter, -, hinit⟩ := bind_iff.mp hinit
  obtain ⟨zkVerifier, -, hinit⟩ := bind_iff.mp hinit
  cases hinit
  refine ⟨⟨?_, ?_, fun _ _ => ⟨rfl, rfl, rfl⟩, fun _ _ => ⟨rfl, rfl⟩, ?_, ?_⟩, fun _ => Nat.zero_le _, ?_⟩
  · exact fun id t ht => nomatch ht
  · exact fun id b hb => nomatch hb
  · exact fun id t ht => nomatch ht
  · exact fun id b hb => nomatch hb
  · exact fun m hm => absurd hm List.not_mem_nil

theorem run_kept {msg : InstantiateMsg} (hinit : instantiate chain msg = .ok s) (balance : String → ℕ) (txs : List Tx) :
    Kept (run chain (start s balance) txs) :=
  Trace.run_invariant Kept txs (instantiate_kept hinit balance) fun _ tx hw => step_kept tx hw

/-! ## Custody -/

/-- What the contract owes in one denomination: escrows and deposits that came in it. -/
def owed (w : World) (d : String) : ℕ :=
  sum w.store.tasks (fun t => if (w.history.taskFunds t.taskId).map Coin.denom = some d then liveEscrow t else 0)
    + sum w.store.bids fun b => if (w.history.bidFunds b.bidId).map Coin.denom = some d then activeDeposit b else 0

def Solvent (w : World) : Prop := ∀ d, owed w d ≤ w.balance d

/-- The coin that came with the record a payment is for. -/
def coinFor (h : History) : Purpose → Option Coin
  | .fee taskId | .escrow taskId => h.taskFunds taskId
  | .deposit bidId => h.bidFunds bidId

/-- **IN CUSTODY**: bids are active on tasks that take bids only; each escrow is paid out as
    its status says, and in full; each closed bid got its deposit back, once. -/
structure InCustody (w : World) : Prop where
  active : ∀ id b, w.store.bids.lookup id = some b → b.active = true →
    ∃ t, w.store.tasks.lookup b.taskId = some t ∧ (t.status = .open ∨ t.status = .bidding)
  escrow : ∀ id t, w.store.tasks.lookup id = some t →
    EscrowPaid w.store.bids (netEscrow w.history id) t (paidFor (.escrow id) w.history.payments)
  whole : ∀ id t, w.store.tasks.lookup id = some t → t.status = .settled ∨ t.status = .cancelled →
    total (paidFor (.escrow id) w.history.payments) = netEscrow w.history id
  deposit : ∀ id b, w.store.bids.lookup id = some b → ∃ coin, w.history.bidFunds id = some coin ∧
    paidFor (.deposit id) w.history.payments = if b.active = true then [] else [(b.provider, coin.amount)]
  noTask : ∀ id, w.store.tasks.lookup id = none → paidFor (.escrow id) w.history.payments = []
  noBid : ∀ id, w.store.bids.lookup id = none → paidFor (.deposit id) w.history.payments = []

/-- The balances cover what is owed in each denomination, and what is paid for a record is
    paid in the denomination that came with it. -/
structure InKind (w : World) : Prop where
  solvent : Solvent w
  payments : ∀ m ∈ w.history.payments, ∀ c, coinFor w.history m.purpose = some c → m.amount.denom = c.denom

/-- The payouts of a task that is done add up to its net escrow. -/
theorem escrowPaid_total {bids : OrderedMap String Bid} {net : ℕ} {t : Task} {paid : List (String × ℕ)}
    (hpaid : EscrowPaid bids net t paid) (hdone : t.status = .settled ∨ t.status = .cancelled) : total paid = net := by
  unfold EscrowPaid at hpaid
  rcases hdone with hs | hs
  · rw [hs] at hpaid
    obtain ⟨b, -, rfl⟩ := hpaid
    have hle : award t b net ≤ net := Nat.min_le_right _ _
    rw [total_nonzero]
    show award t b net + (net - award t b net + 0) = net
    omega
  · rw [hs] at hpaid
    obtain rfl := hpaid
    rw [total_nonzero]
    exact Nat.add_zero net

theorem Kept.inCustody (hw : Kept w) : InCustody w := by
  constructor
  case active =>
    intro id b hb hactive
    obtain ⟨t, ht, hearly⟩ := (hw.books.bid id b hb).task
    exact ⟨t, ht, hearly hactive⟩
  case escrow => exact fun id t ht => (hw.books.task id t ht).paid
  case whole => exact fun id t ht hdone => escrowPaid_total (hw.books.task id t ht).paid hdone
  case deposit =>
    intro id b hb
    obtain ⟨coin, hcoin, hamount⟩ := (hw.books.bid id b hb).funds
    refine ⟨coin, hcoin, ?_⟩
    rw [hamount]
    exact (hw.books.bid id b hb).paid
  case noTask => exact fun id hid => (hw.books.noTask id hid).2.1
  case noBid => exact fun id hid => (hw.books.noBid id hid).2

/-- Where all was funded in uakt, uakt is all that is owed. -/
theorem Kept.inKind (hw : Kept w) (hall : AllUakt w.history) : InKind w := by
  constructor
  case solvent =>
    intro d
    by_cases hd : d = "uakt"
    · rw [hd]
      refine Nat.le_trans (Nat.add_le_add ?_ ?_) (hw.covered hall)
      · apply sum_le_sum
        intro t
        split
        · exact Nat.le_refl _
        · exact Nat.zero_le _
      · apply sum_le_sum
        intro b
        split
        · exact Nat.le_refl _
        · exact Nat.zero_le _
    · have hother : ∀ coin : Option Coin, (∀ c, coin = some c → c.denom = "uakt") → coin.map Coin.denom ≠ some d := by
        intro coin hcoin hc
        obtain ⟨c, rfl, hdenom⟩ := Option.map_eq_some_iff.mp hc
        exact hd (hdenom.symm.trans (hcoin c rfl))
      have htasks : sum w.store.tasks
          (fun t => if (w.history.taskFunds t.taskId).map Coin.denom = some d then liveEscrow t else 0) = 0 := by
        apply sum_eq_zero
        intro t
        exact if_neg (hother _ (hall.1 t.taskId))
      have hbids : sum w.store.bids
          (fun b => if (w.history.bidFunds b.bidId).map Coin.denom = some d then activeDeposit b else 0) = 0 := by
        apply sum_eq_zero
        intro b
        exact if_neg (hother _ (hall.2 b.bidId))
      rw [owed, htasks, hbids]
      exact Nat.zero_le _
  case payments =>
    intro m hm c hc
    rw [hw.uakt m hm]
    cases hpurpose : m.purpose with
    | fee taskId | escrow taskId =>
      rw [hpurpose] at hc
      exact (hall.1 taskId c hc).symm
    | deposit bidId =>
      rw [hpurpose] at hc
      exact (hall.2 bidId c hc).symm

/-- **CUSTODY**: after any messages, every task and bid is in custody; and where all of
    them were funded in uakt, the balances cover what is owed in each denomination. -/
theorem market_custody (chain : Chain) (msg : InstantiateMsg) (s : Store) (hinit : instantiate chain msg = .ok s)
    (balance : String → ℕ) (txs : List Tx) : InCustody (run chain (start s balance) txs)
      ∧ (AllUakt (run chain (start s balance) txs).history → InKind (run chain (start s balance) txs)) :=
  ⟨(run_kept hinit balance txs).inCustody, (run_kept hinit balance txs).inKind⟩

/-! ## Runs funded in uakt -/

theorem take_allUakt (hall : AllUakt h) (hcoin : ∀ c ∈ acceptedCoin info.funds, c.denom = "uakt") :
    AllUakt (h.take env info s msg) := by
  cases msg with
  | submitTask specId sdlHash maxPrice duration =>
    refine ⟨fun id c hc => ?_, hall.2⟩
    by_cases hid : id = taskIdOf env.height s.taskCount
    · have hnew : update h.taskFunds (taskIdOf env.height s.taskCount) (acceptedCoin info.funds) id = some c := hc
      rw [hid, update_self] at hnew
      exact hcoin c hnew
    · exact hall.1 id c ((update_of_ne hid ..).symm.trans hc)
  | placeBid taskId price =>
    refine ⟨hall.1, fun id c hc => ?_⟩
    by_cases hid : id = bidIdOf taskId s.bidCount
    · have hnew : update h.bidFunds (bidIdOf taskId s.bidCount) (acceptedCoin info.funds) id = some c := hc
      rw [hid, update_self] at hnew
      exact hcoin c hnew
    · exact hall.2 id c ((update_of_ne hid ..).symm.trans hc)
  | registerGPUSpec | acceptBid | settleTask | cancelTask | updateConfig => exact hall

theorem step_allUakt (hall : AllUakt w.history) (hcoin : ∀ c ∈ acceptedCoin tx.info.funds, c.denom = "uakt") :
    AllUakt (step chain w tx).history := by
  unfold step
  cases hok : deliver chain tx w with
  | error e => exact hall
  | ok w' =>
    obtain ⟨⟨store, sends⟩, -, hok⟩ := bind_iff.mp hok
    obtain ⟨balance, -, hok⟩ := bind_iff.mp hok
    cases hok
    exact take_allUakt hall hcoin

theorem run_allUakt (s : Store) (balance : String → ℕ) {txs : List Tx}
    (hcoins : ∀ tx ∈ txs, ∀ c ∈ acceptedCoin tx.info.funds, c.denom = "uakt") :
    AllUakt (run chain (start s balance) txs).history := by
  refine Trace.run_keeps (fun w : World => AllUakt w.history) ⟨fun _ _ hc => (nomatch hc),
    fun _ _ hc => (nomatch hc)⟩ ?_
  intro l tx r hl hall
  have hmem : tx ∈ txs := by
    rw [hl]
    exact List.mem_append_right l List.mem_cons_self
  exact step_allUakt hall (hcoins tx hmem)

/-! ## Two runs -/

def sampleChain : Chain := ⟨"market", some⟩

def sampleMsg : InstantiateMsg := ⟨"admin", "splitter", "verifier", some 50, some "channel-42", some true⟩

def sampleStore : Store where
  config := ⟨"admin", "splitter", "verifier", 50, "channel-42", true⟩
  gpuSpecs := ∅
  tasks := ∅
  bids := ∅
  taskBidList := ∅
  settlements := ∅
  nullifiers := ∅
  metrics := ⟨0, 0, 0, 0, 0, 0⟩
  taskCount := 0
  bidCount := 0

def sampleTx (sender : String) (funds : List Coin) (msg : ExecuteMsg) : Tx := ⟨⟨12345, 1000⟩, ⟨sender, funds⟩, msg⟩

/-- Alice posts a task over ten hours at 100 uakt at most, and sends exactly that. -/
def samplePosted : List Tx := [
  sampleTx "admin" [] (.registerGPUSpec "nvidia" "rtx4090" 24576 16384 200000),
  sampleTx "alice" [⟨"uakt", 1000⟩] (.submitTask "nvidia-rtx4090" "hash1" 100 10)]

/-- Carol bids the full price and is accepted; Dave is refunded; the task settles. -/
def sampleSettled : List Tx := samplePosted ++ [
  sampleTx "dave" [⟨"uakt", 20000⟩] (.placeBid "cmp-12345-0" 90),
  sampleTx "carol" [⟨"uakt", 10000⟩] (.placeBid "cmp-12345-0" 100),
  sampleTx "alice" [] (.acceptBid "bid-cmp-12345-0-1"),
  sampleTx "admin" [] (.settleTask "cmp-12345-0" "output" "nullifier1")]

/-- Bob posts a task next to Alice's and pays for it in the other denomination. -/
def sampleMixed : List Tx := samplePosted ++ [
  sampleTx "bob" [⟨"uosmo", 1000⟩] (.submitTask "nvidia-rtx4090" "hash2" 100 10)]

def sampleRun (txs : List Tx) : World := run sampleChain (start sampleStore fun _ => 0) txs

theorem market_custody_settled : InCustody (sampleRun sampleSettled) ∧ InKind (sampleRun sampleSettled) := by
  have hcustody := market_custody sampleChain sampleMsg sampleStore rfl (fun _ => 0) sampleSettled
  exact ⟨hcustody.1, hcustody.2 (run_allUakt sampleStore _ (by decide))⟩

/-- Every settled task's provider got the price for the whole duration. -/
def PaidInFull (w : World) : Prop :=
  ∀ id t b, w.store.tasks.lookup id = some t → t.status = .settled → w.store.bids.lookup t.winningBidId = some b →
    (b.provider, b.price * t.duration) ∈ paidFor (.escrow id) w.history.payments

/-- Carol is owed 1000 and gets the 995 left of the escrow after the fee; Bob's fee is taken
    from Alice's coins, so 990 uakt are there for an escrow of 995. -/
theorem short_of_fee : ¬ (∀ chain msg s, instantiate chain msg = .ok s → ∀ balance txs,
    Solvent (run chain (start s balance) txs) ∧ PaidInFull (run chain (start s balance) txs))
      ∧ ¬ Solvent (sampleRun sampleMixed) ∧ ¬ PaidInFull (sampleRun sampleSettled) := by
  have hsolvent : ¬ Solvent (sampleRun sampleMixed) := fun hs => absurd (hs "uakt") (by decide +kernel)
  refine ⟨fun hclaim => hsolvent (hclaim sampleChain sampleMsg sampleStore rfl (fun _ => 0) sampleMixed).1,
    hsolvent, ?_⟩
  intro hfull
  have htask : (sampleRun sampleSettled).store.tasks.lookup "cmp-12345-0" = some {
      taskId := "cmp-12345-0", requester := "alice", specId := "nvidia-rtx4090", sdlHash := "hash1", maxPrice := 100
      escrow := 995, duration := 10, status := .settled, createdAt := 1000, settledAt := 1000
      winningBidId := "bid-cmp-12345-0-1", completionNullifier := "nullifier1" } := by decide +kernel
  have hbid : (sampleRun sampleSettled).store.bids.lookup "bid-cmp-12345-0-1" = some {
      bidId := "bid-cmp-12345-0-1", taskId := "cmp-12345-0", provider := "carol", price := 100, deposit := 10000
      active := false, submittedAt := 1000 } := by decide +kernel
  exact absurd (hfull _ _ _ htask rfl hbid) (by decide +kernel)

end ComputeMarketCustody
